import PitBox.Foundations.HeaderMap
import PitBox.Runtime.HttpHost

/-!
# Nested calls of a guest

A guest calls another service in two ways: it sends an HTTP request, or it uses
the service import. Both make the same invocation of it, which the host hands
to its service invoker on a thread of its own and waits for. The texts of a URI
and the checks of header names and values belong to other libraries.
-/

namespace PitBox.Runtime

/-- The logical address of a service. -/
structure PitUri where
  service : String
  pathAndQuery : String
  deriving DecidableEq, Repr

/-- The value of a header: its text, or `none` when it is not text. -/
abbrev HeaderValue := Option String

structure ServiceInvocationRequest where
  target : PitUri
  method : String
  headers : List (String × HeaderValue)
  body : Bytes
  parentExecutionId : Option String
  depth : ℕ
  sourceGarageId : Option String
  visitedGarages : List String
  applicationId : Option String
  releaseId : Option String
  deriving DecidableEq, Repr

structure ServiceInvocationResponse where
  status : ℕ
  headers : HeaderMap String HeaderValue
  body : Bytes
  childExecutionId : String

/-- The parsers of the libraries around a nested call. -/
structure ServiceLibrary where
  parseUri : String → Except String PitUri
  method : String → Except String Unit
  headerName : String → Except String Unit
  headerValue : String → Except String Unit

/-- The request of a guest that sends HTTP. -/
structure OutgoingRequest where
  authority : Option String
  pathAndQuery : Option String
  method : String
  headers : List (String × HeaderValue)
  body : Except Unit Bytes

/-- The request of a guest that uses the service import. -/
structure ServiceRequest where
  uri : String
  method : String
  headers : List (String × String)
  body : Bytes

inductive ErrorCode where
  | httpRequestUriInvalid
  | httpRequestDenied
  deriving DecidableEq, Repr

inductive ServiceError where
  | invalidUri (message : String)
  | unavailable (message : String)
  deriving DecidableEq, Repr

/-- `depth.saturating_add(1)` of a 16-bit depth. -/
def saturatingSucc (depth : ℕ) : ℕ := min (depth + 1) (2 ^ 16 - 1)

theorem saturatingSucc_of_lt {depth : ℕ} (h : depth < 2 ^ 16 - 1) :
    saturatingSucc depth = depth + 1 := min_eq_left h

namespace HttpHostState

variable (state : HttpHostState) (library : ServiceLibrary)

/-- The invocation made for a nested call, with the context of the caller. -/
def invocation (target : PitUri) (method : String) (headers : List (String × HeaderValue))
    (body : Bytes) : ServiceInvocationRequest where
  target
  method
  headers
  body
  parentExecutionId := state.parentExecutionId
  depth := saturatingSucc state.invocationDepth
  sourceGarageId := state.sourceGarageId
  visitedGarages := state.visitedGarages
  applicationId := state.applicationId
  releaseId := state.releaseId

/-- `send_request` up to the call of the invoker. -/
def sendRequest (hasInvoker : Bool) (request : OutgoingRequest) :
    Except ErrorCode ServiceInvocationRequest :=
  match request.authority with
  | none => .error .httpRequestUriInvalid
  | some authority =>
    match library.parseUri ("pit://" ++ authority ++ request.pathAndQuery.getD "/") with
    | .error _ => .error .httpRequestDenied
    | .ok target =>
      if hasInvoker = false then .error .httpRequestDenied
      else if request.headers.any (·.2.isNone) then .error .httpRequestDenied
      else
        match request.body with
        | .error () => .error .httpRequestDenied
        | .ok body =>
          let headers := request.headers.filter fun (name, value) =>
            (library.headerName name).isOk && value.any fun text => (library.headerValue text).isOk
          .ok (state.invocation target request.method headers body)

/-- The headers of the service import, the first invalid one as an error. -/
def importHeaders : List (String × String) → Except ServiceError (List (String × HeaderValue))
  | [] => .ok []
  | (name, value) :: rest =>
    match library.headerName name, library.headerValue value with
    | .error error, _ => .error (.unavailable ("invalid header: " ++ error))
    | .ok (), .error error => .error (.unavailable ("invalid header: " ++ error))
    | .ok (), .ok () => (importHeaders rest).map ((name, some value) :: ·)

/-- `call` of the service import up to the call of the invoker. -/
def call (hasInvoker : Bool) (request : ServiceRequest) :
    Except ServiceError ServiceInvocationRequest :=
  match library.parseUri request.uri with
  | .error error => .error (.invalidUri error)
  | .ok target =>
    if hasInvoker = false then .error (.unavailable "service invocation is not enabled")
    else
      match library.method request.method with
      | .error error => .error (.unavailable ("invalid method: " ++ error))
      | .ok () =>
        match importHeaders library request.headers with
        | .error error => .error error
        | .ok headers => .ok (state.invocation target request.method headers request.body)

/-- A nested call, by the way the guest makes it. -/
inductive NestedCall where
  | sendRequest (request : OutgoingRequest)
  | call (request : ServiceRequest)

/-- The invocation a nested call hands to the invoker, if it comes that far. -/
def nested (hasInvoker : Bool) : NestedCall → Option ServiceInvocationRequest
  | .sendRequest request => (state.sendRequest library hasInvoker request).toOption
  | .call request => (state.call library hasInvoker request).toOption

variable {state library} {hasInvoker : Bool} {invocation : ServiceInvocationRequest}

theorem sendRequest_ok {request : OutgoingRequest}
    (h : state.sendRequest library hasInvoker request = .ok invocation) :
    ∃ target method headers body, invocation = state.invocation target method headers body := by
  revert h
  fun_cases sendRequest state library hasInvoker request <;> intro h <;> cases h
  exact ⟨_, _, _, _, rfl⟩

theorem call_ok {request : ServiceRequest}
    (h : state.call library hasInvoker request = .ok invocation) :
    ∃ target method headers body, invocation = state.invocation target method headers body := by
  revert h
  fun_cases call state library hasInvoker request <;> intro h <;> cases h
  exact ⟨_, _, _, _, rfl⟩

/-- On either way a nested call is one deeper and carries the path of its caller. -/
theorem nested_context {nestedCall : NestedCall}
    (h : state.nested library hasInvoker nestedCall = some invocation) :
    invocation.depth = saturatingSucc state.invocationDepth ∧
      invocation.visitedGarages = state.visitedGarages := by
  have hmade : ∃ target method headers body,
      invocation = state.invocation target method headers body := by
    cases nestedCall with
    | sendRequest request =>
      rw [nested] at h
      cases hsent : state.sendRequest library hasInvoker request with
      | error error =>
        rw [hsent] at h
        cases h
      | ok sent =>
        rw [hsent] at h
        cases h
        exact sendRequest_ok hsent
    | call request =>
      rw [nested] at h
      cases hcalled : state.call library hasInvoker request with
      | error error =>
        rw [hcalled] at h
        cases h
      | ok called =>
        rw [hcalled] at h
        cases h
        exact call_ok hcalled
  obtain ⟨target, method, headers, body, rfl⟩ := hmade
  exact ⟨rfl, rfl⟩

end HttpHostState

end PitBox.Runtime
