import PitBox.Garage.Types
import PitBox.Runtime.ServiceCall

/-!
# From a guest of a Garage to the next Garage

`execute` gives its guest a host that knows the path of the invocation, with
the Garage at its end, and a service invoker. A nested call of the guest goes
through the host to the invoker, which writes it as a request to PitLane. On
the way the Garages of the path are texts; the invoker parses them again.
-/

namespace PitBox.Garage

open PitBox.Runtime

/-- The two directions between a Garage id and its text. -/
structure GarageIds where
  display : GarageId → String
  parse : String → Option GarageId

/-- Every id parses back from its text. -/
def GarageIds.ParsesBack (ids : GarageIds) : Prop := ∀ id, ids.parse (ids.display id) = some id

/-- What a request carries for the guest. -/
structure RemotePayload where
  method : Text
  pathAndQuery : Text
  headers : List (Text × Text)
  body : Bytes
  applicationId : Option String
  releaseId : Option String

structure LogicalInvocationRequest where
  protocolVersion : ℕ
  requestId : String
  parentExecutionId : Option String
  targetService : String
  method : String
  pathAndQuery : String
  headers : List (String × String)
  body : Bytes
  invocationDepth : ℕ
  sourceGarageId : Option GarageId
  visitedGarages : List GarageId
  applicationId : Option String
  releaseId : Option String
  deriving DecidableEq, Repr

structure GarageServiceInvoker where
  garageId : GarageId
  protocolVersion : ℕ
  maxDepth : ℕ
  deriving DecidableEq, Repr

/-- `invoke` up to the request it posts to PitLane. -/
def GarageServiceInvoker.invoke (ids : GarageIds) (invoker : GarageServiceInvoker)
    (requestId : String) (request : ServiceInvocationRequest) :
    Except Error LogicalInvocationRequest :=
  if invoker.maxDepth < request.depth then
    .error [s!"maximum invocation depth {invoker.maxDepth} exceeded"]
  else
    let headers := request.headers.map fun (name, value) => (name, value.getD "")
    .ok
      { protocolVersion := invoker.protocolVersion
        requestId := "nested-" ++ requestId
        parentExecutionId := request.parentExecutionId
        targetService := request.target.service
        method := request.method
        pathAndQuery := request.target.pathAndQuery
        headers :=
          if headers.any (·.1.toLower == "host") then headers
          else headers ++ [("host", request.target.service)]
        body := request.body
        invocationDepth := request.depth
        sourceGarageId := some invoker.garageId
        visitedGarages := request.visitedGarages.filterMap ids.parse
        applicationId := request.applicationId
        releaseId := request.releaseId }

/-- The request handed to the dispatcher by `execute`. -/
def GarageAgent.httpRequest (ids : GarageIds) (g : GarageAgent) (grants : List PaddockGrant)
    (request : RemoteExecutionRequest) (payload : RemotePayload) : HttpRequest where
  method := payload.method
  pathAndQuery := payload.pathAndQuery
  headers := payload.headers
  body := payload.body
  sourceGarageId := some (ids.display g.id)
  visitedGarages := (request.visitedGarages ++ [g.id]).map ids.display
  applicationId := payload.applicationId
  releaseId := payload.releaseId
  paddockGrants := grants
  paddockAuth := none

/-- A guest of a Garage: what `execute` was asked, and the id of its execution. -/
structure GuestExecution where
  garage : GarageAgent
  maxInvocationDepth : ℕ
  grants : List PaddockGrant
  request : RemoteExecutionRequest
  payload : RemotePayload
  executionId : String

namespace GuestExecution

variable (ids : GarageIds) (library : ServiceLibrary) (sha256 : Bytes → Sha256)

def host (e : GuestExecution) : HttpHostState :=
  .new sha256 (e.garage.httpRequest ids e.grants e.request e.payload) (some e.executionId)
    e.request.invocationDepth

def invoker (e : GuestExecution) : GarageServiceInvoker where
  garageId := e.garage.id
  protocolVersion := e.garage.protocolVersion
  maxDepth := e.maxInvocationDepth

/-- The request a nested call of the guest posts to PitLane, if it comes that far. -/
def nested (e : GuestExecution) (nestedCall : HttpHostState.NestedCall) (requestId : String) :
    Option LogicalInvocationRequest :=
  ((e.host ids sha256).nested library true nestedCall).bind fun invocation =>
    (e.invoker.invoke ids requestId invocation).toOption

variable {ids : GarageIds} {library : ServiceLibrary} {sha256 : Bytes → Sha256}

/-- What a nested call carries: one more level, and the path with the Garage at
its end. -/
theorem nested_context (hids : ids.ParsesBack) {e : GuestExecution}
    {nestedCall : HttpHostState.NestedCall} {requestId : String}
    {logical : LogicalInvocationRequest}
    (h : e.nested ids library sha256 nestedCall requestId = some logical) :
    logical.invocationDepth = saturatingSucc e.request.invocationDepth ∧
      logical.visitedGarages = e.request.visitedGarages ++ [e.garage.id] := by
  obtain ⟨invocation, hmade, hposted⟩ := Option.bind_eq_some_iff.mp h
  obtain ⟨hdepth, hvisited⟩ := HttpHostState.nested_context hmade
  have hparsed : invocation.visitedGarages.filterMap ids.parse =
      e.request.visitedGarages ++ [e.garage.id] := by
    rw [hvisited]
    change ((e.request.visitedGarages ++ [e.garage.id]).map ids.display).filterMap ids.parse = _
    rw [List.filterMap_map, show ids.parse ∘ ids.display = some from funext hids,
      List.filterMap_some]
  unfold GarageServiceInvoker.invoke at hposted
  split_ifs at hposted
  · cases hposted
  · cases hposted
    exact ⟨hdepth, hparsed⟩

end GuestExecution

end PitBox.Garage
