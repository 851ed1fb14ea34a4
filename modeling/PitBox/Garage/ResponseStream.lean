import PitBox.Garage.Types
import PitBox.Runtime.HttpExecution
import PitBox.Runtime.ServiceCall

/-!
# The response of a guest as a stream

While a guest handles an HTTP request, a task of its own waits for the response
and collects the body, and the caller joins the guest first and that task
second. Between them are the out-parameter that the guest sets once, and the
body, a stream of chunks on which calls of the guest may have to wait. The Store
of the guest is kept until the caller returns, so what the guest leaves unset
stays unset. The stream is that of another crate: for which calls it has room,
with which chunks still in it, is a parameter.

A guest is the list of what it does with its response, and a schedule is any
order in which the guest, the task and the caller take their steps.
-/

namespace PitBox.Garage

open PitBox.Runtime (Bytes Error GuestStore HeaderValue HttpFailure)

/-- The number of chunks that the stream of a body is asked to hold. -/
def outgoingBodyBufferChunks : ℕ := 4096

/-- A response without its body. -/
structure ResponseHead where
  status : ℕ
  headers : List (String × HeaderValue)
  deriving DecidableEq, Repr

/-- What a guest does with its response. The body ends by being finished, or
with the error the library has for a body that is dropped. -/
inductive GuestAction where
  | body
  | write (chunk : Bytes)
  | flush
  | finish (result : Except Error Unit)
  | set (response : Except Error ResponseHead)
  | dropOutparam
  deriving DecidableEq, Repr

inductive Outparam where
  | held
  | sent (response : Except Error ResponseHead)
  | dropped
  deriving DecidableEq, Repr

/-- Whether a call on an open body goes on at once, by the chunks still in it. -/
abbrev BodyRoom := List Bytes → GuestAction → Bool

/-- The body on its way. It is closed when its receiver is gone. -/
inductive BodyStream where
  | unopened
  | streaming (queue : List Bytes) (ended : Option (Except Error Unit))
  | closed
  deriving DecidableEq, Repr

/-- What a guest has put out. -/
structure Output where
  outparam : Outparam
  body : BodyStream
  deriving DecidableEq, Repr

/-- The task that collects the response. -/
inductive ResponseTask where
  | waiting
  | collecting (response : HttpResponse)
  | finished (result : Except Error HttpResponse)
  | aborted
  deriving DecidableEq, Repr

inductive Caller where
  | joiningHandler
  | joiningResponse
  | returned (result : Except HttpFailure HttpResponse)
  deriving DecidableEq, Repr

structure ResponseStream where
  guest : List GuestAction
  output : Output
  task : ResponseTask
  caller : Caller
  deriving DecidableEq, Repr

/-- The out-parameter is used once. -/
def Outparam.put : Outparam → GuestAction → Outparam
  | .held, .set response => .sent response
  | .held, .dropOutparam => .dropped
  | outparam, _ => outparam

/-- A body belongs to a response that has not been sent; it is opened once and
ended once. A call on a handle that is used up changes nothing. -/
def BodyStream.put (sent : Bool) : BodyStream → GuestAction → BodyStream
  | .unopened, .body => if sent then .unopened else .streaming [] none
  | .streaming queue none, .write chunk => .streaming (queue ++ [chunk]) none
  | .streaming queue none, .finish result => .streaming queue (some result)
  | body, _ => body

namespace Output

def initial : Output := ⟨.held, .unopened⟩

/-- The response itself is on its way to the task. -/
def flows (o : Output) : Bool :=
  match o.outparam with
  | .sent (.ok _) => true
  | _ => false

def put (o : Output) (a : GuestAction) : Output := ⟨o.outparam.put a, o.body.put o.flows a⟩

end Output

/-- Only calls on a body that is open have to wait for room in it. -/
def BodyStream.hasRoom (room : BodyRoom) (body : BodyStream) (a : GuestAction) : Bool :=
  match body with
  | .streaming queue none => room queue a
  | _ => true

/-- The headers as texts; the first value that is not text is an error. -/
def headerTexts : List (String × HeaderValue) → Except Error (List (String × String))
  | [] => .ok []
  | (_, none) :: _ => .error ["failed to convert header to a str"]
  | (name, some value) :: rest => (headerTexts rest).map ((name, value) :: ·)

/-- What the caller makes of a response when it has joined both. -/
def settle (store : GuestStore) : Except Error HttpResponse → Except HttpFailure HttpResponse
  | .error error => .error (.response error)
  | .ok response =>
    match store.control.signal with
    | .cancelled => .error .cancelled
    | .timedOut => .error .timedOut
    | .none => if store.limits.memoryExceeded then .error .memoryLimit else .ok response

/-- Who takes a step. -/
inductive Task where
  | guest
  | response
  | caller
  deriving DecidableEq, Repr

namespace ResponseStream

def initial (guest : List GuestAction) : ResponseStream :=
  ⟨guest, .initial, .waiting, .joiningHandler⟩

def guestStep (room : BodyRoom) (s : ResponseStream) : Option ResponseStream :=
  match s.guest with
  | [] => none
  | a :: guest =>
    if s.output.body.hasRoom room a then some { s with guest, output := s.output.put a }
    else none

def responseStep (s : ResponseStream) : Option ResponseStream :=
  match s.task with
  | .waiting =>
    match s.output.outparam with
    | .held => none
    | .dropped =>
      some { s with task := .finished (.error ["HTTP guest dropped response output"]) }
    | .sent (.error error) => some { s with task := .finished (.error error) }
    | .sent (.ok head) =>
      match headerTexts head.headers with
      | .error error =>
        -- The response is dropped, and the receiver of its body with it.
        some { s with task := .finished (.error error), output := ⟨s.output.outparam, .closed⟩ }
      | .ok headers => some { s with task := .collecting ⟨head.status, headers, []⟩ }
  | .collecting response =>
    match s.output.body with
    | .unopened => some { s with task := .finished (.ok response) }
    | .streaming (chunk :: queue) ended =>
      some { s with
        task := .collecting { response with body := response.body ++ chunk }
        output := ⟨s.output.outparam, .streaming queue ended⟩ }
    | .streaming [] (some (.ok ())) => some { s with task := .finished (.ok response) }
    | .streaming [] (some (.error error)) => some { s with task := .finished (.error error) }
    | .streaming [] none | .closed => none
  | .finished _ | .aborted => none

/-- The caller, with the Store and the result that its guest leaves. -/
def callerStep (store : GuestStore) (handled : Except Error Unit) (s : ResponseStream) :
    Option ResponseStream :=
  match s.caller with
  | .joiningHandler =>
    match s.guest with
    | _ :: _ => none
    | [] =>
      match handled with
      | .error error =>
        some { s with task := .aborted, caller := .returned (.error (.handler error)) }
      | .ok () => some { s with caller := .joiningResponse }
  | .joiningResponse =>
    match s.task with
    | .finished result => some { s with caller := .returned (settle store result) }
    | _ => none
  | .returned _ => none

def step (room : BodyRoom) (store : GuestStore) (handled : Except Error Unit) (s : ResponseStream) :
    Task → Option ResponseStream
  | .guest => s.guestStep room
  | .response => s.responseStep
  | .caller => s.callerStep store handled

end ResponseStream

/-! ### What a script of a guest answers -/

namespace Output

def puts (o : Output) (actions : List GuestAction) : Output := actions.foldl put o

/-- The result the task comes to, if it comes to one. -/
def response (o : Output) : Option (Except Error HttpResponse) :=
  match o.outparam with
  | .held => none
  | .dropped => some (.error ["HTTP guest dropped response output"])
  | .sent (.error error) => some (.error error)
  | .sent (.ok head) =>
    match headerTexts head.headers with
    | .error error => some (.error error)
    | .ok headers =>
      match o.body with
      | .unopened | .closed => some (.ok ⟨head.status, headers, []⟩)
      | .streaming _ none => none
      | .streaming chunks (some (.ok ())) => some (.ok ⟨head.status, headers, chunks.flatten⟩)
      | .streaming _ (some (.error error)) => some (.error error)

/-- No call on the body waits for a response that is not on its way. -/
def Fits (room : BodyRoom) : Output → List GuestAction → Prop
  | _, [] => True
  | o, a :: rest => (o.flows ∨ o.body.hasRoom room a) ∧ Fits room (o.put a) rest

instance Fits.decidable (room : BodyRoom) :
    ∀ (o : Output) (actions : List GuestAction), Decidable (o.Fits room actions)
  | _, [] => isTrue trivial
  | o, a :: rest =>
    have : Decidable ((o.put a).Fits room rest) := decidable room (o.put a) rest
    inferInstanceAs (Decidable ((o.flows ∨ o.body.hasRoom room a) ∧ (o.put a).Fits room rest))

/-- The guest can take all its steps, and unless it fails its response is complete. -/
def Answers (room : BodyRoom) (handled : Except Error Unit) (actions : List GuestAction) : Prop :=
  initial.Fits room actions ∧
    (handled = .ok () → ((initial.puts actions).response).isSome)

instance (room : BodyRoom) (handled : Except Error Unit) (actions : List GuestAction) :
    Decidable (Answers room handled actions) := by
  unfold Answers
  infer_instance

variable {o : Output} {a : GuestAction}

theorem flows_iff : o.flows ↔ ∃ head, o.outparam = .sent (.ok head) := by
  obtain ⟨outparam, body⟩ := o
  cases outparam with
  | held | dropped => simp [flows]
  | sent response => cases response <;> simp [flows]

theorem put_outparam (h : o.outparam ≠ .held) : (o.put a).outparam = o.outparam := by
  cases ho : o.outparam with
  | held => exact absurd ho h
  | sent response | dropped => rw [put, ho]; rfl

end Output

end PitBox.Garage
