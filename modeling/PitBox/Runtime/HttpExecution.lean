import PitBox.Runtime.Artifact
import PitBox.Runtime.Control

/-!
# Executing an HTTP component

`executeHttpWithInvokerTimed` from the Store it builds to the answer it gives.
The guest is entered twice, for the instantiation and for the handler, while a
second task waits for the response. The function looks at the result of the
handler first, at the response second and only then at the signal.
-/

namespace PitBox.Runtime

/-- How an HTTP execution ends without a response, by the statement that
returns the error. -/
inductive HttpFailure where
  | setup (error : Error)
  | instantiation (error : Error)
  | handler (error : Error)
  | response (error : Error)
  | cancelled
  | timedOut
  | memoryLimit
  deriving DecidableEq, Repr

/-- The error as its caller gets it. -/
def HttpFailure.toError : HttpFailure → Error
  | .setup error | .instantiation error | .response error => error
  | .handler error => ["WASI HTTP incoming handler failed: " ++ String.intercalate ": " error]
  | .cancelled => ["HTTP execution was cancelled"]
  | .timedOut => ["HTTP execution exceeded its timeout"]
  | .memoryLimit => ["HTTP execution exceeded its memory limit"]

/-- What happens in one execution: the set-up before the guest is entered (the
engine, the request, the Store and its resources), the two calls into the
guest, and the task that waits for the response, which is passed on as it is. -/
structure HttpRun (R : Type) where
  setup : Except Error Unit
  instantiation : GuestCall Error Unit
  handler : GuestCall Error Unit
  response : Except Error R

/-- HTTP execution. The timings it also measures are left out. -/
def executeHttpWithInvokerTimed {R : Type} (limits : ExecutionLimits) (now : Instant)
    (run : HttpRun R) : Except HttpFailure R :=
  match run.setup with
  | .error error => .error (.setup error)
  | .ok () =>
    match (GuestStore.new limits now).enter run.instantiation with
    | (_, .error error) => .error (.instantiation error)
    | (store, .ok ()) =>
      match store.enter run.handler with
      | (_, .error error) => .error (.handler error)
      | (store, .ok ()) =>
        match run.response with
        | .error error => .error (.response error)
        | .ok response =>
          match store.control.signal with
          | .cancelled => .error .cancelled
          | .timedOut => .error .timedOut
          | .none =>
            if store.limits.memoryExceeded then .error .memoryLimit else .ok response

namespace HttpRun

variable {R : Type} (limits : ExecutionLimits) (now : Instant) (run : HttpRun R)

/-- Why the guest of a run is stopped, if it is. -/
def stop? : Option Stop :=
  match run.setup with
  | .error _ => none
  | .ok () =>
    match run.instantiation.events.findSome? (GuestStore.new limits now).stop? with
    | some reason => some reason
    | none =>
      match run.instantiation.result with
      | .error _ => none
      | .ok () => run.handler.events.findSome? (GuestStore.new limits now).stop?

/-- What the Store of a run is asked unless the guest is stopped before. -/
def asked : List StoreEvent :=
  match run.setup, run.instantiation.result with
  | .error _, _ => []
  | .ok (), .error _ => run.instantiation.events
  | .ok (), .ok () => run.instantiation.events ++ run.handler.events

/-- The run asks for nothing beyond its limits: at every tick the token is not
cancelled and the deadline not reached, and every growth is within the limit. -/
def WithinLimits : Prop :=
  ∀ e ∈ run.asked, (GuestStore.new limits now).stop? e = none

instance : Decidable (run.WithinLimits limits now) := by
  unfold WithinLimits
  infer_instance

theorem stop?_eq_none : run.stop? limits now = none ↔ run.WithinLimits limits now := by
  unfold WithinLimits
  rw [← List.findSome?_eq_none_iff, stop?, asked]
  cases run.setup with
  | error error => simp
  | ok _ =>
    cases run.instantiation.result with
    | error error =>
      cases h : run.instantiation.events.findSome? (GuestStore.new limits now).stop? <;> simp
    | ok _ =>
      cases h : run.instantiation.events.findSome? (GuestStore.new limits now).stop? <;>
        simp [h, List.findSome?_append]

/-- A guest that is stopped makes the handler or the instantiation fail, and
that is what the execution returns. -/
theorem execute_of_stop {reason : Stop} (h : run.stop? limits now = some reason) :
    executeHttpWithInvokerTimed limits now run = .error (.instantiation run.instantiation.trap) ∨
      executeHttpWithInvokerTimed limits now run = .error (.handler run.handler.trap) := by
  revert h
  unfold stop? executeHttpWithInvokerTimed
  cases run.setup with
  | error error => intro h; cases h
  | ok _ =>
    cases hinst : run.instantiation.events.findSome? (GuestStore.new limits now).stop? with
    | some first =>
      intro _
      left
      simp only [GuestStore.enter_of_stop hinst]
    | none =>
      simp only [GuestStore.enter_of_none hinst]
      cases run.instantiation.result with
      | error error => intro h; cases h
      | ok _ =>
        intro h
        right
        simp only [GuestStore.enter_of_stop h]

end HttpRun

end PitBox.Runtime
