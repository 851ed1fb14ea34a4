import PitBox.Garage.Types
import PitBox.Runtime.HttpExecution

/-!
# How a Garage reports limits

A Garage tells a timeout from any other failure of a guest by the text of the
error. The HTTP execution would name the reason a guest was stopped for, but a
stopped guest makes its handler fail, and the failure of the handler is
returned before the signal is looked at.
-/

namespace PitBox.Garage

open PitBox.Runtime

/-- What the dispatcher hands back for an execution: the outermost message of
an error. -/
def dispatched (executionId : String) (laneId : ℕ) :
    Except HttpFailure HttpResponse → HttpDispatchResult
  | .ok response => { executionId, laneId, response := some response, error := none }
  | .error failure => { executionId, laneId, response := none, error := failure.toError.head? }

/-- The failure that names the reason a guest was stopped for. -/
def failureOf : Stop → HttpFailure
  | .cancelled => .cancelled
  | .timedOut => .timedOut
  | .memoryLimit => .memoryLimit

/-- The execution returns the error of the reason, and a Garage makes of a
passed deadline the error it has for timeouts. -/
def ReportsStop (limits : ExecutionLimits) (now : Instant) (run : HttpRun HttpResponse)
    (reason : Stop) : Prop :=
  executeHttpWithInvokerTimed limits now run = .error (failureOf reason) ∧
    (reason = .timedOut → ∀ base executionId laneId, (dispatchResponse base (.ok (.ok
      (dispatched executionId laneId (executeHttpWithInvokerTimed limits now run))))).error =
        some .timeout)

/-- A deadline that is reported reaches the caller of the Garage as a timeout. -/
example (base : RemoteExecutionResponse) :
    (dispatchResponse base (.ok (.ok (dispatched "7" 0 (.error .timedOut))))).error =
      some .timeout := by rfl

/-- The reason of a stop is reported in exactly the runs without a stop. -/
theorem reportsStop_iff (limits : ExecutionLimits) (now : Instant) (run : HttpRun HttpResponse) :
    (∀ reason, run.stop? limits now = some reason → ReportsStop limits now run reason) ↔
      run.WithinLimits limits now := by
  rw [← run.stop?_eq_none]
  constructor
  · intro h
    cases hstop : run.stop? limits now with
    | none => rfl
    | some reason =>
      have hreported := (h reason hstop).1
      rcases run.execute_of_stop limits now hstop with heq | heq <;> rw [heq] at hreported <;>
        cases reason <;> cases hreported
  · intro h reason hstop
    rw [h] at hstop
    cases hstop

/-- A guest whose deadline passes in its handler. -/
def lateRun : HttpRun HttpResponse where
  setup := .ok ()
  instantiation := { events := [], trap := [], result := .ok () }
  handler :=
    { events := [.epoch false 5, .epoch false 10]
      trap := ["error while executing", "wasm trap: interrupt"]
      result := .ok () }
  response := .error ["HTTP guest dropped response output"]

theorem lateRun_not_reported :
    ¬ ∀ (limits : ExecutionLimits) (now : Instant) (run : HttpRun HttpResponse) (reason : Stop),
      run.stop? limits now = some reason → ReportsStop limits now run reason := by
  intro h
  have hreported := (h ⟨some 10, none⟩ 0 lateRun .timedOut (by decide)).1
  have hactual : executeHttpWithInvokerTimed ⟨some 10, none⟩ 0 lateRun =
      .error (.handler lateRun.handler.trap) := by rfl
  rw [hactual] at hreported
  cases hreported

end PitBox.Garage
