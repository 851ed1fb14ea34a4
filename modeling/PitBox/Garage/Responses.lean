import PitBox.Garage.Admission

/-!
# What a response says about its execution

A client that finds `started` false in a response may send the request
elsewhere. Every exit of `execute` fills in the same base response, some of them
after the dispatcher was called, so each response is compared with the dispatch
task of its call, and the counter of executions with all of them.
-/

namespace PitBox.Garage

open Table Ledger Transition

namespace RemoteExecutionResponse

variable {base response : RemoteExecutionResponse} {error : RemoteExecutionError}
  {message : String}

/-- The fields of a response agree with each other. -/
structure WellFormed (response : RemoteExecutionResponse) : Prop where
  accepted : response.started = true → response.accepted = true
  guestStatus : response.guestStatus.isSome = !response.error.isSome
  headers : response.error.isSome = true → response.headers = []
  body : response.error.isSome = true → response.body = []
  timing : response.timing.isSome = response.laneId.isSome

theorem wellFormed_failure (request : RemoteExecutionRequest) (error : RemoteExecutionError)
    (message : String) : (failure request.base error message).WellFormed where
  accepted := fun h => nomatch h
  guestStatus := rfl
  headers := fun _ => rfl
  body := fun _ => rfl
  timing := rfl

theorem wellFormed_failureStarted (request : RemoteExecutionRequest)
    (error : RemoteExecutionError) (message : String) :
    (failureStarted request.base error message).WellFormed where
  accepted := fun _ => rfl
  guestStatus := rfl
  headers := fun _ => rfl
  body := fun _ => rfl
  timing := rfl

end RemoteExecutionResponse

open RemoteExecutionResponse

variable (request : RemoteExecutionRequest)

theorem wellFormed_dispatchResponse
    (outcome : Except String (Except String HttpDispatchResult)) :
    (dispatchResponse request.base outcome).WellFormed := by
  match outcome with
  | .error error => exact wellFormed_failureStarted request .internal error
  | .ok (.error error) => exact wellFormed_failureStarted request .guestFailure error
  | .ok (.ok result) =>
    unfold dispatchResponse
    dsimp only
    cases result.response with
    | some value => exact ⟨fun _ => rfl, rfl, (nomatch ·), (nomatch ·), rfl⟩
    | none => exact ⟨fun _ => rfl, rfl, fun _ => rfl, fun _ => rfl, rfl⟩

theorem dispatchResponse_started
    (outcome : Except String (Except String HttpDispatchResult)) :
    (dispatchResponse request.base outcome).started = true := by
  match outcome with
  | .error error | .ok (.error error) => rfl
  | .ok (.ok result) =>
    unfold dispatchResponse
    dsimp only
    cases result.response <;> rfl

theorem dispatchResponse_laneId
    (outcome : Except String (Except String HttpDispatchResult)) :
    (dispatchResponse request.base outcome).laneId.isSome = true ↔
      ∃ result, outcome = .ok (.ok result) := by
  match outcome with
  | .error error | .ok (.error error) =>
    simp [dispatchResponse, failureStarted, failure, RemoteExecutionRequest.base]
  | .ok (.ok result) =>
    unfold dispatchResponse
    dsimp only
    cases result.response <;> simp

def BlockingTask.isSpawned {α : Type} : BlockingTask α → Bool
  | .unspawned => false
  | _ => true

/-- A response to a request, against the dispatch task of the call. -/
structure Answers (dispatch : BlockingTask HttpDispatchResult)
    (response : RemoteExecutionResponse) : Prop where
  wellFormed : response.WellFormed
  started : response.started = dispatch.isSpawned
  laneId : response.laneId.isSome = true ↔ ∃ result, dispatch = .finished (.ok (.ok result))

theorem answers_failure (error : RemoteExecutionError) (message : String) :
    Answers .unspawned (failure request.base error message) where
  wellFormed := wellFormed_failure request error message
  started := rfl
  laneId := by simp [failure, RemoteExecutionRequest.base]

theorem answers_dispatchResponse (outcome : Except String (Except String HttpDispatchResult)) :
    Answers (.finished outcome) (dispatchResponse request.base outcome) where
  wellFormed := wellFormed_dispatchResponse request outcome
  started := dispatchResponse_started request outcome
  laneId := by
    rw [dispatchResponse_laneId]
    simp

namespace Execute

variable {g g' : GarageAgent} {r r' : Execute} {e : Choice}

def handedOver (r : Execute) : Bool := r.dispatch.isSpawned

/-- The stage of a call, against its dispatch task. -/
def Consistent (r : Execute) : Prop :=
  match r.stage with
  | .responded response => r.dispatch.isRunning = false ∧ Answers r.dispatch response
  | .dispatching => r.dispatch.isSpawned = true
  | .dropped => True
  | _ => r.dispatch = .unspawned

theorem step_consistent (hr : r.Consistent) (h : step g r e = some (g', r')) :
    r'.Consistent := by
  revert h hr
  fun_cases step g r e <;> intro hr h <;> cases h
  case case1 =>
    cases hr
    exact ⟨rfl, answers_failure _ _ _⟩
  case case2 =>
    cases hr
    exact ⟨rfl, answers_failure _ _ _⟩
  case case5 result _ => rcases afterWarmup_cases result with h | ⟨_, h⟩ <;> rw [h] <;> exact hr
  case case14 outcome _ =>
    rcases afterWarmup_cases (outcome.bind id) with h | ⟨_, h⟩ <;> rw [h] <;> exact hr
  case case15 =>
    cases hr
    exact ⟨rfl, answers_failure _ _ _⟩
  case case16 => rfl
  case case17 => exact ⟨rfl, answers_dispatchResponse _ _⟩
  case case18 stage _ _ => cases stage <;> exact hr
  -- A call has no running task once it has responded.
  case case19 stage _ _ =>
    cases stage with
    | responded response => cases hr.1
    | dispatching => rfl
    | dropped => trivial
    | arrived | admitted | warming | failed | warm => cases hr
  all_goals trivial

theorem step_executions (hr : r.Consistent) (h : step g r e = some (g', r')) :
    CountMove handedOver g.executions 0 r g'.executions 0 r' := by
  revert h hr
  fun_cases step g r e <;> intro hr h <;> cases h
  case case16 =>
    cases hr
    exact .raise rfl
  all_goals exact .keep rfl

end Execute

namespace State

variable {s : State} {as : List Action}

/-- The calls of a Garage, its counter of executions and its admission permits. -/
structure Accounted (maxPending : ℕ) (s : State) : Prop where
  calls : ∀ r ∈ s.calls, r.Consistent
  executions : Tracks s.agent.executions (tally Execute.handedOver s.calls)
  pending : Permits maxPending s.agent.pending Execute.holdsPending s.calls

variable {maxPending : ℕ}

theorem accounted_initial (id : GarageId) (protocolVersion maxPending maxPreparations : ℕ) :
    Accounted maxPending (initial (.new id protocolVersion maxPending maxPreparations)) where
  calls := by simp [initial]
  executions := rfl
  pending := by simp [Permits, initial, GarageAgent.new]

theorem Accounted.step {a : Action} {t : State} (h : Accounted maxPending s)
    (hstep : s.step a = some t) : Accounted maxPending t where
  calls := step_calls (fun _ _ => rfl) Execute.step_consistent h.calls hstep
  executions := by
    cases step_cases hstep with
    | arrive request => exact h.executions.of_eq (tally_concat _ _ _)
    | call hi hr =>
      exact h.executions.move_tally hi
        (Execute.step_executions (h.calls _ (List.mem_of_getElem? hi)) hr)
  pending := by
    cases step_cases hstep with
    | arrive request => exact h.pending.push rfl
    | call hi hr => exact h.pending.move hi (Execute.step_pending hr)

/-- In every run each response agrees with what became of its call, the counter
has the calls that were handed to the dispatcher, and a permit is held from the
admission of a call up to its response. -/
theorem exec_responses {id : GarageId} {protocolVersion maxPending maxPreparations : ℕ}
    (h : exec (initial (.new id protocolVersion maxPending maxPreparations)) as = some s) :
    (∀ r ∈ s.calls, ∀ response, r.stage = .responded response → Answers r.dispatch response) ∧
      Tracks s.agent.executions (tally Execute.handedOver s.calls) ∧
      Permits maxPending s.agent.pending Execute.holdsPending s.calls := by
  have haccounted : Accounted maxPending s :=
    exec_invariant_of_step (fun _ _ _ hs hstep => hs.step hstep)
      (accounted_initial id protocolVersion maxPending maxPreparations) h
  refine ⟨fun r hr response hstage => ?_, haccounted.executions, haccounted.pending⟩
  have hconsistent := haccounted.calls r hr
  rw [Execute.Consistent, hstage] at hconsistent
  exact hconsistent.2

section Demo

/-- With one permit: the second client is turned away while the execution of the
first waits for a lane, and the first is served. -/
def clientTurnedAway : List Action :=
  [[.arrive (requestFor "sha256:a"), .arrive (requestFor "sha256:a")], upToRegistration 0,
    upToDispatch 0, [.call 1 .go, .call 0 (.dispatchEnds (.ok (.ok
      { executionId := "run-1", laneId := 0, response := some ⟨200, [], []⟩, error := none }))),
    .call 0 .go]].flatten

/-- What the two clients are told. -/
def toldStarted (s : State) : List (Option Bool) :=
  s.calls.map fun r =>
    match r.stage with
    | .responded response => some response.started
    | _ => none

theorem exec_responses_clientTurnedAway :
    ∃ s, exec (initial (.new "garage-1" 1 1 1)) clientTurnedAway = some s ∧
      toldStarted s = [some true, some false] ∧
      (∀ r ∈ s.calls, ∀ response, r.stage = .responded response → Answers r.dispatch response) ∧
      Tracks s.agent.executions (tally Execute.handedOver s.calls) ∧
      Permits 1 s.agent.pending Execute.holdsPending s.calls := by
  have hrun : (exec (initial (.new "garage-1" 1 1 1)) clientTurnedAway).map toldStarted =
      some [some true, some false] := by decide +kernel
  obtain ⟨s, hs, htold⟩ := Option.map_eq_some_iff.mp hrun
  exact ⟨s, hs, htold, exec_responses hs⟩

end Demo

end State

end PitBox.Garage
