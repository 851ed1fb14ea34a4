import PitBox.Foundations.Ledger
import PitBox.Garage.Execute

/-!
# All requests of a Garage

The calls of `execute` on one agent, and what one step of a call does to the
semaphores, to the cells and to the warmup map. Everything later is derived
from these lemmas.
-/

namespace PitBox.Garage

open Table Ledger Singleflight

/-- An agent with the calls made on it. -/
structure State where
  agent : GarageAgent
  calls : List Execute

inductive Action where
  | arrive (request : RemoteExecutionRequest)
  | call (i : ℕ) (choice : Choice)

namespace State

def initial (agent : GarageAgent) : State where
  agent
  calls := []

def step (s : State) : Action → Option State
  | .arrive request => some { s with calls := s.calls ++ [.new request] }
  | .call i e =>
    (s.calls[i]?).bind fun r => (r.step s.agent e).map fun (g, r) =>
      { agent := g, calls := s.calls.set i r }

abbrev exec (s : State) (as : List Action) : Option State := Transition.exec State.step s as

/-- What one step of the system is. -/
inductive Step (s : State) : Action → State → Prop
  | arrive (request : RemoteExecutionRequest) :
    Step s (.arrive request) { s with calls := s.calls ++ [.new request] }
  | call {i : ℕ} {e : Choice} {r : Execute} {g' : GarageAgent} {r' : Execute}
      (hi : s.calls[i]? = some r) (hr : r.step s.agent e = some (g', r')) :
    Step s (.call i e) { agent := g', calls := s.calls.set i r' }

theorem step_cases {s t : State} {a : Action} (h : s.step a = some t) : Step s a t := by
  cases a with
  | arrive request =>
    obtain rfl := Option.some.inj h
    exact .arrive request
  | call i e =>
    obtain ⟨r, hi, hr⟩ := Option.bind_eq_some_iff.mp h
    obtain ⟨⟨g', r'⟩, hstep, rfl⟩ := Option.map_eq_some_iff.mp hr
    exact .call hi hstep

theorem step_calls {s t : State} {a : Action} {P : Execute → Prop}
    (hnew : ∀ request, a = .arrive request → P (.new request))
    (hstep : ∀ {r r' g' e}, P r → r.step s.agent e = some (g', r') → P r')
    (hs : ∀ r ∈ s.calls, P r) (h : s.step a = some t) : ∀ r ∈ t.calls, P r := by
  intro r hr
  cases step_cases h with
  | arrive request =>
    rcases List.mem_append.mp hr with hr | hr
    · exact hs r hr
    · obtain rfl := List.mem_singleton.mp hr
      exact hnew request rfl
  | call hi hcall =>
    rcases List.mem_or_eq_of_mem_set hr with hr | rfl
    · exact hs r hr
    · exact hstep (hs _ (List.mem_of_getElem? hi)) hcall

end State

namespace Execute

variable {g g' : GarageAgent} {r r' : Execute} {e : Choice}

theorem step_request (h : r.step g e = some (g', r')) : r'.request = r.request := by
  revert h
  fun_cases step g r e <;> intro h <;> cases h <;> rfl

/-- The exits of a call, by what it responds. -/
inductive Responds (g : GarageAgent) (r : Execute) : RemoteExecutionResponse → Prop
  | refused {error : RemoteExecutionError} {message : String} (hstage : r.stage = .arrived)
      (h : g.refuses r.request = some (error, message)) :
    Responds g r (failure r.request.base error message)
  | overloaded (hstage : r.stage = .arrived) (hrefuses : g.refuses r.request = none)
      (h : g.pending = 0) :
    Responds g r (failure r.request.base .overloaded "Garage admission limit exceeded")
  | unavailable {error : String} (hstage : r.stage = .failed error) :
    Responds g r (failure r.request.base .artifactUnavailable error)
  | dispatched {outcome : Except String (Except String HttpDispatchResult)}
      (hstage : r.stage = .dispatching) (h : r.dispatch = .finished outcome) :
    Responds g r (dispatchResponse r.request.base outcome)

/-- A call that has responded went through one of its exits. -/
theorem step_responded (h : r.step g e = some (g', r')) {response : RemoteExecutionResponse}
    (hstage : r'.stage = .responded response) :
    r.stage = .responded response ∨ r.Responds g response := by
  revert h hstage
  fun_cases step g r e <;> intro h hstage <;> cases h
  all_goals first
    | exact .inl hstage
    | (cases hstage; done)
    | skip
  case case1 hrefuses =>
    cases hstage
    exact .inr (.refused rfl hrefuses)
  case case2 hpending hrefuses =>
    cases hstage
    exact .inr (.overloaded rfl hrefuses hpending)
  case case5 result _ =>
    rcases afterWarmup_cases result with h | ⟨_, h⟩ <;> simp [h] at hstage
  case case14 outcome _ =>
    rcases afterWarmup_cases (outcome.bind id) with h | ⟨_, h⟩ <;> simp [h] at hstage
  case case15 =>
    cases hstage
    exact .inr (.unavailable rfl)
  case case17 =>
    cases hstage
    exact .inr (.dispatched rfl rfl)

theorem step_pending (h : r.step g e = some (g', r')) :
    PermitMove holdsPending g.pending r g'.pending r' := by
  revert h
  fun_cases step g r e <;> intro h <;> cases h
  all_goals first
    | exact .keep rfl
    | exact .release rfl rfl
    | skip
  case case3 hpending _ =>
    rw [hpending]
    exact .acquire rfl rfl
  case case5 result _ =>
    rcases afterWarmup_cases result with h | ⟨_, h⟩ <;> rw [h] <;> exact .keep rfl
  case case14 outcome _ =>
    rcases afterWarmup_cases (outcome.bind id) with h | ⟨_, h⟩ <;> rw [h] <;> exact .keep rfl

theorem step_budget (h : r.step g e = some (g', r')) :
    PermitMove holdsBudget g.preparationBudget r g'.preparationBudget r' := by
  revert h
  fun_cases step g r e <;> intro h <;> cases h
  all_goals first
    | exact .keep rfl
    | exact .release rfl rfl
    | skip
  case case5 result _ =>
    rcases afterWarmup_cases result with h | ⟨_, h⟩ <;> rw [h] <;> exact .keep rfl
  case case11 hbudget =>
    rw [hbudget]
    exact .acquire rfl rfl
  case case14 outcome _ =>
    rcases afterWarmup_cases (outcome.bind id) with h | ⟨_, h⟩ <;> rw [h] <;>
      exact .release rfl rfl

def RegistrationAwaited (r : Execute) : Prop :=
  r.registers = true → ∃ cell, r.stage = .warming cell .registering

def DispatchAwaited (r : Execute) : Prop := r.dispatches = true → r.stage = .dispatching

theorem step_registrationAwaited (hdrop : e.isDrop = true → r.registers = false)
    (hr : r.RegistrationAwaited) (h : r.step g e = some (g', r')) : r'.RegistrationAwaited := by
  revert h hdrop hr
  fun_cases step g r e <;> intro hdrop hr h <;> cases h <;>
    simp_all [RegistrationAwaited, registers, BlockingTask.isRunning, Choice.isDrop]

theorem step_dispatchAwaited (hdrop : e.isDrop = true → r.dispatches = false)
    (hr : r.DispatchAwaited) (h : r.step g e = some (g', r')) : r'.DispatchAwaited := by
  revert h hdrop hr
  fun_cases step g r e <;> intro hdrop hr h <;> cases h <;>
    simp_all [DispatchAwaited, dispatches, BlockingTask.isRunning, Choice.isDrop]

theorem step_warmups (h : r.step g e = some (g', r')) :
    Move r.digest g.warmups r.use g'.warmups r'.use := by
  revert h
  fun_cases step g r e <;> intro h <;> cases h
  all_goals first
    | exact .keep
    | exact .leave
    | exact .remove
    | exact .entry
    | exact .acquire ‹_›
    | exact .settle rfl
    | skip
  case case5 result _ =>
    rcases afterWarmup_cases result with h | ⟨_, h⟩ <;> rw [h] <;> exact .leave
  case case14 outcome _ =>
    rcases afterWarmup_cases (outcome.bind id) with h | ⟨_, h⟩ <;> rw [h] <;> exact .settle rfl

theorem step_removes (h : r.step g e = some (g', r')) {c : ℕ}
    (hc : g.warmups.map r.digest = some c) (hgone : g'.warmups.map r.digest = none) :
    r.stage.isFailed = true := by
  revert h hc hgone
  fun_cases step g r e <;> intro h hc hgone <;> cases h
  all_goals first
    | rfl
    | exact absurd (hc.symm.trans hgone) (by simp)
    | skip
  case case4 => exact absurd (hgone.symm.trans (Flights.entry_map _ _)) (by simp)

end Execute

end PitBox.Garage
