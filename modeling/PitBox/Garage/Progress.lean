import PitBox.Garage.Responses

/-!
# A Garage comes to rest

A call waits for an admission permit, for a cell, for the preparation budget
and for its blocking tasks. Whoever initialises a cell waits at most for the
budget, and whoever holds the budget waits for nothing but its own task, so the
waits cannot close a circle: the budget has a permit, whatever was configured.
Each call passes every point at most once. A run without a step left for any
call has answered every request that was not dropped, and has all permits back.
-/

namespace PitBox.Garage

open PitBox.Runtime (PreparationReport)
open Table Ledger Singleflight Transition

/-- A step that a call takes on its own, or with the end of its tasks. -/
def Action.advances : Action → Bool
  | .call _ e => !e.isDrop
  | .arrive _ => false

def Action.isCall : Action → Bool
  | .call _ _ => true
  | .arrive _ => false

def Action.callSteps : Action → ℕ
  | .call _ _ => 0
  | .arrive _ => 11

namespace ExecuteStage

/-- The steps before a call, its tasks apart. -/
def rank : ExecuteStage → ℕ
  | arrived => 11
  | admitted => 10
  | warming _ .waiting => 9
  | warming _ .started => 8
  | warming _ .budgeting => 7
  | warming _ .opening => 6
  | warming _ .registering => 4
  | warm => 3
  | failed _ | dispatching => 1
  | responded _ | dropped => 0

end ExecuteStage

namespace Execute

variable {g g' : GarageAgent} {r r' : Execute} {e : Choice}

def rank (r : Execute) : ℕ := r.stage.rank + r.registers.toNat + r.dispatches.toNat

theorem rank_afterWarmup (result : Except String PreparationReport) :
    (afterWarmup result).rank ≤ 3 := by
  rcases afterWarmup_cases result with h | ⟨error, h⟩ <;> rw [h] <;> simp [ExecuteStage.rank]

theorem step_rank (h : r.step g e = some (g', r')) : r'.rank + 1 ≤ r.rank := by
  revert h
  fun_cases step g r e <;> intro h <;> cases h
  case case5 result _ =>
    have := rank_afterWarmup result
    simp only [rank, ExecuteStage.rank, registers, dispatches] at this ⊢
    omega
  case case14 outcome _ =>
    have := rank_afterWarmup (outcome.bind id)
    simp only [rank, ExecuteStage.rank, registers, dispatches] at this ⊢
    omega
  all_goals
    simp only [rank, ExecuteStage.rank, registers, dispatches, BlockingTask.isRunning,
      Bool.toNat_true, Bool.toNat_false]
    omega

/-- The tasks that a call waits for have been spawned. -/
structure Awaits (r : Execute) : Prop where
  registration : ∀ cell, r.stage = .warming cell .registering → r.registration.isSpawned = true
  dispatch : r.stage = .dispatching → r.dispatch.isSpawned = true

theorem step_awaits (hr : r.Awaits) (h : r.step g e = some (g', r')) : r'.Awaits := by
  revert h hr
  fun_cases step g r e <;> intro hr h <;> cases h
  case case5 result _ =>
    rcases afterWarmup_cases result with h | ⟨error, h⟩ <;> rw [h] <;>
      exact ⟨fun _ h => (by cases h), fun h => (by cases h)⟩
  case case12 => exact ⟨fun _ _ => rfl, fun h => (by cases h)⟩
  case case14 outcome _ =>
    rcases afterWarmup_cases (outcome.bind id) with h | ⟨error, h⟩ <;> rw [h] <;>
      exact ⟨fun _ h => (by cases h), fun h => (by cases h)⟩
  case case16 => exact ⟨fun _ h => (by cases h), fun _ => rfl⟩
  case case18 => exact ⟨fun _ _ => rfl, hr.dispatch⟩
  case case19 => exact ⟨hr.registration, fun _ => rfl⟩
  all_goals exact ⟨fun _ h => (by cases h), fun h => (by cases h)⟩

def CanStep (g : GarageAgent) (r : Execute) : Prop :=
  ∃ e : Choice, e.isDrop = false ∧ (r.step g e).isSome = true

theorem canStep_of_go (h : (r.step g .go).isSome = true) : r.CanStep g := ⟨.go, rfl, h⟩

theorem canStep_of_registers (h : r.registers = true) : r.CanStep g := by
  obtain ⟨q, stage, registration, dispatch⟩ := r
  cases registration with
  | running => exact ⟨.registrationEnds (.error ""), rfl, by simp [step]⟩
  | unspawned | finished outcome => cases h

theorem canStep_of_dispatches (h : r.dispatches = true) : r.CanStep g := by
  obtain ⟨q, stage, registration, dispatch⟩ := r
  cases dispatch with
  | running => exact ⟨.dispatchEnds (.error ""), rfl, by simp [step]⟩
  | unspawned | finished outcome => cases h

/-- A holder of the preparation budget waits for nothing but its task. -/
theorem canStep_of_holdsBudget (hr : r.Awaits) (h : r.holdsBudget = true) : r.CanStep g := by
  by_cases hruns : r.registers = true
  · exact canStep_of_registers hruns
  · have hawaits := hr.registration
    obtain ⟨q, stage, registration, dispatch⟩ := r
    cases stage with
    | warming cell stage =>
      cases stage with
      | opening => exact ⟨.opened (.error ""), rfl, rfl⟩
      | registering =>
        cases registration with
        | unspawned => cases hawaits cell rfl
        | running => exact absurd rfl hruns
        | finished outcome => exact canStep_of_go rfl
      | waiting | started | budgeting => cases h
    | _ => cases h

/-- Who initialises a cell waits at most for the preparation budget. -/
theorem canStep_of_initializing (hr : r.Awaits) {c : ℕ} (h : r.use = .initializing c) :
    r.CanStep g ∨ g.preparationBudget = 0 := by
  by_cases hbudget : r.holdsBudget = true
  · exact .inl (canStep_of_holdsBudget hr hbudget)
  · obtain ⟨q, stage, registration, dispatch⟩ := r
    cases stage with
    | warming cell stage =>
      cases stage with
      | started =>
        refine .inl (canStep_of_go ?_)
        simp only [step]
        split_ifs <;> rfl
      | budgeting =>
        cases hfree : g.preparationBudget with
        | zero => exact .inr rfl
        | succ free => exact .inl (canStep_of_go (by simp [step, hfree]))
      | opening | registering => exact absurd rfl hbudget
      | waiting => cases h
    | _ => cases h

/-- A call that is not over waits at most for the initialiser of its cell and
for the preparation budget. -/
theorem canStep_of_live (hr : r.Awaits) (hlive : r.stage.isOver = false)
    (hcell : ∀ c, r.use.cell? = some c → c < g.warmups.cells.length) :
    r.CanStep g ∨ g.preparationBudget = 0 ∨
      ∃ c, r.use.cell? = some c ∧ g.warmups.cells[c]? = some .initializing := by
  have hawaits := hr.dispatch
  by_cases hinit : ∃ c, r.use = .initializing c
  · obtain ⟨c, hc⟩ := hinit
    rcases canStep_of_initializing hr hc with h | h
    · exact .inl h
    · exact .inr (.inl h)
  · by_cases hruns : r.dispatches = true
    · exact .inl (canStep_of_dispatches hruns)
    · obtain ⟨q, stage, registration, dispatch⟩ := r
      cases stage with
      | arrived =>
        refine .inl (canStep_of_go ?_)
        simp only [step]
        split <;> rfl
      | warming cell stage =>
        cases stage with
        | waiting =>
          have hlt := hcell cell rfl
          cases hvalue : g.warmups.cells[cell] with
          | initializing =>
            exact .inr (.inr ⟨cell, rfl, by rw [List.getElem?_eq_getElem hlt, hvalue]⟩)
          | empty | ready result =>
            refine .inl (canStep_of_go ?_)
            simp [step, List.getElem?_eq_getElem hlt, hvalue]
        | _ => exact absurd ⟨cell, rfl⟩ hinit
      | dispatching =>
        cases dispatch with
        | unspawned => cases hawaits rfl
        | running => exact absurd rfl hruns
        | finished outcome => exact .inl (canStep_of_go rfl)
      | responded response => cases hlive
      | dropped => cases hlive
      | admitted | failed error | warm => exact .inl (canStep_of_go rfl)

end Execute

namespace State

variable {s t : State} {a : Action}

/-- The cells have their initialisers, the budget has its permits or holders,
and the calls their tasks. -/
structure Live (maxPending maxPreparations : ℕ) (s : State) : Prop where
  held : Held Execute.use s.agent.warmups s.calls
  pending : Permits maxPending s.agent.pending Execute.holdsPending s.calls
  budget : Permits (max maxPreparations 1) s.agent.preparationBudget Execute.holdsBudget s.calls
  awaits : ∀ r ∈ s.calls, r.Awaits

variable {maxPending maxPreparations : ℕ}

theorem live_initial (id : GarageId) (protocolVersion maxPending maxPreparations : ℕ) :
    Live maxPending maxPreparations
      (initial (.new id protocolVersion maxPending maxPreparations)) where
  held := .nil
  pending := by simp [Permits, initial, GarageAgent.new]
  budget := by simp [Permits, initial, GarageAgent.new]
  awaits := by simp [initial]

theorem Live.step (h : Live maxPending maxPreparations s) (hstep : s.step a = some t) :
    Live maxPending maxPreparations t := by
  have hawaits : ∀ r ∈ t.calls, r.Awaits :=
    step_calls (fun _ _ => ⟨fun _ h => (by cases h), fun h => (by cases h)⟩)
      Execute.step_awaits h.awaits hstep
  cases step_cases hstep with
  | arrive request =>
    exact ⟨h.held.push rfl, h.pending.push rfl, h.budget.push rfl, hawaits⟩
  | call hi hr =>
    exact ⟨h.held.move hi (Execute.step_warmups hr), h.pending.move hi (Execute.step_pending hr),
      h.budget.move hi (Execute.step_budget hr), hawaits⟩

/-- Some call, or a task of one, can take a step that is not a drop. -/
def Ready (s : State) : Prop := ∃ a : Action, a.advances = true ∧ (s.step a).isSome = true

theorem ready_of_canStep {r : Execute} (hr : r ∈ s.calls) (h : r.CanStep s.agent) : s.Ready := by
  obtain ⟨e, he, hstep⟩ := h
  obtain ⟨i, hi⟩ := List.mem_iff_getElem?.mp hr
  refine ⟨.call i e, by simp [Action.advances, he], ?_⟩
  simpa [step, hi] using hstep

theorem Live.ready_of_no_budget (h : Live maxPending maxPreparations s)
    (hnone : s.agent.preparationBudget = 0) : s.Ready := by
  have hpermits : 0 + tally Execute.holdsBudget s.calls = max maxPreparations 1 :=
    hnone ▸ h.budget
  have hheld : 0 < tally Execute.holdsBudget s.calls := by omega
  obtain ⟨r, hr, hholds⟩ := exists_of_tally_pos hheld
  exact ready_of_canStep hr (Execute.canStep_of_holdsBudget (h.awaits r hr) hholds)

theorem Live.ready (h : Live maxPending maxPreparations s) {r : Execute} (hr : r ∈ s.calls)
    (hlive : r.stage.isOver = false) : s.Ready := by
  rcases Execute.canStep_of_live (h.awaits r hr) hlive (h.held.bounded r hr) with
    hstep | hnone | ⟨c, -, hcell⟩
  · exact ready_of_canStep hr hstep
  · exact h.ready_of_no_budget hnone
  · obtain ⟨x, hx, hinit⟩ := h.held.exists_initializer hcell
    rcases Execute.canStep_of_initializing (h.awaits x hx) hinit with hstep | hnone
    · exact ready_of_canStep hx hstep
    · exact h.ready_of_no_budget hnone

def rank (s : State) : ℕ := total Execute.rank s.calls

theorem step_rank (h : s.step a = some t) : t.rank + a.isCall.toNat ≤ s.rank + a.callSteps := by
  cases step_cases h with
  | arrive request =>
    simp [rank, Execute.rank, Execute.new, ExecuteStage.rank, Execute.registers,
      Execute.dispatches, BlockingTask.isRunning, Action.isCall, Action.callSteps]
  | @call i e r g' r' hi hr =>
    have hrank := Execute.step_rank hr
    have htotal := total_set Execute.rank (b := r') hi
    simp only [rank, Action.isCall, Action.callSteps, Bool.toNat_true]
    omega

/-- A state in which everything is over. -/
structure AtRest (maxPending maxPreparations : ℕ) (s : State) : Prop where
  isOver : ∀ r ∈ s.calls, r.stage.isOver = true
  tasks : ∀ r ∈ s.calls, r.registers = false ∧ r.dispatches = false
  pending : s.agent.pending = maxPending
  preparationBudget : s.agent.preparationBudget = max maxPreparations 1

theorem Live.atRest (h : Live maxPending maxPreparations s) (hready : ¬ s.Ready) :
    AtRest maxPending maxPreparations s := by
  have hover : ∀ r ∈ s.calls, r.stage.isOver = true := by
    intro r hr
    by_contra hlive
    exact hready (h.ready hr (by simpa using hlive))
  have hnone {p : Execute → Bool} (hp : ∀ r, r.stage.isOver = true → p r = false) :
      tally p s.calls = 0 := tally_eq_zero.mpr fun r hr => hp r (hover r hr)
  constructor
  · exact hover
  · intro r hr
    refine ⟨?_, ?_⟩
    · by_contra hruns
      exact hready (ready_of_canStep hr (Execute.canStep_of_registers (by simpa using hruns)))
    · by_contra hruns
      exact hready (ready_of_canStep hr (Execute.canStep_of_dispatches (by simpa using hruns)))
  · have hpermits := h.pending
    unfold Permits at hpermits
    rw [hnone fun r hr => ?_] at hpermits
    · exact hpermits
    · revert hr
      unfold Execute.holdsPending
      cases r.stage <;> simp [ExecuteStage.isOver]
  · have hpermits := h.budget
    unfold Permits at hpermits
    rw [hnone fun r hr => ?_] at hpermits
    · exact hpermits
    · revert hr
      unfold Execute.holdsBudget
      cases r.stage <;> simp [ExecuteStage.isOver]

end State

end PitBox.Garage
