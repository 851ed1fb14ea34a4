import PitBox.Garage.System

/-!
# The bounds of a Garage

The permits of the two semaphores live in the futures of the calls, and the
work they are meant to bound runs in blocking tasks. The bounds hold in every
run in which no future is dropped while its blocking task runs: a call that is
dropped there gives its permits back and leaves the task behind.
-/

namespace PitBox.Garage

open Table Ledger Transition

namespace State

variable {s t : State} {a : Action}

/-- A future is dropped only when none of its blocking tasks runs. -/
def DropsIdle (s : State) : Action → Prop
  | .call i e => e.isDrop = true →
      ∀ r ∈ s.calls[i]?, r.registers = false ∧ r.dispatches = false
  | .arrive _ => True

instance (s : State) : ∀ a, Decidable (DropsIdle s a)
  | .call i e => inferInstanceAs (Decidable (e.isDrop = true →
      ∀ r ∈ s.calls[i]?, r.registers = false ∧ r.dispatches = false))
  | .arrive _ => isTrue trivial

/-- The admitted executions and the preparations that run are within the limits. -/
structure Bounded (maxPending maxPreparations : ℕ) (s : State) : Prop where
  dispatches : tally Execute.dispatches s.calls ≤ maxPending
  registers : tally Execute.registers s.calls ≤ max 1 maxPreparations

/-- The semaphores and their holders, and tasks that are awaited by their calls. -/
structure PermitsHeld (maxPending maxPreparations : ℕ) (s : State) : Prop where
  pending : Permits maxPending s.agent.pending Execute.holdsPending s.calls
  budget : Permits (max maxPreparations 1) s.agent.preparationBudget Execute.holdsBudget s.calls
  registration : ∀ r ∈ s.calls, r.RegistrationAwaited
  dispatch : ∀ r ∈ s.calls, r.DispatchAwaited

theorem permitsHeld_initial (id : GarageId) (protocolVersion maxPending maxPreparations : ℕ) :
    PermitsHeld maxPending maxPreparations
      (initial (.new id protocolVersion maxPending maxPreparations)) where
  pending := by simp [Permits, initial, GarageAgent.new]
  budget := by simp [Permits, initial, GarageAgent.new]
  registration := by simp [initial]
  dispatch := by simp [initial]

theorem PermitsHeld.step {maxPending maxPreparations : ℕ}
    (h : PermitsHeld maxPending maxPreparations s) (hdrop : DropsIdle s a)
    (hstep : s.step a = some t) : PermitsHeld maxPending maxPreparations t := by
  cases step_cases hstep with
  | arrive request =>
    refine ⟨h.pending.push rfl, h.budget.push rfl, fun r hr => ?_, fun r hr => ?_⟩
    · rcases List.mem_append.mp hr with hr | hr
      · exact h.registration r hr
      · obtain rfl := List.mem_singleton.mp hr
        exact fun hruns => by cases hruns
    · rcases List.mem_append.mp hr with hr | hr
      · exact h.dispatch r hr
      · obtain rfl := List.mem_singleton.mp hr
        exact fun hruns => by cases hruns
  | @call i e r g' r' hi hr =>
    have hmem := List.mem_of_getElem? hi
    refine ⟨h.pending.move hi (Execute.step_pending hr), h.budget.move hi (Execute.step_budget hr),
      fun c hc => ?_, fun c hc => ?_⟩
    · rcases List.mem_or_eq_of_mem_set hc with hc | rfl
      · exact h.registration c hc
      · exact Execute.step_registrationAwaited (fun he => (hdrop he r hi).1)
          (h.registration r hmem) hr
    · rcases List.mem_or_eq_of_mem_set hc with hc | rfl
      · exact h.dispatch c hc
      · exact Execute.step_dispatchAwaited (fun he => (hdrop he r hi).2) (h.dispatch r hmem) hr

theorem PermitsHeld.bounded {maxPending maxPreparations : ℕ}
    (h : PermitsHeld maxPending maxPreparations s) : Bounded maxPending maxPreparations s where
  dispatches := by
    apply h.pending.tally_le
    intro r hr hruns
    rw [Execute.holdsPending, h.dispatch r hr hruns]
  registers := by
    rw [max_comm]
    apply h.budget.tally_le
    intro r hr hruns
    obtain ⟨cell, hstage⟩ := h.registration r hr hruns
    rw [Execute.holdsBudget, hstage]

/-- Both bounds hold in every run in which no future is dropped while a blocking
task of it runs. -/
theorem exec_bounded {id : GarageId} {protocolVersion maxPending maxPreparations : ℕ}
    {as : List Action}
    (hdrops : Along step DropsIdle
      (initial (.new id protocolVersion maxPending maxPreparations)) as)
    (h : exec (initial (.new id protocolVersion maxPending maxPreparations)) as = some s) :
    Bounded maxPending maxPreparations s := by
  have hheld : PermitsHeld maxPending maxPreparations s :=
    exec_invariant (fun _ _ _ hs hdrop hstep => hs.step hdrop hstep)
      (permitsHeld_initial id protocolVersion maxPending maxPreparations) hdrops h
  exact hheld.bounded

/-! ### Runs -/

section Demo

/-- A request for an artifact by a client of protocol version 1. -/
def requestFor (digest : Digest) : RemoteExecutionRequest where
  protocolVersion := 1
  executionId := "pitlane-1"
  artifactDigest := digest
  sourcePaddock := none
  runtimeContract := .wasiHttpProxy
  visitedGarages := []
  invocationDepth := 0

/-- Call `i` up to its registration task. -/
def upToRegistration (i : ℕ) : List Action :=
  [.call i .go, .call i .go, .call i .go, .call i .go, .call i .go, .call i (.opened (.ok ()))]

/-- The registration of call `i` succeeds and the call hands its request over. -/
def upToDispatch (i : ℕ) : List Action :=
  [.call i (.registrationEnds (.ok (.ok ⟨.cold, .coldCompiled⟩))), .call i .go, .call i .go]

/-- With one permit of each kind: the first client leaves while its execution
waits for a lane, and the second is admitted. -/
def clientLeaves : List Action :=
  [[.arrive (requestFor "sha256:a"), .arrive (requestFor "sha256:a")], upToRegistration 0,
    upToDispatch 0, [.call 0 .drop], List.replicate 4 (.call 1 .go)].flatten

/-- The first client leaves while it waits for the permit, and the second is served. -/
def clientServed : List Action :=
  [[.arrive (requestFor "sha256:a"), .arrive (requestFor "sha256:b")],
    List.replicate 4 (.call 0 .go), [.call 0 .drop], upToRegistration 1, upToDispatch 1].flatten

theorem exec_bounded_clientServed :
    ∃ s, exec (initial (.new "garage-1" 1 1 1)) clientServed = some s ∧
      tally Execute.dispatches s.calls = 1 ∧ Bounded 1 1 s := by
  have hrun : (exec (initial (.new "garage-1" 1 1 1)) clientServed).map
      (fun s => tally Execute.dispatches s.calls) = some 1 := by decide +kernel
  obtain ⟨s, hs, hone⟩ := Option.map_eq_some_iff.mp hrun
  exact ⟨s, hs, hone, exec_bounded (by decide +kernel) hs⟩

theorem clientLeaves_not_bounded :
    ∃ s, exec (initial (.new "garage-1" 1 1 1)) clientLeaves = some s ∧ ¬ Bounded 1 1 s := by
  have hrun : (exec (initial (.new "garage-1" 1 1 1)) clientLeaves).map
      (fun s => tally Execute.dispatches s.calls) = some 2 := by decide +kernel
  obtain ⟨s, hs, htwo⟩ := Option.map_eq_some_iff.mp hrun
  refine ⟨s, hs, fun hbounded => ?_⟩
  have hle := hbounded.dispatches
  rw [htwo] at hle
  exact absurd hle (by decide)

end Demo

end State

end PitBox.Garage
