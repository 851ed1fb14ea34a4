import PitBox.Garage.Admission

/-!
# Single flight per digest

The map lookup, the initialisation of a cell and the removal after a failure are
separate steps, and every waiter of a failed cell removes by key. At most one
preparation of a digest is in progress in every run in which a removal never
takes out a cell that others still await, and no future is dropped while its
registration runs.
-/

namespace PitBox.Garage

open Table Ledger Singleflight Transition

/-- A preparation in progress initialises a cell. -/
theorem Execute.initializes_of_prepares {r : Execute} (h : r.RegistrationAwaited)
    (hr : r.prepares = true) : ∃ c, r.use = .initializing c := by
  by_cases hruns : r.registers = true
  · obtain ⟨cell, hstage⟩ := h hruns
    exact ⟨cell, by rw [use, hstage]⟩
  · unfold prepares at hr
    rw [Bool.not_eq_true] at hruns
    rw [hruns, Bool.false_or] at hr
    unfold use
    split at hr
    · rename_i cell hstage
      exact ⟨cell, by rw [hstage]⟩
    · rename_i cell hstage
      exact ⟨cell, by rw [hstage]⟩
    · rename_i cell hstage
      exact ⟨cell, by rw [hstage]⟩
    · cases hr

namespace State

variable {s t : State} {a : Action}

def preparations (s : State) (digest : Digest) : ℕ :=
  tally (fun r => r.digest == digest && r.prepares) s.calls

def SingleFlight (s : State) : Prop := ∀ digest, s.preparations digest ≤ 1

/-- The entry of a digest is a cell with its result, or one that nobody awaits. -/
def EntrySettled (s : State) (digest : Digest) : Prop :=
  ∀ c ∈ s.agent.warmups.map digest,
    (s.agent.warmups.cells[c]?.any OnceCell.isReady) = true ∨ ∀ r ∈ s.calls, r.use.cell? ≠ some c

instance (s : State) (digest : Digest) : Decidable (s.EntrySettled digest) := by
  unfold EntrySettled
  infer_instance

/-- A call that failed removes a settled entry, and a future is not dropped while
its registration runs. -/
def FlightKept (s : State) : Action → Prop
  | .call i e => ∀ r ∈ s.calls[i]?,
      (r.stage.isFailed = true → s.EntrySettled r.digest) ∧
        (e.isDrop = true → r.registers = false)
  | .arrive _ => True

instance (s : State) : ∀ a, Decidable (FlightKept s a)
  | .call i e => inferInstanceAs (Decidable (∀ r ∈ s.calls[i]?,
      (r.stage.isFailed = true → s.EntrySettled r.digest) ∧
        (e.isDrop = true → r.registers = false)))
  | .arrive _ => isTrue trivial

/-- The cells of the warmup map are tracked, and registrations are awaited. -/
structure FlightsTracked (s : State) : Prop where
  tracked : Tracked Execute.digest Execute.use s.agent.warmups s.calls
  registration : ∀ r ∈ s.calls, r.RegistrationAwaited

theorem flightsTracked_initial (id : GarageId) (protocolVersion maxPending maxPreparations : ℕ) :
    FlightsTracked (initial (.new id protocolVersion maxPending maxPreparations)) where
  tracked := .nil
  registration := by simp [initial]

theorem FlightsTracked.step (h : FlightsTracked s) (hkept : FlightKept s a)
    (hstep : s.step a = some t) : FlightsTracked t := by
  cases step_cases hstep with
  | arrive request =>
    refine ⟨h.tracked.push rfl, fun r hr => ?_⟩
    rcases List.mem_append.mp hr with hr | hr
    · exact h.registration r hr
    · obtain rfl := List.mem_singleton.mp hr
      exact fun hruns => by cases hruns
  | @call i e r g' r' hi hr =>
    obtain ⟨hsettled, hdrop⟩ := hkept r hi
    have hdigest : r'.digest = r.digest :=
      congrArg RemoteExecutionRequest.artifactDigest (Execute.step_request hr)
    refine ⟨h.tracked.move hi hdigest (Execute.step_warmups hr) ?_, fun c hc => ?_⟩
    · intro c hc hgone
      rcases hsettled (Execute.step_removes hr hc hgone) c hc with hready | hunused
      · exact Or.inl (Option.any_eq_true _ _ |>.mp hready)
      · exact Or.inr hunused
    · rcases List.mem_or_eq_of_mem_set hc with hc | rfl
      · exact h.registration c hc
      · exact Execute.step_registrationAwaited hdrop
          (h.registration r (List.mem_of_getElem? hi)) hr

theorem FlightsTracked.singleFlight (h : FlightsTracked s) : SingleFlight s := by
  intro digest
  apply h.tracked.tally_le_one (k := digest)
  intro r hr hprepares
  simp only [Bool.and_eq_true, beq_iff_eq] at hprepares
  exact ⟨hprepares.1, Execute.initializes_of_prepares (h.registration r hr) hprepares.2⟩

/-- At most one preparation of a digest is in progress in every run in which
removals take out settled entries and registrations are not abandoned. -/
theorem exec_singleFlight {id : GarageId} {protocolVersion maxPending maxPreparations : ℕ}
    {as : List Action}
    (hkept : Along step FlightKept
      (initial (.new id protocolVersion maxPending maxPreparations)) as)
    (h : exec (initial (.new id protocolVersion maxPending maxPreparations)) as = some s) :
    SingleFlight s := by
  have htracked : FlightsTracked s :=
    exec_invariant (fun _ _ _ hs hkept hstep => hs.step hkept hstep)
      (flightsTracked_initial id protocolVersion maxPending maxPreparations) hkept h
  exact htracked.singleFlight

/-! ### Runs -/

section Demo

/-- Two calls share a cell, and the acquisition of the first fails. -/
def sharedFailure : List Action :=
  [List.replicate 4 (.arrive (requestFor "sha256:a")),
    [.call 0 .go, .call 0 .go, .call 1 .go, .call 1 .go, .call 0 .go, .call 0 .go, .call 0 .go,
      .call 0 (.opened (.error "artifact sha256:a is not local and no Paddock is configured")),
      .call 0 .go]].flatten

def promptRemoval : List Action :=
  [sharedFailure, [.call 1 .go, .call 1 .go], upToRegistration 2,
    [.call 3 .go, .call 3 .go]].flatten

/-- The waiter removes the cell of the next generation. -/
def lateRemoval : List Action :=
  [sharedFailure, upToRegistration 2, [.call 1 .go, .call 1 .go], upToRegistration 3].flatten

theorem exec_singleFlight_promptRemoval :
    ∃ s, exec (initial (.new "garage-1" 1 4 2)) promptRemoval = some s ∧
      s.preparations "sha256:a" = 1 ∧ SingleFlight s := by
  have hrun : (exec (initial (.new "garage-1" 1 4 2)) promptRemoval).map
      (fun s => s.preparations "sha256:a") = some 1 := by decide +kernel
  obtain ⟨s, hs, hone⟩ := Option.map_eq_some_iff.mp hrun
  exact ⟨s, hs, hone, exec_singleFlight (by decide +kernel) hs⟩

/-- Two registrations of one digest run at the same time. -/
theorem lateRemoval_not_singleFlight :
    ∃ s, exec (initial (.new "garage-1" 1 4 2)) lateRemoval = some s ∧ ¬ SingleFlight s := by
  have hrun : (exec (initial (.new "garage-1" 1 4 2)) lateRemoval).map
      (fun s => s.preparations "sha256:a") = some 2 := by decide +kernel
  obtain ⟨s, hs, htwo⟩ := Option.map_eq_some_iff.mp hrun
  refine ⟨s, hs, fun hsingle => ?_⟩
  have hle := hsingle "sha256:a"
  rw [htwo] at hle
  exact absurd hle (by decide)

end Demo

end State

end PitBox.Garage
