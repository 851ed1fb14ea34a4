import PitBox.Scheduler.LaneOwnership

/-!
# Giving lanes back

A call clears its slot in straight-line code after the observer and the task.
A run gives every lane back exactly when neither closure ever unwinds: a call
that unwinds leaves its slot occupied for good.
-/

namespace PitBox.Scheduler

open Table Ledger

variable {T : Type}

namespace State

/-- A call that arrives now has a lane after its first steps. -/
def LaterCallAssigned (s : State T) : Prop :=
  ∃ t k, s.exec (.runOneObserved :: List.replicate 3 (.call s.calls.length .go)) = some t ∧
    t.calls[s.calls.length]? = some (.owning k .assigned)

/-- No call has left its slot behind: an occupied slot belongs to a call in
progress, and with no call in progress the pool is as at the start. -/
structure LanesReturned (s : State T) : Prop where
  owned : ∀ l id, s.scheduler.sharedLanes[l]? = some (some id) →
    ∃ c ∈ s.calls, c.lane? = some l
  idle : (∀ c ∈ s.calls, c.isOver = true) →
    (∀ v ∈ s.scheduler.sharedLanes, v = none) ∧ s.scheduler.sharedActive = 0 ∧
      s.scheduler.sharedWaiting = 0 ∧ s.LaterCallAssigned

end State

namespace RunOneObserved

variable {c c' : RunOneObserved T} {l : LaneId}

theorem step_hasUnwound {now : Instant} {p p' : PitScheduler} {e : Choice T}
    (h : c.step now p e = some (p', c')) :
    c.hasUnwound = false ∧ c'.hasUnwound = e.unwinds := by
  revert h
  fun_cases step now p c e <;> intro h <;> cases h <;> exact ⟨rfl, rfl⟩

theorem lane_of_slot (h : c.slot? = some l) (hc : c.hasUnwound = false) : c.lane? = some l := by
  revert h hc
  fun_cases slot? c <;> simp [lane?, hasUnwound]

theorem lane_of_hasUnwound (h : c.hasUnwound = true) :
    (∃ l, c.slot? = some l) ∧ c.lane? = none := by
  revert h
  fun_cases hasUnwound c <;> simp [lane?, slot?]

theorem returned_books (h : c.isOver = true) (hc : c.hasUnwound = false) :
    c.slot? = none ∧ c.holdsMutex = false ∧ c.counted = false ∧ c.active = false := by
  revert h hc
  fun_cases isOver c <;> simp [slot?, holdsMutex, counted, active, hasUnwound]

theorem acquires_lane {now : Instant} {p : PitScheduler} {k : Ticket}
    (hmutex : p.sharedMutex = false) (hl : p.freeLane = some l) :
    Transition.exec (fun x e => step now x.1 x.2 e) (p, waiting (T := T) k .numbered)
      [.go, .go, .go] = some ({ p with
        sharedWaiting := p.sharedWaiting + 1
        sharedMutex := true
        sharedLanes := p.sharedLanes.set l (some k.executionId) },
      .owning ⟨k, l, now⟩ .assigned) := by
  unfold PitScheduler.freeLane at hl
  simp [Transition.exec, step, PitScheduler.freeLane, hmutex, hl]

end RunOneObserved

namespace State

/-- The calls that have unwound number the unwinding steps of the run. -/
theorem tally_hasUnwound {n : UInt64} {now : Instant} {as : List (Action T)} {s : State T}
    (h : exec (fresh n now) as = some s) :
    tally RunOneObserved.hasUnwound s.calls = (as.map fun a => a.unwindsCall.toNat).sum := by
  have hrise : ∀ (s : State T) a t, True → s.step a = some t →
      tally RunOneObserved.hasUnwound t.calls =
        tally RunOneObserved.hasUnwound s.calls + a.unwindsCall.toNat := by
    intro s a t _ hs
    cases step_cases hs with
    | runOneObserved => exact tally_concat _ _ _
    | @call i e c p c' hi hc =>
      have ht := tally_set (p := RunOneObserved.hasUnwound) (b := c') hi
      obtain ⟨h₁, h₂⟩ := RunOneObserved.step_hasUnwound hc
      rw [h₁, h₂] at ht
      exact ht
    | notifyNobody hi hnone => exact tally_set_eq hi rfl
    | @notify i j k r t hij hi hj hj' =>
      have hfirst := tally_set_eq (p := RunOneObserved.hasUnwound)
        (b := .releasing k r .notified) hi rfl
      have hsecond := tally_set_eq (p := RunOneObserved.hasUnwound)
        (b := .waiting t (.woken true)) hj' rfl
      exact hsecond.trans hfirst
    | _ => rfl
  have := Transition.exec_weight (fun _ => True) (fun _ _ _ _ _ => trivial) hrise trivial h
  simpa [fresh] using this

/-- The call that arrived last takes its steps while nobody else moves. -/
theorem exec_last {calls : List (RunOneObserved T)} {es : List (Choice T)} {p p' : PitScheduler}
    {c c' : RunOneObserved T} {s : State T} (hp : s.scheduler = p) (hcalls : s.calls = calls ++ [c])
    (h : Transition.exec (fun x e => RunOneObserved.step s.now x.1 x.2 e) (p, c) es =
      some (p', c')) :
    s.exec (es.map (.call calls.length)) =
      some { s with scheduler := p', calls := calls ++ [c'] } := by
  induction es generalizing s p c with
  | nil =>
    cases h
    cases s
    simp_all
  | cons e es ih =>
    obtain ⟨⟨p₁, c₁⟩, hstep, hrest⟩ := Transition.exec_cons.mp h
    refine Transition.exec_cons.mpr
      ⟨{ s with scheduler := p₁, calls := calls ++ [c₁] }, ?_, ih rfl rfl hrest⟩
    subst hp
    simp [step, hcalls, show c.step s.now s.scheduler e = some (p₁, c₁) from hstep]

theorem LaterCallAssigned.of_idle {s : State T} (hmutex : s.scheduler.sharedMutex = false)
    (hpos : 0 < s.scheduler.sharedLanes.length)
    (hnone : ∀ v ∈ s.scheduler.sharedLanes, v = none) : s.LaterCallAssigned := by
  obtain ⟨l, hl⟩ : ∃ l, s.scheduler.freeLane = some l := by
    refine Option.ne_none_iff_exists'.mp fun h => ?_
    have hfull := Slots.free_eq_zero.mp (PitScheduler.freeLane_none.mp h)
    exact hfull _ (List.getElem_mem hpos) (hnone _ (List.getElem_mem hpos))
  let arrived : State T := { s with
    scheduler := { s.scheduler with nextExecutionId := s.scheduler.nextExecutionId + 1 }
    calls := s.calls ++ [.waiting ⟨s.scheduler.nextId, s.now⟩ .numbered] }
  have hthree := exec_last (s := arrived) rfl rfl (RunOneObserved.acquires_lane hmutex hl)
  exact ⟨_, _, Transition.exec_cons.mpr ⟨arrived, rfl, hthree⟩, List.getElem?_concat_length⟩

theorem LanesReturned.none_unwound {s : State T} (h : s.LanesReturned) (hbook : s.Bookkeeping) :
    tally RunOneObserved.hasUnwound s.calls = 0 := by
  refine tally_eq_zero.mpr fun c hc => Bool.eq_false_iff.mpr fun hunwound => ?_
  obtain ⟨⟨l, hslot⟩, hlane⟩ := RunOneObserved.lane_of_hasUnwound hunwound
  obtain ⟨id, hid⟩ := Slots.exists_occupant (hbook.slots.occupied_of_owner hc hslot)
  obtain ⟨d, hd, hdl⟩ := h.owned l id hid
  obtain ⟨i, hi⟩ := List.mem_iff_getElem?.mp hc
  obtain ⟨j, hj⟩ := List.mem_iff_getElem?.mp hd
  have hij := hbook.slots.owner_injective hi hj hslot (RunOneObserved.slot_of_lane hdl)
  subst hij
  obtain rfl := Option.some.inj (hi.symm.trans hj)
  rw [hlane] at hdl
  cases hdl

theorem LanesReturned.of_none_unwound {s : State T} (hbook : s.Bookkeeping)
    (hpos : 0 < s.scheduler.laneCount) (hnone : ∀ c ∈ s.calls, c.hasUnwound = false) :
    s.LanesReturned where
  owned l id hid := by
    obtain ⟨c, hc, hslot⟩ := hbook.slots.exists_owner hid
    exact ⟨c, hc, RunOneObserved.lane_of_slot hslot (hnone c hc)⟩
  idle hover := by
    have hbooks c hc := RunOneObserved.returned_books (hover c hc) (hnone c hc)
    have hlanes : ∀ v ∈ s.scheduler.sharedLanes, v = none := by
      intro v hv
      cases v with
      | none => rfl
      | some id =>
        obtain ⟨l, hl⟩ := List.mem_iff_getElem?.mp hv
        obtain ⟨c, hc, hslot⟩ := hbook.slots.exists_owner hl
        rw [(hbooks c hc).1] at hslot
        cases hslot
    have hmutex : s.scheduler.sharedMutex = false := by
      have hnobody := tally_eq_zero.mpr fun c hc => (hbooks c hc).2.1
      have := hbook.mutex
      unfold Exclusive at this
      rw [hnobody] at this
      exact (Bool.toNat_eq_zero.mp this.symm)
    refine ⟨hlanes, ?_, ?_, .of_idle hmutex (hbook.lanes_length ▸ hpos) hlanes⟩
    · have := hbook.active
      rwa [tally_eq_zero.mpr fun c hc => (hbooks c hc).2.2.2] at this
    · have := hbook.waiting
      rwa [tally_eq_zero.mpr fun c hc => (hbooks c hc).2.2.1] at this

/-- A run has given every lane back exactly when no observer and no task in it
has unwound. -/
theorem lanesReturned_iff {n : UInt64} {now : Instant} {as : List (Action T)} {s : State T}
    (hn : n ≠ 0) (h : exec (fresh n now) as = some s) :
    s.LanesReturned ↔ ∀ a ∈ as, a.unwindsCall = false := by
  have hbook : s.Bookkeeping := Reachable.bookkeeping ⟨as, h⟩
  have htally := tally_hasUnwound h
  have hsum : (as.map fun a => a.unwindsCall.toNat).sum = 0 ↔ ∀ a ∈ as, a.unwindsCall = false := by
    simp [List.sum_eq_zero_iff]
  rw [← hsum, ← htally]
  constructor
  · intro hret
    exact hret.none_unwound hbook
  · intro hnone
    refine .of_none_unwound hbook ?_ (tally_eq_zero.mp hnone)
    rw [Reachable.laneCount ⟨as, h⟩]
    exact Nat.pos_of_ne_zero fun h₀ => hn (UInt64.toNat_inj.mp h₀)

/-- One call after another on one lane; the first returns its lane. -/
def returningRun : List (Action Unit) :=
  [[.runOneObserved], List.replicate 8 (.call 0 .go),
    [.call 0 (.start 0), .call 0 (.finish (.error "failed"))], List.replicate 4 (.call 0 .go),
    [.notifyOne 0 none, .call 0 .go]].flatten

theorem lanesReturned_returningRun :
    ∃ s : State Unit, exec (fresh 1 0) returningRun = some s ∧
      s.calls.all RunOneObserved.isOver = true ∧ s.LanesReturned := by
  have heval : (exec (fresh 1 0) returningRun).map (·.calls.all RunOneObserved.isOver) =
      some true := by decide +kernel
  obtain ⟨s, hs, hover⟩ := Option.map_eq_some_iff.mp heval
  exact ⟨s, hs, hover, (lanesReturned_iff (by decide) hs).mpr (by decide)⟩

/-- The observer of the only call unwinds. -/
def unwindingRun : List (Action Unit) :=
  .runOneObserved :: List.replicate 5 (.call 0 .go) ++ [.call 0 .unwind]

theorem unwindingRun_not_lanesReturned :
    ¬ ∀ (n : UInt64) (now : Instant) (as : List (Action Unit)) (s : State Unit), n ≠ 0 →
      exec (fresh n now) as = some s → s.LanesReturned := by
  intro h
  have heval : (exec (fresh 1 0) unwindingRun).map
      (fun s => (s.calls.all RunOneObserved.isOver, s.scheduler.sharedLanes)) =
      some (true, [some 0]) := by decide +kernel
  obtain ⟨s, hs, heq⟩ := Option.map_eq_some_iff.mp heval
  obtain ⟨hover, hlanes⟩ := Prod.mk.inj heq
  have hnone := ((h 1 0 unwindingRun s (by decide) hs).idle (List.all_eq_true.mp hover)).1
  rw [hlanes] at hnone
  cases hnone _ (List.mem_singleton_self _)

end State

end PitBox.Scheduler
