import PitBox.Scheduler.LaneReturn
import PitBox.Scheduler.Wakeup

/-!
# The single-task API drains

A call can be delayed in two ways: another caller may take the lane it was
notified for, and it may sleep for ever. The first happens at most once for
each lane given back, so the steps of all calls are bounded by the number of
calls and of spurious wakeups. The second happens only when every lane has
been left behind by a call that unwound. A run that has no step left for any
call has therefore brought every call to its end.
-/

namespace PitBox.Scheduler

open Table Ledger

variable {T : Type}

/-- A step that a call takes on its own, or with what its closures return. -/
def Action.advancesCall : Action T → Bool
  | .call _ .spurious => false
  | .call _ _ | .notifyOne _ _ => true
  | _ => false

/-- A step that a call takes on its own outside its closures. -/
def Action.advancesJob : Action T → Bool
  | .call _ .go | .call _ (.start _) | .notifyOne _ _ => true
  | _ => false

theorem Action.advancesCall_of_job {a : Action T} (h : a.advancesJob = true) :
    a.advancesCall = true := by
  revert h
  fun_cases advancesJob a <;> simp [advancesCall]

/-- The steps that an arriving call and a spurious wakeup make room for. -/
def Action.callSteps : Action T → ℕ
  | .runOneObserved => 18
  | .call _ .spurious => 2
  | _ => 0

namespace RunOneObserved

/-- The steps before a call. A notification still owed counts for the two
steps by which the notified call may come back to sleep. -/
def rank : RunOneObserved T → ℕ
  | .waiting _ .numbered => 18
  | .waiting _ .locking | .waiting _ (.woken _) => 17
  | .waiting _ .scanning => 16
  | .waiting _ .asleep | .owning _ .assigned => 15
  | .owning _ .dequeued => 14
  | .owning _ .observing => 13
  | .owning _ .observed => 12
  | .owning _ (.activated _) => 11
  | .owning _ .peaked => 10
  | .owning _ (.running _) => 9
  | .owning _ (.ended _ _ _) => 8
  | .owning _ (.reported _) => 7
  | .owning _ (.relocked _) => 6
  | .releasing _ _ .cleared => 5
  | .releasing _ _ .deactivated => 4
  | .releasing _ _ .notified => 1
  | .returned _ _ | .unwound _ _ => 0

variable {now : Instant} {p p' : PitScheduler} {e : Choice T} {c c' : RunOneObserved T}

theorem step_rank (i : ℕ) (h : c.step now p e = some (p', c')) :
    c'.rank + (Action.call i e).advancesCall.toNat ≤ c.rank + (Action.call i e).callSteps := by
  revert h
  fun_cases step now p c e <;> intro h <;> cases h <;>
    simp [rank, Action.advancesCall, Action.callSteps]

def runs : RunOneObserved T → Bool
  | .owning _ (.running _) => true
  | _ => false

theorem timer_of_runs (h : c.runs = true) : ∃ slot timer, c = .owning slot (.running timer) := by
  revert h
  fun_cases runs c <;> simp

/-- A call that is neither over nor asleep nor in its task can move by itself,
unless it waits for the mutex or owes a notification. -/
theorem exists_step (now : Instant) (hover : c.isOver = false) (hasleep : c.asleep = false)
    (hruns : c.runs = false) (hmutex : p.sharedMutex = false ∨ c.holdsMutex = true)
    (hnotify : ∀ k r, c ≠ .releasing k r .deactivated) :
    ∃ e, (∀ i, (Action.call i e).advancesJob = true) ∧ (c.step now p e).isSome = true := by
  have hgo : (c.step now p .go).isSome = true →
      ∃ e, (∀ i, (Action.call i e).advancesJob = true) ∧ (c.step now p e).isSome = true :=
    fun h => ⟨.go, fun _ => rfl, h⟩
  cases c with
  | waiting k stage =>
    cases stage with
    | numbered => exact hgo rfl
    | locking | woken notified =>
      have hfree : p.sharedMutex = false := by simpa [holdsMutex] using hmutex
      exact hgo (by simp [step, hfree])
    | scanning =>
      refine hgo ?_
      simp only [step]
      split <;> rfl
    | asleep => cases hasleep
  | owning k stage =>
    cases stage with
    | peaked => exact ⟨.start 0, fun _ => rfl, rfl⟩
    | running timer => cases hruns
    | reported r =>
      have hfree : p.sharedMutex = false := by simpa [holdsMutex] using hmutex
      exact hgo (by simp [step, hfree])
    | _ => exact hgo rfl
  | releasing k r stage =>
    cases stage with
    | deactivated => exact absurd rfl (hnotify k r)
    | _ => exact hgo rfl
  | returned k r => cases hover
  | unwound k counted => cases hover

theorem live_of_step (he : e ≠ .spurious) (h : c.step now p e = some (p', c')) :
    c.isOver = false ∧ c.asleep = false := by
  revert he h
  fun_cases step now p c e <;> intro he h <;> cases h
  all_goals first
    | exact ⟨rfl, rfl⟩
    | exact (he rfl).elim
    | skip
  · -- a woken call
    rename_i notified _
    cases notified <;> exact ⟨rfl, rfl⟩

theorem ticket_of_asleep (h : c.asleep = true) : ∃ t, c = .waiting t .asleep := by
  revert h
  unfold asleep
  fun_cases phase c <;> simp

theorem assignment_of_isOver (h : c.isOver = true) :
    (∃ k r, c = .returned k r) ∨ ∃ k counted, c = .unwound k counted := by
  revert h
  fun_cases isOver c <;> simp

theorem quiet_books (h : c.isOver = true ∨ c.asleep = true) :
    c.slot?.isSome = c.hasUnwound ∧ c.holdsMutex = false ∧ c.notified = false := by
  rcases h with h | h
  · rcases assignment_of_isOver h with ⟨k, r, rfl⟩ | ⟨k, counted, rfl⟩ <;> exact ⟨rfl, rfl, rfl⟩
  · obtain ⟨t, rfl⟩ := ticket_of_asleep h
    exact ⟨rfl, rfl, rfl⟩

theorem over_books (h : c.isOver = true) :
    c.counted = false ∧ (c.active = true → c.hasUnwound = true) := by
  rcases assignment_of_isOver h with ⟨k, r, rfl⟩ | ⟨k, counted, rfl⟩
  · exact ⟨rfl, fun h => h⟩
  · exact ⟨rfl, fun _ => rfl⟩

end RunOneObserved

namespace State

def CallReady (s : State T) : Prop :=
  ∃ a : Action T, a.advancesCall = true ∧ (s.step a).isSome = true

def callRank (s : State T) : ℕ := total RunOneObserved.rank s.calls

theorem step_callRank {s t : State T} {a : Action T} (h : s.step a = some t) :
    t.callRank + a.advancesCall.toNat ≤ s.callRank + a.callSteps := by
  cases step_cases h with
  | runOneObserved => simp [callRank, RunOneObserved.rank, Action.advancesCall, Action.callSteps]
  | @call i e c p c' hi hc =>
    have hrank := RunOneObserved.step_rank i hc
    have htotal := total_set RunOneObserved.rank (b := c') hi
    simp only [callRank]
    omega
  | @notifyNobody i k r hi hnone =>
    have htotal := total_set RunOneObserved.rank (b := .releasing k r .notified) hi
    simp only [callRank, RunOneObserved.rank, Action.advancesCall, Bool.toNat_true] at htotal ⊢
    omega
  | @notify i j k r t hij hi hj hj' =>
    have h₁ := total_set RunOneObserved.rank (b := .releasing k r .notified) hi
    have h₂ := total_set RunOneObserved.rank (b := .waiting t (.woken true)) hj'
    simp only [callRank, RunOneObserved.rank, Action.advancesCall, Bool.toNat_true] at h₁ h₂ ⊢
    omega
  | _ => exact Nat.le_add_right _ _

theorem exec_callRank {s t : State T} {as : List (Action T)} (h : s.exec as = some t) :
    t.callRank + tally Action.advancesCall as ≤ s.callRank + (as.map Action.callSteps).sum :=
  Transition.exec_budget (f := callRank) (w := fun a : Action T => a.advancesCall.toNat)
    (fun _ => True) (fun _ _ _ _ _ => trivial) (fun _ _ _ _ => step_callRank) trivial h

/-! ### When no call can move -/

def JobReady (s : State T) : Prop :=
  ∃ a : Action T, a.advancesJob = true ∧ (s.step a).isSome = true

theorem JobReady.callReady {s : State T} (h : s.JobReady) : s.CallReady := by
  obtain ⟨a, ha, hstep⟩ := h
  exact ⟨a, Action.advancesCall_of_job ha, hstep⟩

theorem jobReady_of_call {s : State T} {i : ℕ} {c : RunOneObserved T}
    (hi : s.calls[i]? = some c) {e : Choice T} (he : (Action.call i e).advancesJob = true)
    (hc : (c.step s.now s.scheduler e).isSome = true) : s.JobReady := by
  refine ⟨.call i e, he, ?_⟩
  simpa [step, hi] using hc

theorem jobReady_of_deactivated {s : State T} {i : ℕ} {k : Assignment} {r : ExecutionResult T}
    (hi : s.calls[i]? = some (.releasing k r .deactivated)) : s.JobReady := by
  rcases Nat.eq_zero_or_pos (tally RunOneObserved.asleep s.calls) with hnone | hpos
  · exact ⟨.notifyOne i none, rfl, by simp [step, notifyOne, hi, hnone]⟩
  · obtain ⟨c, hc, hasleep⟩ := exists_of_tally_pos hpos
    obtain ⟨j, hj⟩ := List.mem_iff_getElem?.mp hc
    obtain ⟨t, rfl⟩ := RunOneObserved.ticket_of_asleep hasleep
    exact ⟨.notifyOne i (some j), rfl, by simp [step, notifyOne, hi, hj]⟩

theorem callReady_of_runs {s : State T} {c : RunOneObserved T} (hc : c ∈ s.calls)
    (hruns : c.runs = true) : s.CallReady := by
  obtain ⟨i, hi⟩ := List.mem_iff_getElem?.mp hc
  obtain ⟨slot, timer, rfl⟩ := RunOneObserved.timer_of_runs hruns
  exact ⟨.call i .unwind, rfl, by simp [step, hi, RunOneObserved.step]⟩

theorem jobReady_of_live {s : State T} {c : RunOneObserved T} (hc : c ∈ s.calls)
    (hover : c.isOver = false) (hasleep : c.asleep = false) (hruns : c.runs = false)
    (hmutex : s.scheduler.sharedMutex = false ∨ c.holdsMutex = true) : s.JobReady := by
  obtain ⟨i, hi⟩ := List.mem_iff_getElem?.mp hc
  by_cases hnotify : ∃ k r, c = .releasing k r .deactivated
  · obtain ⟨k, r, rfl⟩ := hnotify
    exact jobReady_of_deactivated hi
  · push Not at hnotify
    obtain ⟨e, he, hstep⟩ :=
      RunOneObserved.exists_step s.now hover hasleep hruns hmutex hnotify
    exact jobReady_of_call hi (he i) hstep

/-- While the mutex is held, its holder can move. -/
theorem jobReady_of_sharedMutex {s : State T} (h : s.Bookkeeping)
    (hheld : s.scheduler.sharedMutex = true) : s.JobReady := by
  have hmutex := h.mutex
  rw [hheld] at hmutex
  have hpos : 0 < tally RunOneObserved.holdsMutex s.calls :=
    Nat.lt_of_lt_of_eq Nat.one_pos hmutex.symm
  obtain ⟨c, hc, hholds⟩ := exists_of_tally_pos hpos
  have hlive : c.isOver = false ∧ c.asleep = false := by
    by_contra hquiet
    have := (RunOneObserved.quiet_books (c := c) (by grind)).2.1
    exact absurd hholds (by simp [this])
  have hruns : c.runs = false := by
    by_contra hruns
    obtain ⟨slot, timer, rfl⟩ := RunOneObserved.timer_of_runs (by simpa using hruns)
    cases hholds
  exact jobReady_of_live hc hlive.1 hlive.2 hruns (.inr hholds)

theorem Bookkeeping.all_resting {s : State T} (h : s.Bookkeeping) (hready : ¬ s.JobReady) :
    s.scheduler.sharedMutex = false ∧
      ∀ c ∈ s.calls, c.isOver = true ∨ c.asleep = true ∨ c.runs = true := by
  have hfree : s.scheduler.sharedMutex = false := by
    by_contra hheld
    exact hready (jobReady_of_sharedMutex h (Bool.not_eq_false _ ▸ hheld))
  refine ⟨hfree, fun c hc => ?_⟩
  by_contra hlive
  push Not at hlive
  exact hready (jobReady_of_live hc (by simpa using hlive.1) (by simpa using hlive.2.1)
    (by simpa using hlive.2.2) (.inl hfree))

theorem Bookkeeping.all_asleep {s : State T} (h : s.Bookkeeping) (hready : ¬ s.CallReady) :
    s.scheduler.sharedMutex = false ∧
      ∀ c ∈ s.calls, c.isOver = true ∨ c.asleep = true := by
  obtain ⟨hfree, hrest⟩ := h.all_resting fun hjob => hready hjob.callReady
  refine ⟨hfree, fun c hc => ?_⟩
  rcases hrest c hc with hover | hasleep | hruns
  · exact .inl hover
  · exact .inr hasleep
  · exact absurd (callReady_of_runs hc hruns) hready

theorem CallReady.exists_live {s : State T} (h : s.CallReady) :
    ∃ c ∈ s.calls, c.isOver = false ∧ c.asleep = false := by
  obtain ⟨a, ha, hstep⟩ := h
  obtain ⟨t, ht⟩ := Option.isSome_iff_exists.mp hstep
  cases step_cases ht with
  | @call i e c p c' hi hc =>
    refine ⟨c, List.mem_of_getElem? hi, ?_⟩
    cases e with
    | spurious => cases ha
    | _ => exact RunOneObserved.live_of_step (by simp) hc
  | notifyNobody hi hnone => exact ⟨_, List.mem_of_getElem? hi, rfl, rfl⟩
  | notify hij hi hj hj' => exact ⟨_, List.mem_of_getElem? hi, rfl, rfl⟩
  | _ => cases ha

theorem Bookkeeping.occupied_eq_unwound {s : State T} (h : s.Bookkeeping)
    (hasleep : ∀ c ∈ s.calls, c.isOver = true ∨ c.asleep = true) :
    tally Option.isSome s.scheduler.sharedLanes = tally RunOneObserved.hasUnwound s.calls := by
  rw [h.slots.tally_occupied]
  exact total_congr fun c hc => congrArg Bool.toNat (RunOneObserved.quiet_books (hasleep c hc)).1

theorem Reachable.full_of_resting {n : UInt64} {now : Instant} {s : State T}
    (h : Reachable n now s) (hready : ¬ s.JobReady) (hblocked : ∃ c ∈ s.calls, c.asleep = true) :
    Slots.free s.scheduler.sharedLanes = 0 := by
  obtain ⟨hfree, hrest⟩ := h.bookkeeping.all_resting hready
  obtain ⟨c, hc, hasleep⟩ := hblocked
  have hnotified : tally RunOneObserved.notified s.calls = 0 := by
    refine tally_eq_zero.mpr fun d hd => ?_
    rcases hrest d hd with hover | hd | hruns
    · exact (RunOneObserved.quiet_books (.inl hover)).2.2
    · exact (RunOneObserved.quiet_books (.inr hd)).2.2
    · obtain ⟨slot, timer, rfl⟩ := RunOneObserved.timer_of_runs hruns
      rfl
  have hbound : Slots.free s.scheduler.sharedLanes ≤ tally RunOneObserved.notified s.calls :=
    h.lanePool_covered.pending (h.bookkeeping.none_inside hfree) (tally_pos hc hasleep)
  omega

theorem Reachable.callReady {n : UInt64} {now : Instant} {s : State T} (h : Reachable n now s)
    (hlive : ∃ c ∈ s.calls, c.isOver = false)
    (hkept : tally RunOneObserved.hasUnwound s.calls = n.toNat →
      ∃ c ∈ s.calls, c.isOver = false ∧ c.asleep = false) : s.CallReady := by
  by_contra hready
  obtain ⟨c, hc, hover⟩ := hlive
  have hall := (h.bookkeeping.all_asleep hready).2
  have hasleep : c.asleep = true := (hall c hc).resolve_left (by simp [hover])
  have hfull := h.full_of_resting (fun hjob => hready hjob.callReady) ⟨c, hc, hasleep⟩
  have hsplit := Slots.tally_occupied_add_free s.scheduler.sharedLanes
  rw [h.bookkeeping.occupied_eq_unwound hall, h.bookkeeping.lanes_length, h.laneCount] at hsplit
  obtain ⟨d, hd, hdover, hdasleep⟩ := hkept (by omega)
  rcases hall d hd with hall | hall <;> simp_all

/-- Calls in progress are stuck in exactly one way: all of them sleep, and every
lane has been left behind by a call that unwound. -/
theorem callReady_iff {n : UInt64} {now : Instant} {s : State T} (h : Reachable n now s) :
    s.CallReady ↔ (∃ c ∈ s.calls, c.isOver = false) ∧
      (tally RunOneObserved.hasUnwound s.calls = n.toNat →
        ∃ c ∈ s.calls, c.isOver = false ∧ c.asleep = false) := by
  constructor
  · intro hready
    obtain ⟨c, hc, hover, hasleep⟩ := hready.exists_live
    exact ⟨⟨c, hc, hover⟩, fun _ => ⟨c, hc, hover, hasleep⟩⟩
  · rintro ⟨hlive, hkept⟩
    exact h.callReady hlive hkept

/-- The only lane is left behind by an observer that unwinds. -/
def wedgedRun : List (Action Unit) := blockedRun ++ [.call 0 .unwind]

theorem callReady_iff_wedgedRun :
    ∃ s : State Unit, exec (fresh 1 0) wedgedRun = some s ∧
      (∃ c ∈ s.calls, c.isOver = false) ∧ ¬ s.CallReady := by
  refine ⟨_, rfl, ⟨.waiting ⟨1, 0⟩ .asleep, List.mem_of_getElem? (i := 1) rfl, rfl⟩, ?_⟩
  intro hready
  have hr : Reachable 1 0 _ := ⟨wedgedRun, rfl⟩
  obtain ⟨c, hc, hover, hasleep⟩ := ((callReady_iff hr).mp hready).2 rfl
  rcases List.mem_pair.mp hc with rfl | rfl
  · cases hover
  · cases hasleep

/-- What is left of the calls when all of them are over: the slots and counts
of those that unwound. -/
structure Drained (s : State T) : Prop where
  isOver : ∀ c ∈ s.calls, c.isOver = true
  sharedMutex : s.scheduler.sharedMutex = false
  sharedWaiting : s.scheduler.sharedWaiting = 0
  sharedActive : s.scheduler.sharedActive.toNat ≤ tally RunOneObserved.hasUnwound s.calls
  free : Slots.free s.scheduler.sharedLanes + tally RunOneObserved.hasUnwound s.calls =
    s.scheduler.laneCount

theorem Bookkeeping.drained {s : State T} (h : s.Bookkeeping)
    (hfree : s.scheduler.sharedMutex = false) (hover : ∀ c ∈ s.calls, c.isOver = true) :
    s.Drained := by
  constructor
  · exact hover
  · exact hfree
  · refine h.waiting.trans ?_
    rw [tally_eq_zero.mpr fun c hc => (RunOneObserved.over_books (hover c hc)).1]
    rfl
  · have hactive : tally RunOneObserved.active s.calls ≤
        tally RunOneObserved.hasUnwound s.calls :=
      total_le_total fun c hc => Bool.toNat_le_toNat (RunOneObserved.over_books (hover c hc)).2
    rw [show s.scheduler.sharedActive = _ from h.active, UInt64.toNat_ofNat']
    exact (Nat.mod_le _ _).trans hactive
  · have hsplit := Slots.tally_occupied_add_free s.scheduler.sharedLanes
    rw [h.occupied_eq_unwound fun c hc => .inl (hover c hc), h.lanes_length] at hsplit
    omega

/-- In every run the calls take at most so many steps, and a run without a step
left for any of them, on a scheduler that has kept a lane, has drained. -/
theorem exec_drains {n : UInt64} {now : Instant} {as : List (Action T)} {s : State T}
    (h : exec (fresh n now) as = some s) :
    tally Action.advancesCall as ≤ (as.map Action.callSteps).sum ∧
      (¬ s.CallReady → tally RunOneObserved.hasUnwound s.calls < n.toNat → s.Drained) := by
  have hr : Reachable n now s := ⟨as, h⟩
  constructor
  · have hbound := exec_callRank h
    simp only [callRank, fresh, total_nil, Nat.zero_add] at hbound
    omega
  · intro hready hkept
    have hover : ∀ c ∈ s.calls, c.isOver = true := by
      intro c hc
      by_contra hlive
      refine hready (hr.callReady ⟨c, hc, by simpa using hlive⟩ fun hall => ?_)
      omega
    exact hr.bookkeeping.drained (hr.bookkeeping.all_asleep hready).1 hover

/-- Two callers on one lane; the second is notified when the first is done. -/
def drainRun : List (Action Unit) :=
  [blockedRun, List.replicate 3 (.call 0 .go), [.call 0 (.start 0), .call 0 (.finish (.ok ()))],
    List.replicate 4 (.call 0 .go), [.notifyOne 0 (some 1), .call 0 .go],
    List.replicate 7 (.call 1 .go), [.call 1 (.start 0), .call 1 (.finish (.error ""))],
    List.replicate 4 (.call 1 .go), [.notifyOne 1 none, .call 1 .go]].flatten

theorem exec_drains_drainRun :
    ∃ s : State Unit, exec (fresh 1 0) drainRun = some s ∧
      tally Action.advancesCall drainRun ≤ 36 ∧ s.Drained := by
  have heval : (exec (fresh 1 0) drainRun).map (fun s => (s.calls.all RunOneObserved.isOver,
      tally RunOneObserved.hasUnwound s.calls)) = some (true, 0) := by decide +kernel
  obtain ⟨s, hs, heq⟩ := Option.map_eq_some_iff.mp heval
  obtain ⟨hover, hunwound⟩ := Prod.mk.inj heq
  obtain ⟨hsteps, hdrained⟩ := exec_drains hs
  refine ⟨s, hs, hsteps, hdrained (fun hready => ?_) (by rw [hunwound]; decide)⟩
  obtain ⟨c, hc, hlive, -⟩ := hready.exists_live
  rw [List.all_eq_true.mp hover c hc] at hlive
  cases hlive

end State

end PitBox.Scheduler
