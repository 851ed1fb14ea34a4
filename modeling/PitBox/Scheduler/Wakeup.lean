import PitBox.Scheduler.Bookkeeping

/-!
# No lost wakeup

The slots, the mutex and the condition variable form a monitor over the pool
of lanes. Each step of the system is a stutter or a step of the counts of that
monitor, so whenever the mutex is free, a blocked caller next to a free lane
means that a notified caller is already on its way to the mutex.
-/

namespace PitBox.Scheduler

open Table Ledger Foundations

variable {T : Type}

namespace State

def lanePool (s : State T) : Monitor :=
  .ofTable (Slots.free s.scheduler.sharedLanes) RunOneObserved.phase s.calls

theorem step_lanePool {s t : State T} {a : Action T} (h : s.Bookkeeping)
    (hs : s.step a = some t) :
    t.lanePool = s.lanePool ∨ Monitor.Step s.lanePool t.lanePool := by
  cases step_cases hs with
  | tick d => exact .inl rfl
  | runOneObserved =>
    left
    simp [lanePool, Monitor.ofTable, RunOneObserved.phase]
  | call hi hc =>
    refine Monitor.Move.step hi (RunOneObserved.step_monitor (fun l hl => ?_) hc)
    exact h.slots.occupied_of_owner (List.mem_of_getElem? hi) hl
  | notifyNobody hi hnone => exact .inr (Monitor.step_notifyNobody hi rfl rfl hnone)
  | notify hij hi hj hj' => exact .inr (Monitor.step_notify hij hi hj rfl rfl rfl rfl)
  | runManyClassified count classify => exact .inl rfl
  | batch hi hb =>
    left
    obtain ⟨-, -, hlanes, -, -⟩ := BatchStage.step_sameLanes hb
    simp only [lanePool, hlanes]
  | worker hi hw =>
    left
    obtain ⟨-, -, hlanes, -, -⟩ := (BatchStage.workerStep_frame hw).1
    simp only [lanePool, hlanes]

theorem Reachable.lanePool_covered {n : UInt64} {now : Instant} {s : State T}
    (h : Reachable n now s) : s.lanePool.Covered := by
  obtain ⟨as, has⟩ := h
  exact Transition.exec_simulation (I := Bookkeeping) (R := Monitor.Step)
    (fun _ _ _ => .step) (fun _ _ _ => step_lanePool) (fun _ _ => .step)
    (bookkeeping_fresh n now) (.inl rfl) has

theorem Bookkeeping.none_inside {s : State T} (h : s.Bookkeeping)
    (hfree : s.scheduler.sharedMutex = false) : s.lanePool.inside = 0 := by
  have hmutex := h.mutex
  rw [hfree] at hmutex
  refine tally_eq_zero.mpr fun c hc => ?_
  have hnone := hmutex.none_of_free hc
  revert hnone
  fun_cases RunOneObserved.phase c <;> simp [RunOneObserved.holdsMutex]

/-- With the mutex free and a caller blocked, there are at most as many free
lanes as callers that have been notified and not yet taken the mutex again; so
without a pending notification no lane is free. -/
theorem free_lanes_le_notified {n : UInt64} {now : Instant} {s : State T}
    (h : Reachable n now s) (hfree : s.scheduler.sharedMutex = false)
    (hblocked : ∃ c ∈ s.calls, c.asleep = true) :
    Slots.free s.scheduler.sharedLanes ≤ tally RunOneObserved.notified s.calls ∧
      (tally RunOneObserved.notified s.calls = 0 → ∀ v ∈ s.scheduler.sharedLanes, v ≠ none) := by
  obtain ⟨c, hc, hasleep⟩ := hblocked
  have hbound : Slots.free s.scheduler.sharedLanes ≤ tally RunOneObserved.notified s.calls :=
    h.lanePool_covered.pending (h.bookkeeping.none_inside hfree) (tally_pos hc hasleep)
  refine ⟨hbound, fun hzero => ?_⟩
  exact Slots.free_eq_zero.mp (Nat.le_zero.mp (hzero ▸ hbound))

def blockedRun : List (Action Unit) :=
  [.runOneObserved, .call 0 .go, .call 0 .go, .call 0 .go, .call 0 .go, .call 0 .go,
    .runOneObserved, .call 1 .go, .call 1 .go, .call 1 .go]

theorem free_lanes_le_notified_blockedRun :
    ∃ s : State Unit, exec (fresh 1 0) blockedRun = some s ∧
      (∃ c ∈ s.calls, c.asleep = true) ∧ Slots.free s.scheduler.sharedLanes = 0 ∧
      Slots.free s.scheduler.sharedLanes ≤ tally RunOneObserved.notified s.calls := by
  refine ⟨_, rfl, ?_, rfl, ?_⟩
  · exact ⟨.waiting ⟨1, 0⟩ .asleep, List.mem_of_getElem? (i := 1) rfl, rfl⟩
  · refine (free_lanes_le_notified (show Reachable 1 0 _ from ⟨blockedRun, rfl⟩) rfl ?_).1
    exact ⟨.waiting ⟨1, 0⟩ .asleep, List.mem_of_getElem? (i := 1) rfl, rfl⟩

end State

end PitBox.Scheduler
