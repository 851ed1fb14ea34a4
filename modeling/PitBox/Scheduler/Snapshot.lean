import PitBox.Scheduler.SharedLanes

/-!
# The live snapshot

`shared_snapshot` holds the mutex of the slot vector and, one after the other,
loads the active counter, the waiting counter and the peak and copies the
vector. The mutex keeps the vector still. It does not keep the counters still:
other calls register and raise the active counter outside it.
-/

namespace PitBox.Scheduler

open Table Ledger

variable {T : Type}

def LaneState.isRunning : LaneState → Bool
  | .running _ => true
  | .free => false

/-- The snapshot put together from the memory at the load of the active
counter, at that of the waiting counter, and at that of the peak and the vector. -/
def PitScheduler.sharedSnapshot (atActive atWaiting atPeak : PitScheduler) : SchedulerSnapshot where
  laneCount := atActive.laneCount
  running := atActive.sharedActive
  queued := atWaiting.sharedWaiting
  completed := 0
  failed := 0
  peakActive := atPeak.sharedPeak
  lanes := atPeak.sharedLanes.map fun executionId => executionId.elim .free .running

/-- The `free_lanes` of a heartbeat. -/
def SchedulerSnapshot.freeLanes (live : SchedulerSnapshot) : ℕ :=
  live.laneCount - live.running.toNat

def RunOneObserved.registered (c : RunOneObserved T) : Bool := c.queued || c.slot?.isSome

namespace State

/-- A step another thread can take while a snapshot holds the mutex. -/
def stepLocked (s : State T) (a : Action T) : Option (State T) :=
  (s.step a).filter fun t => !t.scheduler.sharedMutex

abbrev execLocked (s : State T) (as : List (Action T)) : Option (State T) :=
  Transition.exec State.stepLocked s as

/-- The snapshot agrees with itself, and with the calls at the moment its
waiting counter is loaded. -/
structure SelfConsistent (s : State T) (live : SchedulerSnapshot) : Prop where
  running : live.running.toNat = live.lanes.countP LaneState.isRunning
  counted : live.queued.toNat + live.running.toNat = tally RunOneObserved.registered s.calls
  freeLanes : live.freeLanes = live.lanes.countP (· == .free)

theorem stepLocked_lanes {s t : State T} {a : Action T} (hbook : s.Bookkeeping)
    (hfree : s.scheduler.sharedMutex = false) (h : s.stepLocked a = some t) :
    s.step a = some t ∧ t.scheduler.sharedMutex = false ∧
      t.scheduler.sharedLanes = s.scheduler.sharedLanes := by
  obtain ⟨hs, hlocked⟩ := Option.filter_eq_some_iff.mp h
  refine ⟨hs, by simpa using hlocked, ?_⟩
  cases step_cases hs with
  | call hi hc =>
    have hmutex := holdsMutex_of_free hbook hfree (List.mem_of_getElem? hi)
    exact RunOneObserved.step_lanes_of_unlocked hc hmutex
  | batch hi hb => exact (BatchStage.step_sameLanes hb).2.2.1
  | worker hi hw => exact (BatchStage.workerStep_frame hw).1.2.2.1
  | _ => rfl

theorem execLocked_lanes {n : UInt64} {now : Instant} {as : List (Action T)} {s t : State T}
    (hr : Reachable n now s) (hfree : s.scheduler.sharedMutex = false)
    (h : s.execLocked as = some t) :
    Reachable n now t ∧ t.scheduler.sharedMutex = false ∧
      t.scheduler.sharedLanes = s.scheduler.sharedLanes := by
  apply Transition.exec_invariant_of_step (I := fun t : State T => Reachable n now t ∧
    t.scheduler.sharedMutex = false ∧ t.scheduler.sharedLanes = s.scheduler.sharedLanes)
    ?_ ⟨hr, hfree, rfl⟩ h
  rintro u a v ⟨hru, hfree, hlanes⟩ hstep
  obtain ⟨hs, hfree', hlanes'⟩ := stepLocked_lanes hru.bookkeeping hfree hstep
  exact ⟨Transition.Reachable.after hru hs, hfree', hlanes'.trans hlanes⟩

theorem countP_isRunning (slots : List (Option ExecutionId)) :
    (slots.map fun executionId => executionId.elim LaneState.free .running).countP
      LaneState.isRunning = tally Option.isSome slots := by
  rw [List.countP_map, tally_eq_countP]
  congr 1
  funext v
  cases v <;> rfl

theorem countP_free (slots : List (Option ExecutionId)) :
    (slots.map fun executionId => executionId.elim LaneState.free .running).countP (· == .free) =
      Slots.free slots := by
  rw [List.countP_map, Slots.free, tally_eq_countP]
  congr 1
  funext v
  cases v <;> rfl

theorem tally_registered_of_free {s : State T} (hbook : s.Bookkeeping) :
    tally RunOneObserved.registered s.calls =
      tally RunOneObserved.queued s.calls + tally Option.isSome s.scheduler.sharedLanes := by
  calc tally RunOneObserved.registered s.calls
    _ = total (fun c => c.queued.toNat + c.slot?.isSome.toNat) s.calls := by
        apply total_congr
        intro c _
        cases c with
        | waiting k stage => simp [RunOneObserved.registered, RunOneObserved.slot?]
        | _ => simp [RunOneObserved.registered, RunOneObserved.queued]
    _ = tally RunOneObserved.queued s.calls + tally (fun c => c.slot?.isSome) s.calls :=
        total_add _ _ _
    _ = tally RunOneObserved.queued s.calls + tally Option.isSome s.scheduler.sharedLanes := by
        rw [hbook.slots.tally_occupied]

/-- A snapshot agrees with itself exactly when no call is between its slot and
the active counter at the load of that counter, and the calls that wait fit
the word that counts them. -/
theorem sharedSnapshot_selfConsistent_iff {n : UInt64} {now : Instant}
    {as₁ as₂ as₃ : List (Action T)} {s₀ s₁ s₂ s₃ : State T} (h₀ : Reachable n now s₀)
    (hfree : s₀.scheduler.sharedMutex = false) (h₁ : s₀.execLocked as₁ = some s₁)
    (h₂ : s₁.execLocked as₂ = some s₂) (h₃ : s₂.execLocked as₃ = some s₃) :
    s₂.SelfConsistent (s₁.scheduler.sharedSnapshot s₂.scheduler s₃.scheduler) ↔
      (∀ c ∈ s₁.calls, c.unraised = false) ∧
        tally RunOneObserved.queued s₂.calls < 2 ^ 64 := by
  obtain ⟨hr₁, hfree₁, -⟩ := execLocked_lanes h₀ hfree h₁
  obtain ⟨hr₂, hfree₂, hlanes₂⟩ := execLocked_lanes hr₁ hfree₁ h₂
  obtain ⟨-, -, hlanes₃⟩ := execLocked_lanes hr₂ hfree₂ h₃
  have hactive := hr₁.sharedActive_toNat
  have hoccupied := tally_occupied_of_free hr₁.bookkeeping hfree₁
  have hsplit := Slots.tally_occupied_add_free s₁.scheduler.sharedLanes
  have hregistered := tally_registered_of_free hr₂.bookkeeping
  have hwaiting := hr₂.bookkeeping.waiting
  rw [tally_counted_of_free hr₂.bookkeeping hfree₂] at hwaiting
  rw [hlanes₂] at hregistered
  rw [hr₁.bookkeeping.lanes_length] at hsplit
  have hrunning := countP_isRunning s₁.scheduler.sharedLanes
  have hnone := countP_free s₁.scheduler.sharedLanes
  rw [← tally_eq_zero]
  constructor
  · rintro ⟨hrun, hcount, -⟩
    simp only [PitScheduler.sharedSnapshot, hlanes₃, hlanes₂] at hrun hcount
    have hword := s₂.scheduler.sharedWaiting.toNat_lt
    constructor <;> omega
  · rintro ⟨hraised, hbound⟩
    have hqueued := hwaiting.toNat hbound
    constructor <;>
      simp only [SchedulerSnapshot.freeLanes, PitScheduler.sharedSnapshot, hlanes₃, hlanes₂] <;>
      omega

def observingRun : List (Action Unit) := .runOneObserved :: List.replicate 5 (.call 0 .go)

theorem observingRun_not_selfConsistent :
    ¬ ∀ (n : UInt64) (now : Instant) (as₁ as₂ as₃ : List (Action Unit)) (s₀ s₁ s₂ s₃ : State Unit),
      n ≠ 0 → Reachable n now s₀ → s₀.scheduler.sharedMutex = false →
      s₀.execLocked as₁ = some s₁ → s₁.execLocked as₂ = some s₂ → s₂.execLocked as₃ = some s₃ →
      s₂.SelfConsistent (s₁.scheduler.sharedSnapshot s₂.scheduler s₃.scheduler) := by
  intro h
  have heval : (exec (fresh 1 0) observingRun).map (fun s =>
      (s.scheduler.sharedMutex, s.scheduler.sharedActive, s.scheduler.sharedLanes)) =
      some (false, 0, [some 0]) := by decide +kernel
  obtain ⟨s, hs, heq⟩ := Option.map_eq_some_iff.mp heval
  simp only [Prod.mk.injEq] at heq
  obtain ⟨hmutex, hactive, hlanes⟩ := heq
  have hrun := (h 1 0 [] [] [] s s s s (by decide) ⟨_, hs⟩ hmutex rfl rfl rfl).running
  simp only [PitScheduler.sharedSnapshot, hactive, hlanes] at hrun
  exact absurd hrun (by decide)

def countedRun : List (Action Unit) := .runOneObserved :: List.replicate 7 (.call 0 .go)

theorem sharedSnapshot_selfConsistent_countedRun :
    ∃ s : State Unit, exec (fresh 1 0) countedRun = some s ∧ s.scheduler.sharedActive = 1 ∧
      s.SelfConsistent (s.scheduler.sharedSnapshot s.scheduler s.scheduler) := by
  have heval : (exec (fresh 1 0) countedRun).map (fun s => (s.scheduler.sharedMutex,
      s.scheduler.sharedActive, s.calls.all fun c => !c.unraised, s.calls.length)) =
      some (false, 1, true, 1) := by decide +kernel
  obtain ⟨s, hs, heq⟩ := Option.map_eq_some_iff.mp heval
  simp only [Prod.mk.injEq, List.all_eq_true, Bool.not_eq_true'] at heq
  obtain ⟨hmutex, hactive, hraised, hlength⟩ := heq
  have hnothing : s.execLocked [] = some s := rfl
  refine ⟨s, hs, hactive, ?_⟩
  refine (sharedSnapshot_selfConsistent_iff ⟨_, hs⟩ hmutex hnothing hnothing hnothing).mpr
    ⟨hraised, ?_⟩
  exact (tally_le_length _ _).trans_lt (hlength ▸ by decide)

end State

end PitBox.Scheduler
