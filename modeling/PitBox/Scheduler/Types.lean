import PitBox.Foundations.Slots

/-!
# Data of the bounded scheduler

The public types of the scheduler and the memory shared by the clones of one
`PitScheduler`. The atomics are 64-bit words that wrap. The id counter is kept
as the number of ids handed out; the atomic holds it modulo `2^64`, which is
what an id is read off from. Instants and durations are nanoseconds.
-/

namespace PitBox.Scheduler

/-- Monotonic invocation identifier local to one scheduler process. -/
abbrev ExecutionId := UInt64

/-- Zero-based host execution-lane identifier. -/
abbrev LaneId := ℕ

abbrev Instant := ℕ
abbrev Duration := ℕ
abbrev SystemTime := ℕ

/-- Logical state of one execution lane. -/
inductive LaneState where
  | free
  | running (executionId : ExecutionId)
  deriving DecidableEq, Repr

/-- Lifecycle events of one scheduler run. -/
inductive ExecutionEvent where
  | queued (executionId : ExecutionId)
  | started (executionId : ExecutionId) (laneId : LaneId) (queuedFor : Duration)
  | completed (executionId : ExecutionId) (laneId : LaneId) (duration : Duration)
  | failed (executionId : ExecutionId) (laneId : LaneId) (duration : Duration) (error : String)
  deriving DecidableEq, Repr

/-- Lifecycle information for one scheduled execution. -/
structure ExecutionReport where
  executionId : ExecutionId
  laneId : LaneId
  started : SystemTime
  queuedFor : Duration
  schedulingGap : Duration
  duration : Duration
  success : Bool
  error : Option String
  deriving DecidableEq, Repr

/-- The value and lifecycle report produced by one scheduled execution. -/
structure ExecutionResult (T : Type) where
  report : ExecutionReport
  value : Option T

/-- Observable scheduler state after or during a run. -/
structure SchedulerSnapshot where
  laneCount : ℕ
  running : UInt64
  queued : UInt64
  completed : UInt64
  failed : UInt64
  peakActive : UInt64
  lanes : List LaneState
  deriving DecidableEq, Repr

/-- Results, events, and final state from one scheduler run. -/
structure SchedulerRun (T : Type) where
  results : List (ExecutionResult T)
  events : List ExecutionEvent
  snapshot : SchedulerSnapshot

/-- The memory behind a scheduler and all its clones. `sharedMutex` says that
the mutex around `sharedLanes` is held, `runLock` that the batch lock is. -/
structure PitScheduler where
  laneCount : ℕ
  nextExecutionId : ℕ
  runLock : Bool
  sharedMutex : Bool
  sharedLanes : List (Option ExecutionId)
  sharedActive : UInt64
  sharedWaiting : UInt64
  sharedPeak : UInt64
  createdAt : Instant
  busyNanos : UInt64
  deriving DecidableEq, Repr

namespace PitScheduler

/-- The scheduler built for a number of lanes. -/
def withLanes (laneCount : UInt64) (now : Instant) : PitScheduler where
  laneCount := laneCount.toNat
  nextExecutionId := 0
  runLock := false
  sharedMutex := false
  sharedLanes := List.replicate laneCount.toNat none
  sharedActive := 0
  sharedWaiting := 0
  sharedPeak := 0
  createdAt := now
  busyNanos := 0

/-- Creates a scheduler with exactly `laneCount` local execution lanes. -/
def new (laneCount : UInt64) (now : Instant) : Except String PitScheduler :=
  if laneCount = 0 then .error "execution lane count must be greater than zero"
  else .ok (withLanes laneCount now)

/-- The first free entry of the slot vector. -/
def freeLane (p : PitScheduler) : Option LaneId := p.sharedLanes.findIdx? Option.isNone

/-- The id the next `fetch_add` on the id counter returns. -/
def nextId (p : PitScheduler) : ExecutionId := UInt64.ofNat p.nextExecutionId

/-- `busy_nanos.fetch_add`, with the duration clamped to 64 bits. -/
def addBusy (p : PitScheduler) (duration : Duration) : PitScheduler :=
  { p with busyNanos := p.busyNanos + UInt64.ofNat (min duration (2 ^ 64 - 1)) }

theorem new_eq_ok {laneCount : UInt64} {now : Instant} {p : PitScheduler} :
    new laneCount now = .ok p ↔ laneCount ≠ 0 ∧ p = withLanes laneCount now := by
  unfold new
  split_ifs with h <;> simp [h, eq_comm]

theorem freeLane_some {p : PitScheduler} {l : LaneId} (h : p.freeLane = some l) :
    p.sharedLanes[l]? = some none := by
  obtain ⟨hl, hnone, _⟩ := List.findIdx?_eq_some_iff_getElem.mp h
  rw [List.getElem?_eq_getElem hl, Option.isNone_iff_eq_none.mp hnone]

theorem freeLane_none {p : PitScheduler} : p.freeLane = none ↔ Slots.free p.sharedLanes = 0 := by
  rw [Slots.free_eq_zero]
  simp [freeLane, List.findIdx?_eq_none_iff, Option.ne_none_iff_isSome]

@[simp] theorem addBusy_laneCount (p : PitScheduler) (d : Duration) :
    (p.addBusy d).laneCount = p.laneCount := rfl

@[simp] theorem addBusy_nextExecutionId (p : PitScheduler) (d : Duration) :
    (p.addBusy d).nextExecutionId = p.nextExecutionId := rfl

@[simp] theorem addBusy_runLock (p : PitScheduler) (d : Duration) :
    (p.addBusy d).runLock = p.runLock := rfl

@[simp] theorem addBusy_sharedMutex (p : PitScheduler) (d : Duration) :
    (p.addBusy d).sharedMutex = p.sharedMutex := rfl

@[simp] theorem addBusy_sharedLanes (p : PitScheduler) (d : Duration) :
    (p.addBusy d).sharedLanes = p.sharedLanes := rfl

@[simp] theorem addBusy_sharedActive (p : PitScheduler) (d : Duration) :
    (p.addBusy d).sharedActive = p.sharedActive := rfl

@[simp] theorem addBusy_sharedWaiting (p : PitScheduler) (d : Duration) :
    (p.addBusy d).sharedWaiting = p.sharedWaiting := rfl

end PitScheduler

end PitBox.Scheduler
