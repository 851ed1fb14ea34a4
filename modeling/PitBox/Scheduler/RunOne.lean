import PitBox.Foundations.Monitor
import PitBox.Scheduler.Types

/-!
# One call of the single-task API

`run_one_observed` as the sequence of its accesses to shared memory. A call
is born by the `fetch_add` on the id counter, and from then on its program
counter is a value of `RunOneObserved`: waiting for a lane, owning a lane,
giving the lane back, or over. The observer and the task belong to the caller;
each may return or unwind. `run_one` is the call whose observer does nothing.

Between the peak update and the task the source only reads the clock, so these
reads are one step with the call of the task.
-/

namespace PitBox.Scheduler

/-- What the environment decides in one step of a thread. -/
inductive Choice (T : Type) where
  | go
  | spurious
  | unwind
  | start (wall : SystemTime)
  | finish (outcome : Except String T)

def Choice.unwinds {T : Type} : Choice T → Bool
  | .unwind => true
  | _ => false

/-- The locals of a call that has its id. -/
structure Ticket where
  executionId : ExecutionId
  queuedAt : Instant
  deriving DecidableEq, Repr

/-- The locals of a call that has been given a lane. -/
structure Assignment extends Ticket where
  lane : LaneId
  assignedAt : Instant
  deriving DecidableEq, Repr

/-- The clock values read when the task is started. -/
structure TaskTimer where
  queuedFor : Duration
  taskStartedAt : Instant
  started : SystemTime
  timer : Instant
  deriving DecidableEq, Repr

/-- Before the lane: counting itself as waiting, taking the mutex, looking at
the slots, asleep on the condition variable, or woken and about to take the
mutex again. -/
inductive WaitStage where
  | numbered
  | locking
  | scanning
  | asleep
  | woken (notified : Bool)
  deriving DecidableEq, Repr

/-- With the lane, up to the moment its slot is cleared. -/
inductive OwnStage (T : Type) where
  | assigned
  | dequeued
  | observing
  | observed
  | activated (active : UInt64)
  | peaked
  | running (timer : TaskTimer)
  | ended (timer : TaskTimer) (duration : Duration) (outcome : Except String T)
  | reported (result : ExecutionResult T)
  | relocked (result : ExecutionResult T)

/-- After the slot is cleared, still under the mutex. -/
inductive ReleaseStage where
  | cleared
  | deactivated
  | notified
  deriving DecidableEq, Repr

/-- The program counter of a `run_one_observed` call. A call that unwinds
remembers whether it was counted as active. -/
inductive RunOneObserved (T : Type) where
  | waiting (ticket : Ticket) (stage : WaitStage)
  | owning (slot : Assignment) (stage : OwnStage T)
  | releasing (slot : Assignment) (result : ExecutionResult T) (stage : ReleaseStage)
  | returned (slot : Assignment) (result : ExecutionResult T)
  | unwound (slot : Assignment) (counted : Bool)

/-- The report of a single-task call. -/
def oneResult {T : Type} (slot : Assignment) (t : TaskTimer) (duration : Duration)
    (outcome : Except String T) : ExecutionResult T :=
  let (success, error, value) : Bool × Option String × Option T :=
    match outcome with
    | .ok value => (true, none, some value)
    | .error error => (false, some error, none)
  { report :=
      { executionId := slot.executionId
        laneId := slot.lane
        started := t.started
        queuedFor := t.queuedFor
        schedulingGap := t.taskStartedAt - slot.assignedAt
        duration
        success
        error }
    value }

namespace RunOneObserved

variable {T : Type}

/-- One step of a call on the shared memory. The `notify_one` of a call in
`deactivated` also moves another call, so it is a step of the whole system. -/
def step (now : Instant) (p : PitScheduler) :
    RunOneObserved T → Choice T → Option (PitScheduler × RunOneObserved T)
  | .waiting k .numbered, .go =>
    some ({ p with sharedWaiting := p.sharedWaiting + 1 }, .waiting k .locking)
  | .waiting k .locking, .go =>
    if p.sharedMutex then none
    else some ({ p with sharedMutex := true }, .waiting k .scanning)
  | .waiting k .scanning, .go =>
    match p.freeLane with
    | some lane =>
      some ({ p with sharedLanes := p.sharedLanes.set lane (some k.executionId) },
        .owning ⟨k, lane, now⟩ .assigned)
    | none => some ({ p with sharedMutex := false }, .waiting k .asleep)
  | .waiting k .asleep, .spurious => some (p, .waiting k (.woken false))
  | .waiting k (.woken _), .go =>
    if p.sharedMutex then none
    else some ({ p with sharedMutex := true }, .waiting k .scanning)
  | .owning k .assigned, .go =>
    some ({ p with sharedWaiting := p.sharedWaiting - 1 }, .owning k .dequeued)
  | .owning k .dequeued, .go => some ({ p with sharedMutex := false }, .owning k .observing)
  | .owning k .observing, .go => some (p, .owning k .observed)
  | .owning k .observing, .unwind => some (p, .unwound k false)
  | .owning k .observed, .go =>
    some ({ p with sharedActive := p.sharedActive + 1 },
      .owning k (.activated (p.sharedActive + 1)))
  | .owning k (.activated active), .go =>
    some ({ p with sharedPeak := max p.sharedPeak active }, .owning k .peaked)
  | .owning k .peaked, .start wall =>
    some (p, .owning k (.running ⟨now - k.queuedAt, now, wall, now⟩))
  | .owning k (.running t), .finish outcome =>
    some (p, .owning k (.ended t (now - t.timer) outcome))
  | .owning k (.running _), .unwind => some (p, .unwound k true)
  | .owning k (.ended t duration outcome), .go =>
    some (p.addBusy duration, .owning k (.reported (oneResult k t duration outcome)))
  | .owning k (.reported r), .go =>
    if p.sharedMutex then none
    else some ({ p with sharedMutex := true }, .owning k (.relocked r))
  | .owning k (.relocked r), .go =>
    some ({ p with sharedLanes := p.sharedLanes.set k.lane none }, .releasing k r .cleared)
  | .releasing k r .cleared, .go =>
    some ({ p with sharedActive := p.sharedActive - 1 }, .releasing k r .deactivated)
  | .releasing k r .notified, .go => some ({ p with sharedMutex := false }, .returned k r)
  | _, _ => none

/-- The slot a call has taken and not cleared; a call that unwinds never clears it. -/
def slot? : RunOneObserved T → Option LaneId
  | .owning k _ | .unwound k _ => some k.lane
  | _ => none

/-- The lane a call in progress owns. -/
def lane? : RunOneObserved T → Option LaneId
  | .owning k _ => some k.lane
  | _ => none

/-- The lane a call's task closure is executing on. -/
def executing? : RunOneObserved T → Option LaneId
  | .owning k (.running _) => some k.lane
  | _ => none

def executionId : RunOneObserved T → ExecutionId
  | .waiting k _ => k.executionId
  | .owning k _ | .releasing k _ _ | .returned k _ | .unwound k _ => k.executionId

def isOver : RunOneObserved T → Bool
  | .returned _ _ | .unwound _ _ => true
  | _ => false

def hasUnwound : RunOneObserved T → Bool
  | .unwound _ _ => true
  | _ => false

/-- The call holds the mutex of the slot vector. -/
def holdsMutex : RunOneObserved T → Bool
  | .waiting _ .scanning => true
  | .owning _ .assigned | .owning _ .dequeued | .owning _ (.relocked _) => true
  | .releasing _ _ _ => true
  | _ => false

/-- The call is counted in `shared_waiting`. -/
def counted : RunOneObserved T → Bool
  | .waiting _ .numbered => false
  | .waiting _ _ => true
  | .owning _ .assigned => true
  | _ => false

/-- The call is counted in `shared_active`. -/
def active : RunOneObserved T → Bool
  | .owning _ .assigned | .owning _ .dequeued => false
  | .owning _ .observing | .owning _ .observed => false
  | .owning _ _ => true
  | .releasing _ _ .cleared => true
  | .unwound _ counted => counted
  | _ => false

/-- Where the call stands with the pool of slots: blocked on the condition
variable, notified with the mutex not yet taken again, or under the mutex and
not done with it, looking for a slot or with a notification still to send. -/
def phase : RunOneObserved T → Foundations.Phase
  | .waiting _ .asleep => .asleep
  | .waiting _ (.woken true) => .notified
  | .waiting _ .scanning => .inside
  | .releasing _ _ .cleared | .releasing _ _ .deactivated => .inside
  | _ => .outside

def asleep (c : RunOneObserved T) : Bool := c.phase.isAsleep

def notified (c : RunOneObserved T) : Bool := c.phase.isNotified

end RunOneObserved

end PitBox.Scheduler
