import PitBox.Scheduler.RunOne

/-!
# One call of the batch API

`run_many_classified`: under the batch lock it draws its ids, stamps and
announces them, and runs one worker per lane; every worker takes work from a
shared cursor until the cursor passes the count. The memory of a batch is its
`RunState` with the locals its workers share, and two history lists that
record the calls of the task closure. A step of a worker is one access to
that memory or to the scheduler's.

The cursor is a natural number: `execution_ids` has `count` entries of eight
bytes each, so `count` plus one overshoot per lane stays far below `2^64`.
-/

namespace PitBox.Scheduler

/-- The counters, lane cells and event log of one batch. -/
structure RunState where
  queued : UInt64
  running : UInt64
  completed : UInt64
  failed : UInt64
  peakActive : UInt64
  lanes : List LaneState
  events : List ExecutionEvent
  deriving DecidableEq, Repr

namespace RunState

def new (laneCount : ℕ) (queued : UInt64) : RunState where
  queued
  running := 0
  completed := 0
  failed := 0
  peakActive := 0
  lanes := List.replicate laneCount .free
  events := []

def pushEvent (s : RunState) (event : ExecutionEvent) : RunState :=
  { s with events := s.events ++ [event] }

def setLane (s : RunState) (laneId : LaneId) (state : LaneState) : RunState :=
  { s with lanes := s.lanes.set laneId state }

def snapshot (s : RunState) (laneCount : ℕ) : SchedulerSnapshot where
  laneCount
  running := s.running
  queued := s.queued
  completed := s.completed
  failed := s.failed
  peakActive := s.peakActive
  lanes := s.lanes

end RunState

/-- One finished call of the task closure. -/
structure TaskRun (T : Type) where
  executionId : ExecutionId
  laneId : LaneId
  outcome : Except String T

/-- What the workers of a batch share. `begun` and `ran` are history: the calls
of the task closure, and those that returned with what they returned. -/
structure BatchMemory (T : Type) where
  state : RunState
  executionIds : List ExecutionId
  queuedAt : List Instant
  nextExecution : ℕ
  results : List (ExecutionResult T)
  begun : List (ExecutionId × LaneId)
  ran : List (TaskRun T)

/-- `next_execution.fetch_add(1)`. -/
def BatchMemory.claim {T : Type} (m : BatchMemory T) : BatchMemory T :=
  { m with nextExecution := m.nextExecution + 1 }

/-- The locals of a worker that has taken an entry of the queue. -/
structure Job where
  workIndex : ℕ
  executionId : ExecutionId
  assignedAt : Instant
  deriving DecidableEq, Repr

/-- The program counter of one worker. -/
inductive LaneWorker (T : Type) where
  | claiming
  | claimed (workIndex : ℕ) (executionId : ExecutionId)
  | dequeued (job : Job)
  | marked (job : Job)
  | activated (job : Job) (active : UInt64)
  | peaked (job : Job)
  | announced (job : Job) (queuedFor : Duration)
  | executing (job : Job) (timer : TaskTimer)
  | ended (job : Job) (timer : TaskTimer) (duration : Duration) (outcome : Except String T)
  | classified (result : ExecutionResult T)
  | tallied (result : ExecutionResult T)
  | logged (result : ExecutionResult T)
  | quieted (result : ExecutionResult T)
  | freed (result : ExecutionResult T)
  | exited
  | unwound (job : Job) (ended : Bool)

/-- The outcome of a task after classification. -/
def classifyOutcome {T : Type} (classify : T → Option String) :
    Except String T → Bool × Option String × Option T
  | .ok value =>
    match classify value with
    | some error => (false, some error, some value)
    | none => (true, none, some value)
  | .error error => (false, some error, none)

/-- The report of a batch execution. -/
def manyResult {T : Type} (classify : T → Option String) (lane : LaneId) (job : Job)
    (t : TaskTimer) (duration : Duration) (outcome : Except String T) : ExecutionResult T :=
  let (success, error, value) := classifyOutcome classify outcome
  { report :=
      { executionId := job.executionId
        laneId := lane
        started := t.started
        queuedFor := t.queuedFor
        schedulingGap := t.taskStartedAt - job.assignedAt
        duration
        success
        error }
    value }

/-- The terminal event of a result. -/
def terminalEvent {T : Type} (lane : LaneId) (r : ExecutionResult T) : ExecutionEvent :=
  if r.report.success then .completed r.report.executionId lane r.report.duration
  else .failed r.report.executionId lane r.report.duration
    (r.report.error.getD "unknown error")

namespace LaneWorker

variable {T : Type}

/-- One step of the worker of `lane` in a batch of `count` jobs. -/
def step (now : Instant) (count : ℕ) (classify : T → Option String) (lane : LaneId)
    (p : PitScheduler) (m : BatchMemory T) :
    LaneWorker T → Choice T → Option (PitScheduler × BatchMemory T × LaneWorker T)
  | .claiming, .go =>
    if count ≤ m.nextExecution then some (p, m.claim, .exited)
    else
      match m.executionIds[m.nextExecution]? with
      | some id => some (p, m.claim, .claimed m.nextExecution id)
      | none => none
  | .claimed workIndex id, .go =>
    some (p, { m with state := { m.state with queued := m.state.queued - 1 } },
      .dequeued ⟨workIndex, id, now⟩)
  | .dequeued j, .go =>
    some (p, { m with state := m.state.setLane lane (.running j.executionId) }, .marked j)
  | .marked j, .go =>
    some (p, { m with state := { m.state with running := m.state.running + 1 } },
      .activated j (m.state.running + 1))
  | .activated j active, .go =>
    some (p, { m with state := { m.state with peakActive := max m.state.peakActive active } },
      .peaked j)
  | .peaked j, .go =>
    let queuedFor := now - m.queuedAt.getD j.workIndex now
    some (p, { m with state := m.state.pushEvent (.started j.executionId lane queuedFor) },
      .announced j queuedFor)
  | .announced j queuedFor, .start wall =>
    some (p, { m with begun := m.begun ++ [(j.executionId, lane)] },
      .executing j ⟨queuedFor, now, wall, now⟩)
  | .executing j t, .finish outcome =>
    some (p, { m with ran := m.ran ++ [⟨j.executionId, lane, outcome⟩] },
      .ended j t (now - t.timer) outcome)
  | .executing j _, .unwind => some (p, m, .unwound j false)
  | .ended j t duration outcome, .go =>
    some (p.addBusy duration, m, .classified (manyResult classify lane j t duration outcome))
  | .ended j _ _ _, .unwind => some (p, m, .unwound j true)
  | .classified r, .go =>
    if r.report.success then
      some (p, { m with state := { m.state with completed := m.state.completed + 1 } }, .tallied r)
    else
      some (p, { m with state := { m.state with failed := m.state.failed + 1 } }, .tallied r)
  | .tallied r, .go =>
    some (p, { m with state := m.state.pushEvent (terminalEvent lane r) }, .logged r)
  | .logged r, .go =>
    some (p, { m with state := { m.state with running := m.state.running - 1 } }, .quieted r)
  | .quieted r, .go => some (p, { m with state := m.state.setLane lane .free }, .freed r)
  | .freed r, .go => some (p, { m with results := m.results ++ [r] }, .claiming)
  | _, _ => none

/-- The id of the job a worker has taken and not delivered a result for. -/
def job? : LaneWorker T → Option ExecutionId
  | .claimed _ id => some id
  | .dequeued j | .marked j | .activated j _ | .peaked j | .announced j _ => some j.executionId
  | .executing j _ | .ended j _ _ _ | .unwound j _ => some j.executionId
  | .classified r | .tallied r | .logged r | .quieted r | .freed r => some r.report.executionId
  | .claiming | .exited => none

/-- The id of the job a worker has taken and not called the task for. -/
def unbegun? : LaneWorker T → Option ExecutionId
  | .claimed _ id => some id
  | .dequeued j | .marked j | .activated j _ | .peaked j | .announced j _ => some j.executionId
  | _ => none

def unended? : LaneWorker T → Option ExecutionId
  | .executing j _ | .unwound j false => some j.executionId
  | w => w.unbegun?

def queued : LaneWorker T → Bool
  | .claimed _ _ => true
  | _ => false

/-- The worker is counted as running. -/
def running : LaneWorker T → Bool
  | .activated _ _ | .peaked _ | .announced _ _ | .executing _ _ | .ended _ _ _ _ => true
  | .classified _ | .tallied _ | .logged _ | .unwound _ _ => true
  | _ => false

def tallied? : LaneWorker T → Option Bool
  | .tallied r | .logged r | .quieted r | .freed r => some r.report.success
  | _ => none

/-- What the cell of the worker's lane shows. -/
def laneState : LaneWorker T → LaneState
  | .marked j | .activated j _ | .peaked j | .announced j _ => .running j.executionId
  | .executing j _ | .ended j _ _ _ | .unwound j _ => .running j.executionId
  | .classified r | .tallied r | .logged r | .quieted r => .running r.report.executionId
  | _ => .free

/-- The worker has taken a job whose task has not ended. -/
def busy : LaneWorker T → Bool
  | .claimed _ _ => true
  | .dequeued _ | .marked _ | .activated _ _ | .peaked _ | .announced _ _ => true
  | .executing _ _ => true
  | _ => false

def executing? : LaneWorker T → Bool
  | .executing _ _ => true
  | _ => false

def isDone : LaneWorker T → Bool
  | .exited | .unwound _ _ => true
  | _ => false

def hasUnwound : LaneWorker T → Bool
  | .unwound _ _ => true
  | _ => false

end LaneWorker

/-- Where the thread of a batch call is. -/
inductive BatchStage (T : Type) where
  | locking
  | numbering (memory : BatchMemory T)
  | stamping (memory : BatchMemory T)
  | announcing (memory : BatchMemory T)
  | working (memory : BatchMemory T) (workers : List (LaneWorker T))
  | returned (memory : BatchMemory T) (run : SchedulerRun T)
  | rejected (error : String)
  | unwound (memory : BatchMemory T)

namespace BatchStage

variable {T : Type}

def sortResults (results : List (ExecutionResult T)) : List (ExecutionResult T) :=
  results.insertionSort fun a b => a.report.executionId ≤ b.report.executionId

/-- What the batch returns once every worker has left its loop. By then the
workers' handles on the shared memory are gone, so both `try_unwrap` succeed. -/
def collect (laneCount : ℕ) (m : BatchMemory T) : SchedulerRun T where
  results := sortResults m.results
  events := m.state.events
  snapshot := m.state.snapshot laneCount

/-- One step of the thread that made the call, for a batch of `count` jobs. -/
def step (now : Instant) (count : UInt64) (p : PitScheduler) :
    BatchStage T → Option (PitScheduler × BatchStage T)
  | .locking =>
    if p.runLock then none
    else some ({ p with runLock := true },
      .numbering ⟨RunState.new p.laneCount count, [], [], 0, [], [], []⟩)
  | .numbering m =>
    if m.executionIds.length < count.toNat then
      some ({ p with nextExecutionId := p.nextExecutionId + 1 },
        .numbering { m with executionIds := m.executionIds ++ [p.nextId] })
    else some (p, .stamping m)
  | .stamping m =>
    if m.queuedAt.length < count.toNat then
      some (p, .stamping { m with queuedAt := m.queuedAt ++ [now] })
    else some (p, .announcing m)
  | .announcing m =>
    match m.executionIds[m.state.events.length]? with
    | some executionId =>
      some (p, .announcing { m with state := m.state.pushEvent (.queued executionId) })
    | none => some (p, .working m (List.replicate p.laneCount .claiming))
  | .working m workers =>
    if workers.all LaneWorker.isDone then
      if workers.any LaneWorker.hasUnwound then some ({ p with runLock := false }, .unwound m)
      else some ({ p with runLock := false }, .returned m (collect p.laneCount m))
    else none
  | _ => none

/-- One step of the worker of lane `w`. -/
def workerStep (now : Instant) (count : UInt64) (classify : T → Option String)
    (p : PitScheduler) (w : ℕ) (e : Choice T) :
    BatchStage T → Option (PitScheduler × BatchStage T)
  | .working m workers =>
    (workers[w]?).bind fun worker =>
      (worker.step now count.toNat classify w p m e).map fun (p, m, worker) =>
        (p, .working m (workers.set w worker))
  | _ => none

/-- The ids drawn by the batch so far. -/
def executionIds : BatchStage T → List ExecutionId
  | .numbering m | .stamping m | .announcing m | .working m _ => m.executionIds
  | .returned m _ | .unwound m => m.executionIds
  | .locking | .rejected _ => []

def workers : BatchStage T → List (LaneWorker T)
  | .working _ workers => workers
  | _ => []

def holdsRunLock : BatchStage T → Bool
  | .numbering _ | .stamping _ | .announcing _ | .working _ _ => true
  | _ => false

end BatchStage

/-- A `run_many_classified` call. -/
structure RunManyClassified (T : Type) where
  count : UInt64
  classify : T → Option String
  stage : BatchStage T

namespace RunManyClassified

variable {T : Type}

/-- A batch of no jobs is refused before it takes the lock. -/
def enter (count : UInt64) (classify : T → Option String) : RunManyClassified T where
  count
  classify
  stage := if count = 0 then .rejected "execution count must be greater than zero" else .locking

def step (now : Instant) (p : PitScheduler) (b : RunManyClassified T) :
    Option (PitScheduler × RunManyClassified T) :=
  (b.stage.step now b.count p).map fun (p, stage) => (p, { b with stage })

def workerStep (now : Instant) (p : PitScheduler) (b : RunManyClassified T) (w : ℕ)
    (e : Choice T) : Option (PitScheduler × RunManyClassified T) :=
  (b.stage.workerStep now b.count b.classify p w e).map fun (p, stage) => (p, { b with stage })

def holdsRunLock (b : RunManyClassified T) : Bool := b.stage.holdsRunLock

/-- The worker of lane `l` has taken a job whose task has not ended. -/
def busyOn (b : RunManyClassified T) (l : LaneId) : Bool := b.stage.workers[l]?.any LaneWorker.busy

end RunManyClassified

end PitBox.Scheduler
