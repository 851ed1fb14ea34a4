import PitBox.Garage.Fleet
import PitBox.Scheduler.System

/-!
# Garages on their schedulers

A fleet in which every Garage has the scheduler of its dispatcher. The blocking
task of a call looks its artifact up, queues with the scheduler for a lane as
one `run_one` call, runs its guest there, and brings back what the scheduler
reports. The threads of all Garages take their steps in any order, down to the
single accesses to the slots, the mutex, the condition variable and the counters
of each scheduler.
-/

namespace PitBox.Garage

open PitBox.Runtime
open PitBox.Scheduler (ExecutionId RunOneObserved)

/-- An execution id as it is displayed: counted from one, four digits at least. -/
def executionIdText (id : ExecutionId) : String :=
  let digits := Nat.toDigits 10 (id + 1).toNat
  String.ofList (List.replicate (4 - digits.length) '0' ++ digits)

def micros (duration : Scheduler.Duration) : ℕ := duration / 1000

/-- What a task reads from clocks of its own: the time of its lookup, and how long
after the scheduler has read `queued_for` the closure reads its clock. -/
structure TaskClocks where
  preparedLookup : Scheduler.Duration
  guestDelay : Scheduler.Duration
  deriving DecidableEq, Repr

/-- What `execute_http_with_invoker` returns for a report of the scheduler. -/
def dispatchResult (requestReceived : Scheduler.Instant) (clocks : TaskClocks)
    (slot : Scheduler.Assignment) (scheduled : Scheduler.ExecutionResult HttpResponse) :
    HttpDispatchResult where
  executionId := executionIdText scheduled.report.executionId
  laneId := scheduled.report.laneId
  response := scheduled.value
  error := scheduled.report.error
  queuedFor := micros scheduled.report.queuedFor
  duration := micros scheduled.report.duration
  guestStartedAfterRequest :=
    micros (slot.queuedAt + scheduled.report.queuedFor + clocks.guestDelay - requestReceived)
  preparedLookup := micros clocks.preparedLookup

def unknownArtifact (key : Digest) : String := "unknown prepared HTTP artifact '" ++ key ++ "'"

/-- How far the blocking task of a call has come: not begun, begun, its artifact
found, queued as a call of the scheduler, or ended for want of the artifact. -/
inductive TaskStage where
  | spawned
  | received (requestReceived : Scheduler.Instant)
  | found (requestReceived : Scheduler.Instant) (preparedLookup : Scheduler.Duration)
  | submitted (requestReceived : Scheduler.Instant) (clocks : TaskClocks) (job : ℕ)
  | missed
  deriving DecidableEq, Repr

def TaskStage.job? : TaskStage → Option ℕ
  | .submitted _ _ job => some job
  | _ => none

/-- What a guest does on its lane. -/
inductive Activity where
  | computing
  | calling (logical : LogicalInvocationRequest)
  | forwarded (garage call : ℕ)
  deriving DecidableEq, Repr

/-- The blocking task of a call, with its guest. -/
structure DispatchTask where
  garage : ℕ
  call : ℕ
  payload : RemotePayload
  stage : TaskStage
  activity : Activity

/-- A Garage with the scheduler of its dispatcher. -/
structure Process where
  garage : State
  maxInvocationDepth : ℕ
  grants : List PaddockGrant
  scheduler : Scheduler.State HttpResponse

structure Cluster where
  processes : List Process
  tasks : List DispatchTask

/-- The steps of a cluster. Those of a scheduler that do not concern a guest are
labelled by themselves. A task queues with the delay its clock will show. -/
inductive ClusterAction where
  | arrive (g : ℕ) (request : RemoteExecutionRequest)
  | garage (g i : ℕ) (choice : Choice)
  | dispatch (g i : ℕ) (payload : RemotePayload)
  | receive (e : ℕ)
  | lookUp (e : ℕ)
  | submit (e : ℕ) (guestDelay : Scheduler.Duration)
  | scheduler (g : ℕ) (a : Scheduler.Action HttpResponse)
  | nested (e : ℕ) (nestedCall : HttpHostState.NestedCall) (requestId : String)
  | forward (e g : ℕ) (request : RemoteExecutionRequest)
  | reject (e : ℕ)
  | answer (e : ℕ)
  | finish (e : ℕ) (outcome : Except String HttpResponse)
  | unwind (e : ℕ)
  | settle (e : ℕ)
  | panicked (e : ℕ) (error : String)

/-- The task whose step it is. -/
def ClusterAction.task? : ClusterAction → Option ℕ
  | .receive e | .lookUp e | .submit e _ | .nested e _ _ | .forward e _ _ | .reject e | .answer e
  | .finish e _ | .unwind e | .settle e | .panicked e _ => some e
  | _ => none

/-- The clock, and the steps of a `run_one` call outside its task. Its observer
does nothing. -/
def isSchedulerStep : Scheduler.Action HttpResponse → Bool
  | .tick _ | .call _ .go | .call _ .spurious | .call _ (.start _) | .notifyOne _ _ => true
  | _ => false

namespace Cluster

variable (ids : GarageIds) (library : ServiceLibrary) (sha256 : Bytes → Sha256)

/-- Garages nobody has used, given by their agents and their numbers of lanes. -/
def fresh (garages : List (GarageAgent × UInt64)) (maxInvocationDepth : ℕ)
    (now : Scheduler.Instant) : Cluster where
  processes := garages.map fun (agent, laneCount) =>
    ⟨.initial agent, maxInvocationDepth, [], .fresh laneCount now⟩
  tasks := []

/-- Call `i` of Garage `g`. -/
def call? (c : Cluster) (g i : ℕ) : Option Execute :=
  (c.processes[g]?).bind fun p => p.garage.calls[i]?

/-- Call `job` of the scheduler of Garage `g`. -/
def jobAt (c : Cluster) (g job : ℕ) : Option (RunOneObserved HttpResponse) :=
  (c.processes[g]?).bind fun p => p.scheduler.calls[job]?

def job? (c : Cluster) (task : DispatchTask) : Option (RunOneObserved HttpResponse) :=
  task.stage.job?.bind (c.jobAt task.garage)

def setProcess (c : Cluster) (g : ℕ) (p : Process) : Cluster :=
  { c with processes := c.processes.set g p }

def setTask (c : Cluster) (e : ℕ) (task : DispatchTask) : Cluster :=
  { c with tasks := c.tasks.set e task }

def stepGarage (c : Cluster) (g : ℕ) (a : Action) : Option Cluster :=
  (c.processes[g]?).bind fun p => (p.garage.step a).map fun garage =>
    c.setProcess g { p with garage }

def stepScheduler (c : Cluster) (g : ℕ) (a : Scheduler.Action HttpResponse) : Option Cluster :=
  (c.processes[g]?).bind fun p => (p.scheduler.step a).map fun scheduler =>
    c.setProcess g { p with scheduler }

def endTask (c : Cluster) (task : DispatchTask)
    (outcome : Except String (Except String HttpDispatchResult)) : Option Cluster :=
  c.stepGarage task.garage (.call task.call (.dispatchEnds outcome))

/-- The execution of a guest, as its Garage sees it. -/
def execution (p : Process) (call : Execute) (task : DispatchTask) (id : ExecutionId) :
    GuestExecution where
  garage := p.garage.agent
  maxInvocationDepth := p.maxInvocationDepth
  grants := p.grants
  request := call.request
  payload := task.payload
  executionId := executionIdText id

/-- The steps of a blocking task and of its guest. -/
def stepTask (c : Cluster) (e : ℕ) (task : DispatchTask) (p : Process) :
    ClusterAction → Option Cluster
  | .receive _ =>
    match task.stage with
    | .spawned => some (c.setTask e { task with stage := .received p.scheduler.now })
    | _ => none
  | .lookUp _ =>
    match task.stage, p.garage.calls[task.call]? with
    | .received at₀, some call =>
      if call.digest ∈ p.garage.agent.prepared then
        some (c.setTask e { task with stage := .found at₀ (p.scheduler.now - at₀) })
      else
        (c.endTask task (.ok (.error (unknownArtifact call.digest)))).map fun c =>
          c.setTask e { task with stage := .missed }
    | _, _ => none
  | .submit _ guestDelay =>
    match task.stage with
    | .found at₀ lookup =>
      (c.stepScheduler task.garage .runOneObserved).map fun c =>
        c.setTask e
          { task with stage := .submitted at₀ ⟨lookup, guestDelay⟩ p.scheduler.calls.length }
    | _ => none
  | .nested _ nestedCall requestId =>
    match task.activity, c.job? task with
    | .computing, some (.owning slot (.running _)) =>
      (p.garage.calls[task.call]?).bind fun call =>
        ((execution p call task slot.executionId).nested ids library sha256 nestedCall
          requestId).map fun logical => c.setTask e { task with activity := .calling logical }
    | _, _ => none
  | .forward _ g request =>
    match task.activity, c.processes[g]? with
    | .calling logical, some q =>
      if request.invocationDepth = logical.invocationDepth ∧
          request.visitedGarages = logical.visitedGarages ∧
          q.garage.agent.id ∉ logical.visitedGarages then
        (c.stepGarage g (.arrive request)).map fun c =>
          c.setTask e { task with activity := .forwarded g q.garage.calls.length }
      else none
    | _, _ => none
  | .reject _ =>
    match task.activity with
    | .calling _ => some (c.setTask e { task with activity := .computing })
    | _ => none
  | .answer _ =>
    match task.activity with
    | .forwarded g i =>
      match c.call? g i with
      | some call =>
        if call.stage.isOver then some (c.setTask e { task with activity := .computing }) else none
      | none => none
    | _ => none
  | .finish _ outcome =>
    match task.activity, task.stage with
    | .computing, .submitted _ _ job => c.stepScheduler task.garage (.call job (.finish outcome))
    | _, _ => none
  | .unwind _ =>
    match task.activity, task.stage, c.job? task with
    | .computing, .submitted _ _ job, some (.owning _ (.running _)) =>
      c.stepScheduler task.garage (.call job .unwind)
    | _, _, _ => none
  | .settle _ =>
    match task.stage, c.job? task with
    | .submitted at₀ clocks _, some (.returned slot scheduled) =>
      c.endTask task (.ok (.ok (dispatchResult at₀ clocks slot scheduled)))
    | _, _ => none
  | .panicked _ error =>
    match c.job? task with
    | some (.unwound _ _) => c.endTask task (.error error)
    | _ => none
  | _ => none

/-- One step of the cluster. -/
def step (c : Cluster) (a : ClusterAction) : Option Cluster :=
  match a with
  | .arrive g request => c.stepGarage g (.arrive request)
  | .garage g i choice =>
    match c.call? g i with
    | some call =>
      if call.stage.isWarm || choice.isDispatchEnds then none else c.stepGarage g (.call i choice)
    | none => none
  | .dispatch g i payload =>
    match c.call? g i with
    | some call =>
      if call.stage.isWarm then
        (c.stepGarage g (.call i .go)).map fun c =>
          { c with tasks := c.tasks ++ [⟨g, i, payload, .spawned, .computing⟩] }
      else none
    | none => none
  | .scheduler g a => if isSchedulerStep a then c.stepScheduler g a else none
  | _ =>
    match a.task? with
    | some e =>
      match c.tasks[e]? with
      | some task =>
        match c.processes[task.garage]? with
        | some p => c.stepTask ids library sha256 e task p a
        | none => none
      | none => none
    | none => none

abbrev exec (c : Cluster) (as : List ClusterAction) : Option Cluster :=
  Transition.exec (step ids library sha256) c as

end Cluster

end PitBox.Garage
