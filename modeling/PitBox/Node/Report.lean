import PitBox.Runtime.Execution
import PitBox.Scheduler.EventLog

/-!
# The report of a node

`execute_many_with_cancellation` runs a batch whose tasks execute the prepared
artifact. Success is decided twice: by the classification given to the
scheduler, which counts and logs it, and by five filters over the statuses of
the executions the results are turned into. What makes the two agree is that
the error text of a result says whether it completed.
-/

namespace PitBox.Node

open PitBox.Runtime hiding Instant Duration
open PitBox.Scheduler PitBox.Table

/-- Public result of one node execution. -/
structure ExecutionResult where
  executionId : ExecutionId
  laneId : LaneId
  status : ExecutionStatus
  exitCode : Option Int32
  stdout : Bytes
  stderr : Bytes
  started : SystemTime
  queuedFor : Duration
  duration : Duration
  error : Option String

/-- Complete report for one node scheduling run. -/
structure NodeRunReport where
  artifactPath : String
  executionLanes : ℕ
  requested : ℕ
  completed : ℕ
  failed : ℕ
  timedOut : ℕ
  cancelled : ℕ
  memoryLimitExceeded : ℕ
  totalDuration : Duration
  peakActive : UInt64
  snapshot : SchedulerSnapshot
  events : List ExecutionEvent
  executions : List ExecutionResult

/-- The classification a node hands to its scheduler. -/
def classify (runtime : RuntimeExecutionResult) : Option String :=
  if runtime.status ≠ .completed then some (runtime.error.getD runtime.status.toString) else none

def executionResult (report : ExecutionReport) (runtime : RuntimeExecutionResult) :
    ExecutionResult where
  executionId := report.executionId
  laneId := report.laneId
  status := runtime.status
  exitCode := runtime.exitCode
  stdout := runtime.stdout
  stderr := runtime.stderr
  started := runtime.started
  queuedFor := report.queuedFor
  duration := report.duration
  error := runtime.error

/-- The execution of a scheduled result; one without a value is an error of the runtime. -/
def execution (scheduled : Scheduler.ExecutionResult RuntimeExecutionResult) : ExecutionResult :=
  let report := scheduled.report
  match scheduled.value with
  | some runtime => executionResult report runtime
  | none =>
    { executionId := report.executionId
      laneId := report.laneId
      status := .runtimeError
      exitCode := none
      stdout := []
      stderr := []
      started := report.started
      queuedFor := report.queuedFor
      duration := report.duration
      error := report.error }

/-- The statuses counted as failed. -/
def countsAsFailed : ExecutionStatus → Bool
  | .guestExitNonZero | .guestTrap | .memoryLimitExceeded | .runtimeError => true
  | .completed | .timedOut | .cancelled => false

section Call

variable {M C : Type} (prepared : PreparedArtifact M C)

def artifactPath : String :=
  match prepared.artifact.source with
  | .path path => path
  | .bytes _ => "<in-memory-artifact>"

/-- The report of a batch of `count` jobs. -/
def report (laneCount count : ℕ) (totalDuration : Duration)
    (run : SchedulerRun RuntimeExecutionResult) : NodeRunReport :=
  let executions := run.results.map execution
  { artifactPath := artifactPath prepared
    executionLanes := laneCount
    requested := count
    completed := executions.countP (·.status = .completed)
    failed := executions.countP (countsAsFailed ·.status)
    timedOut := executions.countP (·.status = .timedOut)
    cancelled := executions.countP (·.status = .cancelled)
    memoryLimitExceeded := executions.countP (·.status = .memoryLimitExceeded)
    totalDuration
    peakActive := run.snapshot.peakActive
    snapshot := run.snapshot
    events := run.events
    executions }

/-- `execute_many_with_cancellation`, given what the batch of its scheduler ended with. -/
def executeMany (request : ExecutionRequest) (laneCount count : ℕ) (totalDuration : Duration)
    (batch : Except String (SchedulerRun RuntimeExecutionResult)) :
    Except Error NodeRunReport := do
  request.validate
  if request.artifact.id ≠ prepared.artifact.id then
    .error ["execution request artifact '" ++ request.artifact.id ++
      "' does not match prepared artifact '" ++ prepared.artifact.id ++ "'"]
  match batch with
  | .ok run => return report prepared laneCount count totalDuration run
  | .error error => .error [error]

/-- The outcomes of the jobs of a request: an error, or a result that some
execution of the artifact has. -/
def JobOutcome (request : ExecutionRequest) (wasiPreview2Entrypoint : Text)
    (outcome : Except String RuntimeExecutionResult) : Prop :=
  ∀ runtime, outcome = .ok runtime →
    ∃ run, prepared.execute request run wasiPreview2Entrypoint = .ok runtime

end Call

/-! ### The two classifications -/

/-- A report that agrees with the batch it is made of. -/
structure NodeRunReport.Agrees (report : NodeRunReport) (count : ℕ) : Prop where
  requested : report.requested = count
  length : report.executions.length = count
  increasing : (report.executions.map (·.executionId)).Pairwise (· < ·)
  total : report.completed + report.failed + report.timedOut + report.cancelled = count
  memory : report.memoryLimitExceeded ≤ report.failed
  snapshot_completed : report.snapshot.completed.toNat = report.completed
  snapshot_failed : report.snapshot.failed.toNat =
    report.failed + report.timedOut + report.cancelled
  error_iff : ∀ e ∈ report.executions, e.error.isSome ↔ e.status ≠ .completed
  completed_event : ∀ e ∈ report.executions, e.status = .completed →
    report.events.filter (fun event => event.executionId == e.executionId && event.isTerminal) =
      [.completed e.executionId e.laneId e.duration]
  failed_event : ∀ e ∈ report.executions, e.status ≠ .completed → ∃ error, e.error = some error ∧
    report.events.filter (fun event => event.executionId == e.executionId && event.isTerminal) =
      [.failed e.executionId e.laneId e.duration error]
  known : ∀ event ∈ report.events, ∃ e ∈ report.executions, event.executionId = e.executionId

/-- A scheduled result whose success is the one of its execution, with the
error text the execution has. -/
structure Faithful (scheduled : Scheduler.ExecutionResult RuntimeExecutionResult) : Prop where
  success : scheduled.report.success = true ↔ (execution scheduled).status = .completed
  error : scheduled.report.error = (execution scheduled).error
  error_iff : (execution scheduled).error.isSome ↔ (execution scheduled).status ≠ .completed

/-- The terminal event an execution should have. -/
def ExecutionResult.terminalEvent (e : ExecutionResult) : ExecutionEvent :=
  match e.error with
  | none => .completed e.executionId e.laneId e.duration
  | some error => .failed e.executionId e.laneId e.duration error

theorem execution_executionId (scheduled : Scheduler.ExecutionResult RuntimeExecutionResult) :
    (execution scheduled).executionId = scheduled.id := by
  unfold execution
  cases scheduled.value <;> rfl

theorem execution_laneId (scheduled : Scheduler.ExecutionResult RuntimeExecutionResult) :
    (execution scheduled).laneId = scheduled.report.laneId := by
  unfold execution
  cases scheduled.value <;> rfl

theorem execution_duration (scheduled : Scheduler.ExecutionResult RuntimeExecutionResult) :
    (execution scheduled).duration = scheduled.report.duration := by
  unfold execution
  cases scheduled.value <;> rfl

theorem classify_of_consistent {runtime : RuntimeExecutionResult} (h : runtime.Consistent) :
    classify runtime = runtime.error := by
  unfold classify
  split_ifs with hstatus
  · obtain ⟨error, herror⟩ := Option.isSome_iff_exists.mp (h.mpr hstatus)
    rw [herror, Option.getD_some]
  · exact (Option.not_isSome_iff_eq_none.mp (mt h.mp hstatus)).symm

theorem faithful_of_reports {scheduled : Scheduler.ExecutionResult RuntimeExecutionResult}
    {task : TaskRun RuntimeExecutionResult}
    (hok : ∀ runtime, task.outcome = .ok runtime → scheduled.value = some runtime ∧
      scheduled.report.error = classify runtime ∧
        scheduled.report.success = (classify runtime).isNone)
    (herror : ∀ error, task.outcome = .error error → scheduled.value = none ∧
      scheduled.report.error = some error ∧ scheduled.report.success = false)
    (hconsistent : ∀ runtime, task.outcome = .ok runtime → runtime.Consistent) :
    Faithful scheduled := by
  cases houtcome : task.outcome with
  | error error =>
    obtain ⟨hvalue, hreport, hsuccess⟩ := herror error houtcome
    constructor <;> simp [execution, hvalue, hreport, hsuccess]
  | ok runtime =>
    obtain ⟨hvalue, hreport, hsuccess⟩ := hok runtime houtcome
    have h := hconsistent runtime houtcome
    rw [classify_of_consistent h] at hreport hsuccess
    have hexecution : execution scheduled = executionResult scheduled.report runtime := by
      simp only [execution, hvalue]
    constructor
    · rw [hsuccess, hexecution, Option.isNone_iff_eq_none, ← Option.not_isSome_iff_eq_none]
      exact (not_congr h).trans not_not
    · rw [hreport, hexecution]
      rfl
    · rw [hexecution]
      exact h

theorem countP_statuses (executions : List ExecutionResult) :
    executions.countP (·.status = .completed) + executions.countP (countsAsFailed ·.status) +
        executions.countP (·.status = .timedOut) + executions.countP (·.status = .cancelled) =
      executions.length := by
  induction executions with
  | nil => rfl
  | cons e executions ih =>
    have hone : (if decide (e.status = .completed) = true then 1 else 0) +
        (if countsAsFailed e.status = true then 1 else 0) +
        (if decide (e.status = .timedOut) = true then 1 else 0) +
        (if decide (e.status = .cancelled) = true then 1 else 0) = 1 := by
      cases e.status <;> rfl
    simp only [List.countP_cons, List.length_cons]
    omega

theorem countP_memoryLimitExceeded_le (executions : List ExecutionResult) :
    executions.countP (·.status = .memoryLimitExceeded) ≤
      executions.countP (countsAsFailed ·.status) := by
  apply List.countP_mono_left
  intro e _ he
  rw [of_decide_eq_true he]
  rfl

section Agreement

variable {M C : Type} (prepared : PreparedArtifact M C) {laneCount : ℕ} {count : UInt64}
  {run : SchedulerRun RuntimeExecutionResult}

theorem Faithful.terminalEvent_eq
    {scheduled : Scheduler.ExecutionResult RuntimeExecutionResult} (h : Faithful scheduled) :
    terminalEvent scheduled.report.laneId scheduled = (execution scheduled).terminalEvent := by
  rw [ExecutionResult.terminalEvent, execution_executionId, execution_laneId, execution_duration,
    terminalEvent, h.error]
  cases herror : (execution scheduled).error with
  | none =>
    have hcompleted : (execution scheduled).status = .completed := by
      by_contra hne
      simpa [herror] using h.error_iff.mpr hne
    rw [if_pos (h.success.mpr hcompleted)]
    rfl
  | some error =>
    have hne := h.error_iff.mp (herror ▸ rfl)
    rw [if_neg (mt h.success.mp hne)]
    rfl

/-- The report of a batch agrees with it when every result is faithful. -/
theorem report_agrees (totalDuration : Duration) {executionIds : List ExecutionId}
    (hlog : EventLog laneCount count executionIds run)
    (hcounts : run.snapshot.completed.toNat + run.snapshot.failed.toNat = count.toNat ∧
      run.snapshot.completed.toNat = run.results.countP (·.report.success))
    (hfaithful : ∀ r ∈ run.results, Faithful r) :
    (report prepared laneCount count.toNat totalDuration run).Agrees count.toNat := by
  have htotal := countP_statuses (run.results.map execution)
  have hcompleted : run.snapshot.completed.toNat =
      (run.results.map execution).countP (·.status = .completed) := by
    rw [hcounts.2, List.countP_map]
    apply List.countP_congr
    intro r hr
    simpa using (hfaithful r hr).success
  have hlength : (run.results.map execution).length = count.toNat := by
    rw [List.length_map, hlog.length]
  have hids : (run.results.map execution).map (·.executionId) = run.results.map (·.id) := by
    rw [List.map_map]
    exact List.map_congr_left fun r _ => execution_executionId r
  have hevents (r) (hr : r ∈ run.results) :
      run.events.filter (fun e => e.executionId == (execution r).executionId && e.isTerminal) =
        [(execution r).terminalEvent] := by
    rw [execution_executionId, ← (hfaithful r hr).terminalEvent_eq]
    exact hlog.terminal hr
  constructor
  · rfl
  · exact hlength
  · exact (congrArg (List.Pairwise (· < ·)) hids).mpr hlog.increasing
  · exact htotal.trans hlength
  · exact countP_memoryLimitExceeded_le _
  · exact hcompleted
  · change run.snapshot.failed.toNat =
      (run.results.map execution).countP (countsAsFailed ·.status) +
        (run.results.map execution).countP (·.status = .timedOut) +
          (run.results.map execution).countP (·.status = .cancelled)
    omega
  · intro e he
    obtain ⟨r, hr, rfl⟩ := List.mem_map.mp he
    exact (hfaithful r hr).error_iff
  · intro e he hstatus
    obtain ⟨r, hr, rfl⟩ := List.mem_map.mp he
    have herror : (execution r).error = none := by
      by_contra hne
      exact (hfaithful r hr).error_iff.mp (Option.ne_none_iff_isSome.mp hne) hstatus
    have hevent := hevents r hr
    rw [ExecutionResult.terminalEvent, herror] at hevent
    exact hevent
  · intro e he hstatus
    obtain ⟨r, hr, rfl⟩ := List.mem_map.mp he
    obtain ⟨error, herror⟩ :=
      Option.isSome_iff_exists.mp ((hfaithful r hr).error_iff.mpr hstatus)
    have hevent := hevents r hr
    rw [ExecutionResult.terminalEvent, herror] at hevent
    exact ⟨error, herror, hevent⟩
  · intro event hevent
    obtain ⟨r, hr, hid⟩ := hlog.known event hevent
    exact ⟨execution r, List.mem_map_of_mem hr, hid.trans (execution_executionId r).symm⟩

end Agreement

/-! ### Following a call -/

variable {M C : Type} {prepared : PreparedArtifact M C} {request : ExecutionRequest}
  {wasiPreview2Entrypoint : Text}

theorem executeMany_ok (hvalid : request.validate = .ok ())
    (hartifact : request.artifact.id = prepared.artifact.id) (laneCount count : ℕ)
    (totalDuration : Duration) (run : SchedulerRun RuntimeExecutionResult) :
    executeMany prepared request laneCount count totalDuration (.ok run) =
      .ok (report prepared laneCount count totalDuration run) := by
  unfold executeMany
  rw [hvalid, if_neg (not_not_intro hartifact)]
  rfl

theorem faithful_of_jobs {s₀ s : State RuntimeExecutionResult} {i : ℕ} {count : UInt64}
    {m : BatchMemory RuntimeExecutionResult} {run : SchedulerRun RuntimeExecutionResult}
    (honce : ExactlyOnce s₀ s i count classify m run)
    (hjobs : ∀ t ∈ m.ran, JobOutcome prepared request wasiPreview2Entrypoint t.outcome) :
    ∀ r ∈ run.results, Faithful r := by
  intro r hr
  obtain ⟨t, ht, -, -, hok, herror⟩ := honce.reported r hr
  refine faithful_of_reports hok herror fun runtime houtcome => ?_
  obtain ⟨command, hexecute⟩ := hjobs t ht runtime houtcome
  exact PreparedArtifact.execute_consistent hexecute

/-- A call of `execute_many_with_cancellation` for `count` executions, followed
through any run in which each of its tasks returns what an execution of the
prepared artifact can return: its batch returns, as any followed batch does,
and the report made of it agrees with the scheduler. The ids drawn are below
`2 ^ 64` while the calls on the scheduler have asked for fewer executions, see
`exec_nextExecutionId_le_asked`. -/
theorem executeMany_agrees {n count : UInt64} {now : Scheduler.Instant}
    {as₀ as : List (Action RuntimeExecutionResult)} {s₀ s : State RuntimeExecutionResult}
    (totalDuration : Duration) (hvalid : request.validate = .ok ())
    (hartifact : request.artifact.id = prepared.artifact.id) (hn : n ≠ 0) (hcount : count ≠ 0)
    (h₀ : State.exec (.fresh n now) as₀ = some s₀)
    (h : s₀.exec (.runManyClassified count classify :: as) = some s)
    (hids : s.scheduler.nextExecutionId < 2 ^ 64)
    (hreturn : ∀ a ∈ as, a.unwindsWorker s₀.batches.length = false)
    (hjobs : ∀ a ∈ as, a.ReturnsIn s₀.batches.length
      (JobOutcome prepared request wasiPreview2Entrypoint)) :
    tally (Action.ownedBy s₀.batches.length) as ≤ 23 * count.toNat + n.toNat + 5 ∧
      ∃ b, s.batches[s₀.batches.length]? = some b ∧
        ((∃ m run nodeReport, b.stage = .returned m run ∧
            executeMany prepared request n.toNat count.toNat totalDuration (.ok run) =
              .ok nodeReport ∧ nodeReport.Agrees count.toNat) ∨
          (b.holdsRunLock = true ∧ s.Ready s₀.batches.length) ∨
          (b.stage = .locking ∧ (s.Ready s₀.batches.length ∨
            ∃ j d, s.batches[j]? = some d ∧ d.holdsRunLock = true ∧ s.Ready j))) := by
  have hreach₀ : State.Reachable n now s₀ := ⟨as₀, h₀⟩
  have hreach : State.Reachable n now s := hreach₀.trans h
  obtain ⟨hsteps, b, hi, rfl, hclassify, hge, hstages⟩ :=
    State.exec_runManyClassified hcount hreach₀ h hreturn
  refine ⟨hsteps, b, hi, ?_⟩
  rcases hstages with ⟨m, run, hstage⟩ | hready | hlocking
  · have hmem := List.mem_of_getElem? hi
    have hlanes : 0 < n.toNat := Nat.pos_of_ne_zero fun h₀ => hn (UInt64.toNat_inj.mp h₀)
    have hfresh := hreach.idsFresh hids.le
    have hkept := hreach.batches_kept b hmem
    have hlogged := hreach.batches_logged b hmem
    have honce := State.exactlyOnce_of_returned (hreach.laneCount ▸ hlanes)
      (hreach₀.idsFresh ((State.exec_nextExecutionId_le h).trans hids.le)) hfresh hi hstage hkept
      (hge hids.le)
    rw [hreach.laneCount] at hkept hlogged
    have hlog := State.eventLog_of_returned hlanes hcount hstage (hfresh.increasing b hmem) hkept
      hlogged
    obtain ⟨c, hc, hran⟩ := State.exec_runMany_ran h hjobs
    obtain rfl := Option.some.inj (hi.symm.trans hc)
    rw [hstage] at hran
    rw [hclassify] at honce
    exact .inl ⟨m, run, _, hstage, executeMany_ok hvalid hartifact _ _ _ _,
      report_agrees prepared totalDuration hlog honce.outcomes
        (faithful_of_jobs honce hran)⟩
  · exact .inr (.inl hready)
  · exact .inr (.inr hlocking)

/-- A core module prepared from bytes. -/
def coreArtifact : PreparedArtifact Unit Unit where
  coreModule := some ()
  p1Linker := none
  component := none
  p2Linker := none
  httpPre := none
  httpComponent := none
  httpLinker := none
  artifact := ⟨"artifact", .bytes [], none⟩

def startRequest : ExecutionRequest where
  artifact := ⟨"artifact", .bytes [], none⟩
  entrypoint := "_start".toList
  args := []
  env := []
  limits := ⟨none, none⟩

/-- A guest that comes to an end. -/
def endingRun (outcome : Except GuestError (Except Unit Unit)) : CommandRun where
  instantiation := ⟨[], ⟨"", none⟩, .ok ()⟩
  typedFunc := .ok ()
  call := ⟨[], ⟨"", none⟩, outcome⟩
  stdout := []
  stderr := []
  started := 0
  now := 0
  duration := 0

/-- The result of a guest that completes, and of one that exits with code 3. -/
def completed : RuntimeExecutionResult :=
  PreparedArtifact.executeCore startRequest (endingRun (.ok (.ok ())))

def exited : RuntimeExecutionResult :=
  PreparedArtifact.executeCore startRequest (endingRun (.error ⟨"exited", some 3⟩))

/-- A call for three executions on two lanes, from after its batch is made to its
return: one completes, one exits, and one cannot be executed. -/
def exitingBatch : List (Action RuntimeExecutionResult) :=
  [List.replicate 13 (.batch 0), List.replicate 6 (.worker 0 0 .go),
    List.replicate 6 (.worker 0 1 .go),
    [.worker 0 0 (.start 0), .worker 0 1 (.start 0), .worker 0 1 (.finish (.ok exited))],
    List.replicate 12 (.worker 0 1 .go),
    [.worker 0 1 (.start 0), .worker 0 1 (.finish (.error "no engine")),
      .worker 0 0 (.finish (.ok completed))],
    List.replicate 7 (.worker 0 0 .go), List.replicate 7 (.worker 0 1 .go), [.batch 0]].flatten

theorem executeMany_agrees_exitingBatch :
    ∃ (s : State RuntimeExecutionResult) (b : RunManyClassified RuntimeExecutionResult)
      (m : BatchMemory RuntimeExecutionResult) (run : SchedulerRun RuntimeExecutionResult)
      (nodeReport : NodeRunReport),
      State.exec (.fresh 2 0) (.runManyClassified 3 classify :: exitingBatch) = some s ∧
        s.batches[0]? = some b ∧ b.stage = .returned m run ∧
          executeMany coreArtifact startRequest 2 3 0 (.ok run) = .ok nodeReport ∧
            nodeReport.Agrees 3 ∧ nodeReport.executions.map (fun e => (e.status, e.exitCode)) =
              [(.completed, some 0), (.guestExitNonZero, some 3), (.runtimeError, none)] := by
  have hjobs : ∀ a ∈ exitingBatch, a.ReturnsIn 0
      (JobOutcome coreArtifact startRequest []) := by
    intro a ha
    simp only [exitingBatch, List.flatten_cons, List.mem_append, List.mem_replicate,
      List.mem_cons, List.flatten_nil, List.not_mem_nil, or_false] at ha
    rcases ha with ⟨-, rfl⟩ | ⟨-, rfl⟩ | ⟨-, rfl⟩ | (rfl | rfl | rfl) | ⟨-, rfl⟩ |
      (rfl | rfl | rfl) | ⟨-, rfl⟩ | ⟨-, rfl⟩ | rfl
    case inr.inr.inr.inl.inr.inr =>
      rintro - runtime ⟨⟩
      exact ⟨_, rfl⟩
    case inr.inr.inr.inr.inr.inl.inr.inl =>
      rintro - runtime ⟨⟩
    case inr.inr.inr.inr.inr.inl.inr.inr =>
      rintro - runtime ⟨⟩
      exact ⟨_, rfl⟩
    all_goals trivial
  have hagrees := executeMany_agrees 0 (show startRequest.validate = .ok () from rfl)
    (show startRequest.artifact.id = coreArtifact.artifact.id from rfl)
    (show (2 : UInt64) ≠ 0 by decide) (show (3 : UInt64) ≠ 0 by decide)
    (show State.exec (.fresh 2 0) [] = some (.fresh 2 0) from rfl)
    (show State.exec (.fresh 2 0) (.runManyClassified 3 classify :: exitingBatch) = some _ from rfl)
    (by decide) (by decide) hjobs
  obtain ⟨-, b, hb, ⟨m, run, nodeReport, hstage, hreport, h⟩ | ⟨hholds, -⟩ | ⟨hstage, -⟩⟩ := hagrees
  · refine ⟨_, b, m, run, nodeReport, rfl, hb, hstage, hreport, h, ?_⟩
    cases hb
    cases hstage
    cases hreport
    rfl
  · cases hb
    cases hholds
  · cases hb
    cases hstage

end PitBox.Node
