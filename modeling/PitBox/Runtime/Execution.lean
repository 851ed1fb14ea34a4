import PitBox.Runtime.Control
import PitBox.Runtime.Prepare

/-!
# Executing a core module or a command component

`execute` checks its request and enters the guest twice, for the instantiation
and for the entrypoint. Whatever happens in the guest becomes a result: the
signal of the control comes first, the flag of the limiter second, and only
then what the guest did. The fields of the artifact that `execute` unwraps are
taken to be there, and the deadline to be an instant.
-/

namespace PitBox.Runtime

/-- Structured result status for a guest invocation. -/
inductive ExecutionStatus where
  | completed
  | guestExitNonZero
  | guestTrap
  | timedOut
  | cancelled
  | memoryLimitExceeded
  | runtimeError
  deriving DecidableEq, Repr

def ExecutionStatus.toString : ExecutionStatus → String
  | .completed => "Completed"
  | .guestExitNonZero => "GuestExitNonZero"
  | .guestTrap => "GuestTrap"
  | .timedOut => "TimedOut"
  | .cancelled => "Cancelled"
  | .memoryLimitExceeded => "MemoryLimitExceeded"
  | .runtimeError => "RuntimeError"

/-- Explicit input contract for one WASI execution. -/
structure ExecutionRequest where
  artifact : WasmArtifact
  entrypoint : Text
  args : List Text
  env : List (Text × Text)
  limits : ExecutionLimits
  deriving DecidableEq, Repr

def validateEnvEntry (key value : Text) : Except Error Unit :=
  if key = [] then .error ["environment variable name must not be empty"]
  else if '=' ∈ key then
    .error ["environment variable name must not contain '=': " ++ String.ofList key]
  else if '\x00' ∈ key ∨ '\x00' ∈ value then
    .error ["environment variable entries must not contain NUL bytes"]
  else .ok ()

/-- The first argument with a NUL byte, by its index. -/
def ExecutionRequest.validateArgs : ℕ → List Text → Except Error Unit
  | _, [] => .ok ()
  | index, arg :: args =>
    if '\x00' ∈ arg then .error [s!"argument {index} contains a NUL byte"]
    else validateArgs (index + 1) args

def ExecutionRequest.validate (request : ExecutionRequest) : Except Error Unit := do
  if request.entrypoint = [] ∨ '\x00' ∈ request.entrypoint then
    .error ["entrypoint must be a non-empty string without NUL bytes"]
  ExecutionRequest.validateArgs 0 request.args
  request.env.forM fun entry => validateEnvEntry entry.1 entry.2

/-- Runtime-level result before scheduler identity is attached. -/
structure RuntimeExecutionResult where
  status : ExecutionStatus
  exitCode : Option Int32
  stdout : Bytes
  stderr : Bytes
  duration : Duration
  started : ℕ
  error : Option String

/-- An error of a call into the guest, and the exit code in its chain. -/
structure GuestError where
  text : String
  exitCode : Option Int32

/-- What a guest and the clocks of its host do in one execution of an artifact. -/
structure CommandRun where
  instantiation : GuestCall GuestError Unit
  /-- Looking up the entrypoint of a core module. -/
  typedFunc : Except GuestError Unit
  /-- A component may return an error of its own. -/
  call : GuestCall GuestError (Except Unit Unit)
  stdout : Bytes
  stderr : Bytes
  started : ℕ
  now : Instant
  duration : Duration

/-- The status of an execution that could not call its guest. -/
def statusForError (store : GuestStore) : ExecutionStatus :=
  match store.control.signal with
  | .timedOut => .timedOut
  | .cancelled => .cancelled
  | .none => if store.limits.memoryExceeded then .memoryLimitExceeded else .runtimeError

namespace CommandRun

variable (run : CommandRun)

def result (status : ExecutionStatus) (exitCode : Option Int32) (error : Option String) :
    RuntimeExecutionResult where
  status
  exitCode
  stdout := run.stdout
  stderr := run.stderr
  duration := run.duration
  started := run.started
  error

/-- The result of an error of the guest: an exit code in its chain makes it an exit. -/
def errorResult (error : GuestError) : RuntimeExecutionResult :=
  match error.exitCode with
  | some exitCode =>
    run.result (if exitCode = 0 then .completed else .guestExitNonZero) (some exitCode)
      (if exitCode ≠ 0 then some error.text else none)
  | none => run.result .guestTrap none (some error.text)

/-- The result once the guest has been called. -/
def callResult (store : GuestStore) (outcome : Except GuestError (Except Unit Unit)) :
    RuntimeExecutionResult :=
  match store.control.signal with
  | .timedOut => run.result .timedOut none (some "execution exceeded its timeout")
  | .cancelled => run.result .cancelled none (some "execution was cancelled")
  | .none =>
    if store.limits.memoryExceeded then
      run.result .memoryLimitExceeded none (some "execution exceeded its memory limit")
    else
      match outcome with
      | .ok (.ok ()) => run.result .completed (some 0) none
      | .ok (.error ()) =>
        run.result .guestExitNonZero (some 1) (some "guest exited with a non-zero status")
      | .error error => run.errorResult error

end CommandRun

namespace PreparedArtifact

variable {M C : Type} (prepared : PreparedArtifact M C) (request : ExecutionRequest)
  (run : CommandRun)

/-- The execution of a component. -/
def executeP2 : RuntimeExecutionResult :=
  match (GuestStore.new request.limits run.now).enter run.instantiation with
  | (store, .error error) => run.result (statusForError store) none (some error.text)
  | (store, .ok ()) =>
    let (store, outcome) := store.enter run.call
    run.callResult store outcome

/-- The execution of a core module, whose entrypoint returns nothing. -/
def executeCore : RuntimeExecutionResult :=
  match (GuestStore.new request.limits run.now).enter run.instantiation with
  | (store, .error error) => run.result (statusForError store) none (some error.text)
  | (store, .ok ()) =>
    match run.typedFunc with
    | .error error => run.result (statusForError store) none (some error.text)
    | .ok () =>
      let (store, outcome) := store.enter run.call
      run.callResult store (outcome.map fun _ => .ok ())

/-- The one entrypoint of a command component is a constant of the artifact format. -/
def execute (wasiPreview2Entrypoint : Text) : Except Error RuntimeExecutionResult := do
  request.validate
  if request.artifact.id ≠ prepared.artifact.id then
    .error ["execution request artifact '" ++ request.artifact.id ++
      "' does not match prepared artifact '" ++ prepared.artifact.id ++ "'"]
  if prepared.component.isSome then
    if request.entrypoint ≠ wasiPreview2Entrypoint then
      .error ["unsupported WASI Preview 2 entrypoint '" ++ String.ofList request.entrypoint ++
        "'; expected " ++ String.ofList wasiPreview2Entrypoint]
    return executeP2 request run
  return executeCore request run

end PreparedArtifact

/-- The error text of a result says whether it completed. -/
def RuntimeExecutionResult.Consistent (result : RuntimeExecutionResult) : Prop :=
  result.error.isSome ↔ result.status ≠ .completed

theorem statusForError_ne_completed (store : GuestStore) :
    statusForError store ≠ .completed := by
  unfold statusForError
  cases store.control.signal with
  | timedOut | cancelled => exact ExecutionStatus.noConfusion
  | none => split_ifs <;> exact ExecutionStatus.noConfusion

namespace CommandRun

theorem statusForError_consistent (run : CommandRun) (store : GuestStore) (text : String) :
    (run.result (statusForError store) none (some text)).Consistent :=
  iff_of_true rfl (statusForError_ne_completed store)

theorem errorResult_consistent (run : CommandRun) (error : GuestError) :
    (run.errorResult error).Consistent := by
  unfold errorResult
  cases error.exitCode with
  | none => exact iff_of_true rfl ExecutionStatus.noConfusion
  | some exitCode =>
    by_cases h : exitCode = 0 <;>
      simp [h, RuntimeExecutionResult.Consistent, result]

theorem callResult_consistent (run : CommandRun) (store : GuestStore)
    (outcome : Except GuestError (Except Unit Unit)) :
    (run.callResult store outcome).Consistent := by
  unfold callResult
  cases store.control.signal with
  | timedOut | cancelled => exact iff_of_true rfl ExecutionStatus.noConfusion
  | none =>
    dsimp only
    split_ifs
    · exact iff_of_true rfl ExecutionStatus.noConfusion
    · match outcome with
      | .ok (.ok ()) => exact iff_of_false Bool.noConfusion (not_not_intro rfl)
      | .ok (.error ()) => exact iff_of_true rfl ExecutionStatus.noConfusion
      | .error error => exact run.errorResult_consistent error

end CommandRun

namespace PreparedArtifact

variable {M C : Type} {prepared : PreparedArtifact M C} {request : ExecutionRequest}
  {run : CommandRun} {wasiPreview2Entrypoint : Text} {result : RuntimeExecutionResult}

theorem executeP2_consistent (request : ExecutionRequest) (run : CommandRun) :
    (executeP2 request run).Consistent := by
  unfold executeP2
  split
  · exact run.statusForError_consistent _ _
  · exact run.callResult_consistent _ _

theorem executeCore_consistent (request : ExecutionRequest) (run : CommandRun) :
    (executeCore request run).Consistent := by
  unfold executeCore
  split
  · exact run.statusForError_consistent _ _
  · split
    · exact run.statusForError_consistent _ _
    · exact run.callResult_consistent _ _

/-- The artifact has what `execute` unwraps, and the request passes its checks. -/
structure Accepts (prepared : PreparedArtifact M C) (request : ExecutionRequest)
    (wasiPreview2Entrypoint : Text) : Prop where
  linked : if prepared.component.isSome then prepared.p2Linker.isSome
    else prepared.coreModule.isSome ∧ prepared.p1Linker.isSome
  valid : request.validate = .ok ()
  artifact : request.artifact.id = prepared.artifact.id
  entrypoint : prepared.component.isSome → request.entrypoint = wasiPreview2Entrypoint

theorem execute_of_accepts (h : prepared.Accepts request wasiPreview2Entrypoint)
    (run : CommandRun) : prepared.execute request run wasiPreview2Entrypoint = .ok
      (if prepared.component.isSome then executeP2 request run else executeCore request run) := by
  unfold execute
  rw [h.valid, if_neg (not_not_intro h.artifact)]
  by_cases hcomponent : prepared.component.isSome
  · rw [if_pos hcomponent, if_pos hcomponent, if_neg (not_not_intro (h.entrypoint hcomponent))]
    rfl
  · rw [if_neg hcomponent, if_neg hcomponent]
    rfl

theorem execute_eq_ok (h : prepared.execute request run wasiPreview2Entrypoint = .ok result) :
    result = if prepared.component.isSome then executeP2 request run
      else executeCore request run := by
  obtain ⟨_, -, h⟩ := bind_eq_ok.mp h
  simp only [pure, Except.pure] at h
  split_ifs at h ⊢
  all_goals cases h
  all_goals rfl

theorem execute_consistent
    (h : prepared.execute request run wasiPreview2Entrypoint = .ok result) :
    result.Consistent := by
  rw [execute_eq_ok h]
  split_ifs
  · exact executeP2_consistent request run
  · exact executeCore_consistent request run

end PreparedArtifact

end PitBox.Runtime
