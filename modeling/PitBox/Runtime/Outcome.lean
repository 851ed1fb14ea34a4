import PitBox.Runtime.Execution

/-!
# The outcome of a command

A run of a command is seen from its Store: ticks, growths and writes, and then
an end. The result is that of the first question that stops the guest, and
without one it is that of the end. Core modules and components are executed by
two functions that agree on every end that both can come to.
-/

namespace PitBox.Runtime

/-- An error of a chain, which may be an exit. -/
structure Cause where
  text : String
  exit : Option Int32
  deriving DecidableEq, Repr

/-- An error with its causes, the outermost first. -/
structure ErrorChain where
  head : Cause
  causes : List Cause
  deriving DecidableEq, Repr

def ErrorChain.toGuestError (chain : ErrorChain) : GuestError where
  text := chain.head.text
  exitCode := (chain.head :: chain.causes).findSome? Cause.exit

inductive OutputStream where
  | stdout
  | stderr
  deriving DecidableEq, Repr

inductive CommandEvent where
  | store (event : StoreEvent)
  | write (stream : OutputStream) (bytes : Bytes)
  deriving DecidableEq, Repr

/-- How a command that is not stopped ends: before its entrypoint is called, or
with what the call comes to. -/
inductive CommandEnd where
  | instantiationError (error : ErrorChain)
  | missingEntrypoint (error : ErrorChain)
  | called (events : List CommandEvent) (outcome : Except ErrorChain (Except Unit Unit))

inductive Abi where
  | preview1
  | preview2
  deriving DecidableEq, Repr

/-- Only a core module lacks its entrypoint, and only a component returns an error. -/
def CommandEnd.Possible : Abi → CommandEnd → Prop
  | .preview1, .called _ (.ok (.error ())) => False
  | .preview2, .missingEntrypoint _ => False
  | _, _ => True

/-- A command up to its end. A guest that is stopped ends with the trap. -/
structure CommandTrace where
  instantiation : List CommandEvent
  finish : CommandEnd
  trap : ErrorChain
  started : ℕ
  now : Instant
  duration : Duration

/-- The reason an event stops the guest for. -/
def GuestStore.stopOf (s : GuestStore) : CommandEvent → Option Stop
  | .store event => s.stop? event
  | .write _ _ => none

def storeEvents : List CommandEvent → List StoreEvent :=
  List.filterMap fun event =>
    match event with
    | .store event => some event
    | .write _ _ => none

/-- What is captured of a stream. -/
def captured (stream : OutputStream) (events : List CommandEvent) : Bytes :=
  events.flatMap fun event =>
    match event with
    | .write target bytes => if target = stream then bytes else []
    | .store _ => []

namespace CommandTrace

variable (trace : CommandTrace) (limits : ExecutionLimits)

/-- The events of a run that is not stopped. -/
def events : List CommandEvent :=
  match trace.finish with
  | .called events _ => trace.instantiation ++ events
  | _ => trace.instantiation

def stop? : Option Stop := trace.events.findSome? (GuestStore.new limits trace.now).stopOf

def played : List CommandEvent :=
  trace.events.takeWhile fun event =>
    ((GuestStore.new limits trace.now).stopOf event).isNone

/-- The run of a command, as the executing functions meet it. -/
def toRun : CommandRun where
  instantiation :=
    { events := storeEvents trace.instantiation
      trap := trace.trap.toGuestError
      result :=
        match trace.finish with
        | .instantiationError error => .error error.toGuestError
        | _ => .ok () }
  typedFunc :=
    match trace.finish with
    | .missingEntrypoint error => .error error.toGuestError
    | _ => .ok ()
  call :=
    match trace.finish with
    | .called events outcome =>
      { events := storeEvents events
        trap := trace.trap.toGuestError
        result := outcome.mapError ErrorChain.toGuestError }
    | _ => { events := [], trap := trace.trap.toGuestError, result := .ok (.ok ()) }
  stdout := captured .stdout (trace.played limits)
  stderr := captured .stderr (trace.played limits)
  started := trace.started
  now := trace.now
  duration := trace.duration

end CommandTrace

/-! ### What a result says -/

/-- The status and the exit code of an end. -/
def CommandEnd.outcome : CommandEnd → ExecutionStatus × Option Int32
  | .instantiationError _ | .missingEntrypoint _ => (.runtimeError, none)
  | .called _ (.ok (.ok ())) => (.completed, some 0)
  | .called _ (.ok (.error ())) => (.guestExitNonZero, some 1)
  | .called _ (.error chain) =>
    match (chain.head :: chain.causes).findSome? Cause.exit with
    | some exitCode => (if exitCode = 0 then .completed else .guestExitNonZero, some exitCode)
    | none => (.guestTrap, none)

def Stop.status : Stop → ExecutionStatus
  | .cancelled => .cancelled
  | .timedOut => .timedOut
  | .memoryLimit => .memoryLimitExceeded

/-- The exit code and the error of a result go with its status. -/
structure RuntimeExecutionResult.WellFormed (result : RuntimeExecutionResult) : Prop where
  exitCode_zero : result.exitCode = some 0 ↔ result.status = .completed
  exitCode_ne_zero :
    (∃ c, c ≠ 0 ∧ result.exitCode = some c) ↔ result.status = .guestExitNonZero
  error : result.error = none ↔ result.status = .completed

/-- A result says why its guest was stopped, and else how it ended. -/
structure RuntimeExecutionResult.Classifies (result : RuntimeExecutionResult)
    (stop : Option Stop) (finish : CommandEnd) : Prop where
  stopped : ∀ reason, stop = some reason ↔ result.status = reason.status
  ended : stop = none → (result.status, result.exitCode) = finish.outcome
  wellFormed : result.WellFormed

/-! ### Both functions -/

def Stop.message : Stop → String
  | .cancelled => "execution was cancelled"
  | .timedOut => "execution exceeded its timeout"
  | .memoryLimit => "execution exceeded its memory limit"

namespace CommandTrace

variable (trace : CommandTrace) (limits : ExecutionLimits)

/-- The result of a command under limits. -/
def result : RuntimeExecutionResult :=
  let run := trace.toRun limits
  let store := GuestStore.new limits trace.now
  match trace.instantiation.findSome? store.stopOf, trace.finish with
  | some reason, _ => run.result reason.status none (some trace.trap.head.text)
  | none, .instantiationError error | none, .missingEntrypoint error =>
    run.result .runtimeError none (some error.head.text)
  | none, .called events outcome =>
    match events.findSome? store.stopOf, outcome with
    | some reason, _ => run.result reason.status none (some reason.message)
    | none, .ok (.ok ()) => run.result .completed (some 0) none
    | none, .ok (.error ()) =>
      run.result .guestExitNonZero (some 1) (some "guest exited with a non-zero status")
    | none, .error error => run.errorResult error.toGuestError

end CommandTrace

section Agreement

variable {trace : CommandTrace} {request : ExecutionRequest} {limits : ExecutionLimits}
  {now : Instant} {reason : Stop}

theorem findSome_storeEvents (s : GuestStore) (events : List CommandEvent) :
    (storeEvents events).findSome? s.stop? = events.findSome? s.stopOf := by
  induction events with
  | nil => rfl
  | cons event events ih =>
    cases event with
    | write stream bytes => exact ih
    | store event =>
      change (event :: storeEvents events).findSome? s.stop? = _
      rw [List.findSome?_cons, List.findSome?_cons, ih]
      rfl

theorem statusForError_stopped :
    statusForError ((GuestStore.new limits now).stopped reason) = reason.status := by
  cases reason <;> rfl

theorem callResult_stopped (run : CommandRun)
    (outcome : Except GuestError (Except Unit Unit)) :
    run.callResult ((GuestStore.new limits now).stopped reason) outcome =
      run.result reason.status none (some reason.message) := by
  cases reason <;> rfl

theorem enter_storeEvents {ε α : Type} (s : GuestStore) (events : List CommandEvent) (trap : ε)
    (outcome : Except ε α) : s.enter ⟨storeEvents events, trap, outcome⟩ =
      match events.findSome? s.stopOf with
      | some reason => (s.stopped reason, .error trap)
      | none => (s, outcome) := by
  cases h : events.findSome? s.stopOf with
  | some reason => exact GuestStore.enter_of_stop ((findSome_storeEvents s events).trans h)
  | none => exact GuestStore.enter_of_none ((findSome_storeEvents s events).trans h)

/-- The execution of a core module. -/
theorem executeCore_eq (h : trace.finish.Possible .preview1) :
    PreparedArtifact.executeCore request (trace.toRun request.limits) =
      trace.result request.limits := by
  obtain ⟨instantiation, finish, trap, started, now, duration⟩ := trace
  unfold PreparedArtifact.executeCore CommandTrace.result
  simp only [CommandTrace.toRun, enter_storeEvents]
  cases instantiation.findSome? (GuestStore.new request.limits now).stopOf with
  | some reason =>
    simp only [statusForError_stopped]
    rfl
  | none =>
    cases finish with
    | instantiationError error => rfl
    | missingEntrypoint error => rfl
    | called events outcome =>
      simp only [enter_storeEvents]
      cases events.findSome? (GuestStore.new request.limits now).stopOf with
      | some reason => exact callResult_stopped _ _
      | none =>
        match outcome, h with
        | .ok (.ok ()), _ => rfl
        | .error error, _ => rfl

/-- The execution of a component. -/
theorem executeP2_eq (h : trace.finish.Possible .preview2) :
    PreparedArtifact.executeP2 request (trace.toRun request.limits) =
      trace.result request.limits := by
  obtain ⟨instantiation, finish, trap, started, now, duration⟩ := trace
  unfold PreparedArtifact.executeP2 CommandTrace.result
  simp only [CommandTrace.toRun, enter_storeEvents]
  cases instantiation.findSome? (GuestStore.new request.limits now).stopOf with
  | some reason =>
    simp only [statusForError_stopped]
    rfl
  | none =>
    match finish, h with
    | .instantiationError error, _ => rfl
    | .called events outcome, _ =>
      simp only [enter_storeEvents]
      cases events.findSome? (GuestStore.new request.limits now).stopOf with
      | some reason => exact callResult_stopped _ _
      | none =>
        match outcome with
        | .ok (.ok ()) => rfl
        | .ok (.error ()) => rfl
        | .error error => rfl

end Agreement

/-! ### The classification -/

section Classification

variable {trace : CommandTrace} {limits : ExecutionLimits} {run : CommandRun}

theorem CommandTrace.stop?_eq (trace : CommandTrace) (limits : ExecutionLimits) :
    trace.stop? limits =
      (trace.instantiation.findSome? (GuestStore.new limits trace.now).stopOf).or
        (match trace.finish with
        | .called events _ => events.findSome? (GuestStore.new limits trace.now).stopOf
        | _ => none) := by
  unfold stop? events
  cases trace.finish with
  | instantiationError error | missingEntrypoint error => exact (Option.or_none ..).symm
  | called events outcome => exact List.findSome?_append

theorem Stop.status_injective : Function.Injective Stop.status := by
  intro a b h
  cases a <;> cases b <;> first | rfl | cases h

theorem Stop.status_ne (reason : Stop) :
    reason.status ≠ .completed ∧ reason.status ≠ .guestExitNonZero := by
  cases reason <;> exact ⟨ExecutionStatus.noConfusion, ExecutionStatus.noConfusion⟩

theorem CommandEnd.outcome_ne_status (finish : CommandEnd) (reason : Stop) :
    finish.outcome.1 ≠ reason.status := by
  match finish with
  | .instantiationError _ | .missingEntrypoint _ =>
    cases reason <;> exact ExecutionStatus.noConfusion
  | .called _ (.ok (.ok ())) | .called _ (.ok (.error ())) =>
    cases reason <;> exact ExecutionStatus.noConfusion
  | .called _ (.error chain) =>
    unfold outcome
    dsimp only
    split
    · dsimp only
      split_ifs <;> cases reason <;> exact ExecutionStatus.noConfusion
    · cases reason <;> exact ExecutionStatus.noConfusion

theorem wellFormed_of_ne {status : ExecutionStatus} {text : String}
    (h : status ≠ .completed ∧ status ≠ .guestExitNonZero) :
    (run.result status none (some text)).WellFormed where
  exitCode_zero := iff_of_false (Option.some_ne_none 0).symm h.1
  exitCode_ne_zero := by
    apply iff_of_false _ h.2
    rintro ⟨c, -, hc⟩
    cases hc
  error := iff_of_false (Option.some_ne_none text) h.1

theorem classifies_stopped (reason : Stop) (text : String) (finish : CommandEnd) :
    (run.result reason.status none (some text)).Classifies (some reason) finish where
  stopped other := by
    rw [Option.some.injEq]
    exact Stop.status_injective.eq_iff.symm
  ended h := by cases h
  wellFormed := wellFormed_of_ne reason.status_ne

theorem classifies_ended {result : RuntimeExecutionResult} {finish : CommandEnd}
    (houtcome : (result.status, result.exitCode) = finish.outcome) (h : result.WellFormed) :
    result.Classifies none finish where
  stopped reason := by
    have hstatus : result.status = finish.outcome.1 := congrArg Prod.fst houtcome
    rw [hstatus]
    exact iff_of_false (Option.some_ne_none reason).symm (finish.outcome_ne_status reason)
  ended _ := houtcome
  wellFormed := h

theorem errorResult_wellFormed (error : GuestError) : (run.errorResult error).WellFormed := by
  unfold CommandRun.errorResult
  cases error.exitCode with
  | none => exact wellFormed_of_ne ⟨ExecutionStatus.noConfusion, ExecutionStatus.noConfusion⟩
  | some exitCode =>
    by_cases h : exitCode = 0
    · constructor <;> simp [h, CommandRun.result]
    · constructor <;> simp [h, CommandRun.result]

theorem errorResult_outcome (chain : ErrorChain) (events : List CommandEvent) :
    ((run.errorResult chain.toGuestError).status, (run.errorResult chain.toGuestError).exitCode) =
      (CommandEnd.called events (.error chain)).outcome := by
  unfold CommandRun.errorResult CommandEnd.outcome ErrorChain.toGuestError
  dsimp only
  cases (chain.head :: chain.causes).findSome? Cause.exit <;> rfl

/-- The result says why the guest was stopped, or how it ended. -/
theorem CommandTrace.result_classifies (trace : CommandTrace) (limits : ExecutionLimits) :
    (trace.result limits).Classifies (trace.stop? limits) trace.finish := by
  rw [stop?_eq]
  unfold result
  dsimp only
  cases trace.instantiation.findSome? (GuestStore.new limits trace.now).stopOf with
  | some reason => exact classifies_stopped reason _ _
  | none =>
    rw [Option.none_or]
    cases trace.finish with
    | instantiationError error | missingEntrypoint error =>
      exact classifies_ended rfl
        (wellFormed_of_ne ⟨ExecutionStatus.noConfusion, ExecutionStatus.noConfusion⟩)
    | called events outcome =>
      dsimp only
      cases events.findSome? (GuestStore.new limits trace.now).stopOf with
      | some reason => exact classifies_stopped reason _ _
      | none =>
        match outcome with
        | .ok (.ok ()) => exact classifies_ended rfl (by constructor <;> simp [CommandRun.result])
        | .ok (.error ()) =>
          exact classifies_ended rfl (by constructor <;> simp [CommandRun.result])
        | .error error =>
          exact classifies_ended (errorResult_outcome error events) (errorResult_wellFormed _)

end Classification

namespace PreparedArtifact

variable {M C : Type} {prepared : PreparedArtifact M C} {request : ExecutionRequest}
  {trace : CommandTrace} {wasiPreview2Entrypoint : Text} {result : RuntimeExecutionResult}

def abi (prepared : PreparedArtifact M C) : Abi :=
  if prepared.component.isSome then .preview2 else .preview1

theorem execute_eq_result (h : prepared.Accepts request wasiPreview2Entrypoint)
    (hend : trace.finish.Possible prepared.abi) :
    prepared.execute request (trace.toRun request.limits) wasiPreview2Entrypoint =
      .ok (trace.result request.limits) := by
  rw [execute_of_accepts h]
  unfold abi at hend
  split_ifs at hend ⊢ with hcomponent
  · exact congrArg Except.ok (executeP2_eq hend)
  · exact congrArg Except.ok (executeCore_eq hend)

/-- A command that is accepted returns a result, which is that of the first
question that stops it and else that of its end. An accepted request with the
same limits has the same result, through either interface. -/
theorem execute_classifies (h : prepared.Accepts request wasiPreview2Entrypoint)
    (hend : trace.finish.Possible prepared.abi) :
    ∃ result, prepared.execute request (trace.toRun request.limits) wasiPreview2Entrypoint =
        .ok result ∧
      result.Classifies (trace.stop? request.limits) trace.finish ∧
        ∀ (o : PreparedArtifact M C) (q : ExecutionRequest), o.Accepts q wasiPreview2Entrypoint →
          q.limits = request.limits → trace.finish.Possible o.abi →
            o.execute q (trace.toRun q.limits) wasiPreview2Entrypoint = .ok result := by
  refine ⟨_, execute_eq_result h hend, trace.result_classifies request.limits, ?_⟩
  intro o q haccepts hlimits hpossible
  rw [execute_eq_result haccepts hpossible, hlimits]

/-- A guest whose deadline passes before it exits. -/
def lateTrace : CommandTrace where
  instantiation := [.store (.memoryGrowing 0 65536 none), .store (.epoch false 5)]
  finish := .called [.write .stdout [104, 105], .store (.epoch false 10), .write .stdout [33]]
    (.error ⟨⟨"error while executing", none⟩, [⟨"exit", some 3⟩]⟩)
  trap := ⟨⟨"error while executing", none⟩, [⟨"wasm trap: interrupt", none⟩]⟩
  started := 0
  now := 0
  duration := 10

def lateRequest : ExecutionRequest where
  artifact := ⟨"guest", .bytes [], none⟩
  entrypoint := "run".toList
  args := []
  env := []
  limits := ⟨some 10, none⟩

/-- The artifact of `lateRequest`, as a core module and as a component. -/
def lateModule : PreparedArtifact Unit Unit :=
  ⟨some (), some [.preview1], none, none, none, none, none, lateRequest.artifact⟩

def lateComponent : PreparedArtifact Unit Unit :=
  ⟨none, none, some (), some [.preview2], none, none, none, lateRequest.artifact⟩

theorem execute_classifies_lateTrace :
    ∃ result, lateModule.execute lateRequest (lateTrace.toRun ⟨some 10, none⟩) "run".toList =
        .ok result ∧
      lateComponent.execute lateRequest (lateTrace.toRun ⟨some 10, none⟩) "run".toList =
        .ok result ∧
      result.status = .timedOut ∧ result.stdout = [104, 105] := by
  have hmodule : lateModule.Accepts lateRequest "run".toList :=
    ⟨⟨rfl, rfl⟩, rfl, rfl, fun _ => rfl⟩
  have hcomponent : lateComponent.Accepts lateRequest "run".toList :=
    ⟨rfl, rfl, rfl, fun _ => rfl⟩
  obtain ⟨result, hexecute, hclass, hsame⟩ := execute_classifies hmodule
    (show lateTrace.finish.Possible lateModule.abi from trivial)
  have hstatus := (hclass.stopped .timedOut).mp (by rfl)
  refine ⟨result, hexecute, hsame lateComponent lateRequest hcomponent rfl trivial, hstatus, ?_⟩
  cases hexecute
  rfl

end PreparedArtifact

end PitBox.Runtime
