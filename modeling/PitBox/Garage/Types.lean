import PitBox.Foundations.Singleflight
import PitBox.Runtime.Prepare

/-!
# The data of a Garage

Requests and responses of the remote execution protocol, and the shared memory
of a `GarageAgent`: two semaphores, the warmup map with its cells, the keys of
the prepared artifacts and the counter of executions. Semaphores are never
closed.
-/

namespace PitBox.Garage

open PitBox.Runtime (Bytes PreparationReport)
open Singleflight

/-- An artifact digest in its display form, the key of the warmup map. -/
abbrev Digest := String

abbrev GarageId := String

inductive RuntimeContract where
  | wasiHttpProxy
  | other
  deriving DecidableEq, Repr

inductive RemoteExecutionError where
  | unsupportedProtocol
  | unsupportedRuntime
  | invocationCycle
  | overloaded
  | artifactUnavailable
  | guestFailure
  | timeout
  | internal
  deriving DecidableEq, Repr

structure RemoteExecutionRequest where
  protocolVersion : ℕ
  executionId : String
  artifactDigest : Digest
  sourcePaddock : Option String
  runtimeContract : RuntimeContract
  visitedGarages : List GarageId
  invocationDepth : ℕ
  deriving DecidableEq, Repr

/-- What the dispatcher measured of an execution, in microseconds. The times of
the warmup and of the whole request are left out. -/
structure RemoteExecutionTiming where
  preparedLookup : ℕ
  schedulerQueue : ℕ
  guestStarted : ℕ
  guestExecution : ℕ
  deriving DecidableEq, Repr

structure RemoteExecutionResponse where
  accepted : Bool
  started : Bool
  executionId : String
  laneId : Option ℕ
  guestStatus : Option ℕ
  headers : List (String × String)
  body : Bytes
  timing : Option RemoteExecutionTiming
  error : Option RemoteExecutionError
  errorMessage : Option String
  deriving DecidableEq, Repr

structure HttpResponse where
  status : ℕ
  headers : List (String × String)
  body : Bytes
  deriving DecidableEq, Repr

/-- The durations are zero where nothing looks at them. -/
structure HttpDispatchResult where
  executionId : String
  laneId : ℕ
  response : Option HttpResponse
  error : Option String
  queuedFor : ℕ := 0
  duration : ℕ := 0
  guestStartedAfterRequest : ℕ := 0
  preparedLookup : ℕ := 0
  deriving DecidableEq, Repr

def RemoteExecutionRequest.base (request : RemoteExecutionRequest) : RemoteExecutionResponse where
  accepted := false
  started := false
  executionId := request.executionId
  laneId := none
  guestStatus := none
  headers := []
  body := []
  timing := none
  error := none
  errorMessage := none

def failure (response : RemoteExecutionResponse) (error : RemoteExecutionError)
    (message : String) : RemoteExecutionResponse :=
  { response with error := some error, errorMessage := some message }

def failureStarted (response : RemoteExecutionResponse) (error : RemoteExecutionError)
    (message : String) : RemoteExecutionResponse :=
  failure { response with accepted := true, started := true } error message

def containsText (needle : List Char) (text : List Char) : Bool :=
  text.tails.any needle.isPrefixOf

/-- The response to an execution that ran: the outer error is a panic of the
blocking task. -/
def dispatchResponse (base : RemoteExecutionResponse) :
    Except String (Except String HttpDispatchResult) → RemoteExecutionResponse
  | .error error => failureStarted base .internal error
  | .ok (.error error) => failureStarted base .guestFailure error
  | .ok (.ok result) =>
    let response := { base with
      accepted := true
      started := true
      executionId := result.executionId
      laneId := some result.laneId
      timing := some
        { preparedLookup := result.preparedLookup
          schedulerQueue := result.queuedFor
          guestStarted := result.guestStartedAfterRequest
          guestExecution := result.duration } }
    match result.response with
    | some value =>
      { response with
        guestStatus := some value.status
        headers := value.headers
        body := value.body }
    | none =>
      { response with
        error := some
          (if result.error.any fun e => containsText "timeout".toList e.toList then .timeout
          else .guestFailure)
        errorMessage := result.error }

/-- The warmup map. A cell keeps its result, also a failed one. -/
abbrev WarmupMap := Flights Digest (Except String PreparationReport)

structure GarageAgent where
  id : GarageId
  protocolVersion : ℕ
  pending : ℕ
  preparationBudget : ℕ
  warmups : WarmupMap
  prepared : List Digest
  executions : UInt64

namespace GarageAgent

def new (id : GarageId) (protocolVersion maxPending maxPreparations : ℕ) : GarageAgent where
  id
  protocolVersion
  pending := maxPending
  preparationBudget := max maxPreparations 1
  warmups := ⟨fun _ => none, []⟩
  prepared := []
  executions := 0

/-- The refusals of `execute` before admission. -/
def refuses (g : GarageAgent) (request : RemoteExecutionRequest) :
    Option (RemoteExecutionError × String) :=
  if request.protocolVersion ≠ g.protocolVersion then
    some (.unsupportedProtocol, "unsupported remote protocol")
  else if request.runtimeContract ≠ .wasiHttpProxy then
    some (.unsupportedRuntime, "Garage currently executes wasi:http/proxy remotely")
  else if g.id ∈ request.visitedGarages then
    some (.invocationCycle, "Garage already appears in invocation path")
  else if request.invocationDepth > 16 then
    some (.invocationCycle, "maximum invocation depth exceeded")
  else none

end GarageAgent

end PitBox.Garage
