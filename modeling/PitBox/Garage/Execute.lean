import PitBox.Foundations.Transition
import PitBox.Garage.Types

/-!
# One execution request

`GarageAgent::execute` with the `warmup` and `warmup_once` inside it, as the
sequence of its accesses to shared memory. A call waits at await points for a
permit, for a cell, for an acquisition or for a blocking task, and its future
may be dropped at any of them: the permits it holds go back at once. A blocking
task that was spawned runs to its end, whatever becomes of the call.

Every call spawns at most one registration and one dispatch, so the tasks are
kept with the call.
-/

namespace PitBox.Garage

open PitBox.Runtime (PreparationReport)
open Singleflight

/-- A task of `spawn_blocking`. The outcome of a task that panics is an outer error. -/
inductive BlockingTask (α : Type) where
  | unspawned
  | running
  | finished (outcome : Except String (Except String α))

namespace BlockingTask

variable {α : Type}

def isRunning : BlockingTask α → Bool
  | .running => true
  | _ => false

end BlockingTask

/-- In `get_or_init` of a cell: not its initialiser yet, or in `warmup_once` up
to the call of the dispatcher, or waiting for the registration task. -/
inductive WarmupStage where
  | waiting
  | started
  | budgeting
  | opening
  | registering
  deriving DecidableEq, Repr

inductive ExecuteStage where
  | arrived
  | admitted
  | warming (cell : ℕ) (stage : WarmupStage)
  | failed (error : String)
  | warm
  | dispatching
  | responded (response : RemoteExecutionResponse)
  | dropped
  deriving DecidableEq, Repr

namespace ExecuteStage

def isFailed : ExecuteStage → Bool
  | failed _ => true
  | _ => false

def isOver : ExecuteStage → Bool
  | responded _ | dropped => true
  | _ => false

end ExecuteStage

/-- A call with the blocking tasks it spawned. -/
structure Execute where
  request : RemoteExecutionRequest
  stage : ExecuteStage
  registration : BlockingTask PreparationReport
  dispatch : BlockingTask HttpDispatchResult

/-- What the environment decides in one step of a call. -/
inductive Choice where
  | go
  | opened (outcome : Except String Unit)
  | registrationEnds (outcome : Except String (Except String PreparationReport))
  | dispatchEnds (outcome : Except String (Except String HttpDispatchResult))
  | drop

def Choice.isDrop : Choice → Bool
  | .drop => true
  | _ => false

namespace Execute

def new (request : RemoteExecutionRequest) : Execute where
  request
  stage := .arrived
  registration := .unspawned
  dispatch := .unspawned

def digest (r : Execute) : Digest := r.request.artifactDigest

def hotReport : PreparationReport := ⟨.hot, .warmRestored⟩

/-- Where a call goes on that has awaited a warmup. -/
def afterWarmup : Except String PreparationReport → ExecuteStage
  | .ok _ => .warm
  | .error error => .failed error

theorem afterWarmup_cases (result : Except String PreparationReport) :
    afterWarmup result = .warm ∨ ∃ error, afterWarmup result = .failed error := by
  cases result with
  | ok report => exact Or.inl rfl
  | error error => exact Or.inr ⟨error, rfl⟩

/-- The keys of the prepared artifacts after a registration. -/
def keysAfter (prepared : List Digest) (digest : Digest) :
    Except String (Except String PreparationReport) → List Digest
  | .ok (.ok _) => digest :: prepared
  | _ => prepared

/-- One step of a call on the shared memory of its agent. -/
def step (g : GarageAgent) : Execute → Choice → Option (GarageAgent × Execute)
  | ⟨q, .arrived, a, b⟩, .go =>
    match g.refuses q, g.pending with
    | some (error, message), _ => some (g, ⟨q, .responded (failure q.base error message), a, b⟩)
    | none, 0 =>
      some (g, ⟨q, .responded (failure q.base .overloaded "Garage admission limit exceeded"), a, b⟩)
    | none, free + 1 => some ({ g with pending := free }, ⟨q, .admitted, a, b⟩)
  | ⟨q, .admitted, a, b⟩, .go =>
    let entry := g.warmups.entry q.artifactDigest
    some ({ g with warmups := entry.1 }, ⟨q, .warming entry.2 .waiting, a, b⟩)
  | ⟨q, .warming cell .waiting, a, b⟩, .go =>
    match g.warmups.cells[cell]? with
    | some (.ready result) => some (g, ⟨q, afterWarmup result, a, b⟩)
    | some .empty =>
      some ({ g with warmups := g.warmups.setCell cell .initializing },
        ⟨q, .warming cell .started, a, b⟩)
    | _ => none
  -- `warmup_once`
  | ⟨q, .warming cell .started, a, b⟩, .go =>
    if q.artifactDigest ∈ g.prepared then
      some ({ g with warmups := g.warmups.setCell cell (.ready (.ok hotReport)) },
        ⟨q, .warm, a, b⟩)
    else some (g, ⟨q, .warming cell .budgeting, a, b⟩)
  | ⟨q, .warming cell .budgeting, a, b⟩, .go =>
    match g.preparationBudget with
    | 0 => none
    | free + 1 => some ({ g with preparationBudget := free }, ⟨q, .warming cell .opening, a, b⟩)
  | ⟨q, .warming cell .opening, _, b⟩, .opened (.ok ()) =>
    some (g, ⟨q, .warming cell .registering, .running, b⟩)
  | ⟨q, .warming cell .opening, a, b⟩, .opened (.error error) =>
    some ({ g with
        preparationBudget := g.preparationBudget + 1
        warmups := g.warmups.setCell cell (.ready (.error error)) },
      ⟨q, .failed error, a, b⟩)
  | ⟨q, .warming cell .registering, .finished outcome, b⟩, .go =>
    some ({ g with
        preparationBudget := g.preparationBudget + 1
        warmups := g.warmups.setCell cell (.ready (outcome.bind id)) },
      ⟨q, afterWarmup (outcome.bind id), .finished outcome, b⟩)
  -- `execute` after the warmup
  | ⟨q, .failed error, a, b⟩, .go =>
    some ({ g with
        pending := g.pending + 1
        warmups := g.warmups.remove q.artifactDigest },
      ⟨q, .responded (failure q.base .artifactUnavailable error), a, b⟩)
  | ⟨q, .warm, a, _⟩, .go =>
    some ({ g with executions := g.executions + 1 }, ⟨q, .dispatching, a, .running⟩)
  | ⟨q, .dispatching, a, .finished outcome⟩, .go =>
    some ({ g with pending := g.pending + 1 },
      ⟨q, .responded (dispatchResponse q.base outcome), a, .finished outcome⟩)
  -- blocking tasks end, whatever became of the call
  | ⟨q, stage, .running, b⟩, .registrationEnds outcome =>
    some ({ g with prepared := keysAfter g.prepared q.artifactDigest outcome },
      ⟨q, stage, .finished outcome, b⟩)
  | ⟨q, stage, a, .running⟩, .dispatchEnds outcome => some (g, ⟨q, stage, a, .finished outcome⟩)
  -- the future is dropped at an await point
  | ⟨q, .warming _ .waiting, a, b⟩, .drop =>
    some ({ g with pending := g.pending + 1 }, ⟨q, .dropped, a, b⟩)
  | ⟨q, .warming cell .budgeting, a, b⟩, .drop =>
    some ({ g with
        pending := g.pending + 1
        warmups := g.warmups.setCell cell .empty },
      ⟨q, .dropped, a, b⟩)
  | ⟨q, .warming cell .opening, a, b⟩, .drop | ⟨q, .warming cell .registering, a, b⟩, .drop =>
    some ({ g with
        pending := g.pending + 1
        preparationBudget := g.preparationBudget + 1
        warmups := g.warmups.setCell cell .empty },
      ⟨q, .dropped, a, b⟩)
  | ⟨q, .dispatching, a, b⟩, .drop =>
    some ({ g with pending := g.pending + 1 }, ⟨q, .dropped, a, b⟩)
  | _, _ => none

/-- What the call has to do with the cells of the warmup map. -/
def use (r : Execute) : Use :=
  match r.stage with
  | .warming cell .waiting => .waiting cell
  | .warming cell _ => .initializing cell
  | _ => .outside

/-- The call holds an admission permit. -/
def holdsPending (r : Execute) : Bool :=
  match r.stage with
  | .admitted | .warming _ _ | .failed _ | .warm | .dispatching => true
  | _ => false

/-- The call holds a permit of the preparation budget. -/
def holdsBudget (r : Execute) : Bool :=
  match r.stage with
  | .warming _ .opening | .warming _ .registering => true
  | _ => false

def registers (r : Execute) : Bool := r.registration.isRunning

def dispatches (r : Execute) : Bool := r.dispatch.isRunning

/-- A preparation of the call is in progress: it is in `warmup_once` before the
registration, or its registration runs. -/
def prepares (r : Execute) : Bool :=
  r.registers ||
    match r.stage with
    | .warming _ .started | .warming _ .budgeting | .warming _ .opening => true
    | _ => false

end Execute

end PitBox.Garage
