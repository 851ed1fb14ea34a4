import PitBox.Foundations.Transition
import PitBox.Scheduler.RunMany

/-!
# All calls on one scheduler

Any number of threads hold clones of one `PitScheduler`. A state is the shared
memory together with every call ever made on it, and a label names the thread
that moves and what its environment decides, so a run is an interleaving.
-/

namespace PitBox.Scheduler

open Table

/-- A scheduler with the calls made on its clones. -/
structure State (T : Type) where
  now : Instant
  scheduler : PitScheduler
  calls : List (RunOneObserved T)
  batches : List (RunManyClassified T)

/-- The labels of an interleaving. -/
inductive Action (T : Type) where
  | tick (duration : Duration)
  | runOneObserved
  | call (i : ℕ) (choice : Choice T)
  | notifyOne (i : ℕ) (target : Option ℕ)
  | runManyClassified (count : UInt64) (classify : T → Option String)
  | batch (b : ℕ)
  | worker (b w : ℕ) (choice : Choice T)

namespace Action

variable {T : Type}

/-- `run_one` is the call whose observer does nothing. -/
def runOne : Action T := .runOneObserved

/-- `run_many_detailed` accepts every value; `run_many` keeps its results only. -/
def runManyDetailed (count : UInt64) : Action T := .runManyClassified count fun _ => none

/-- The observer or the task of a single-task call unwinds. -/
def unwindsCall : Action T → Bool
  | .call _ choice => choice.unwinds
  | _ => false

/-- The step of a thread of batch `i`. -/
def ownedBy (i : ℕ) : Action T → Bool
  | .batch j | .worker j _ _ => j == i
  | _ => false

end Action

namespace State

variable {T : Type}

/-- A scheduler nobody has used. -/
def fresh (laneCount : UInt64) (now : Instant) : State T where
  now
  scheduler := .withLanes laneCount now
  calls := []
  batches := []

/-- `notify_one` of call `i`: it takes one sleeper out of the queue, and has no
effect only when nobody sleeps. -/
def notifyOne (s : State T) (i : ℕ) : Option ℕ → Option (State T)
  | none =>
    match s.calls[i]? with
    | some (.releasing k r .deactivated) =>
      if tally RunOneObserved.asleep s.calls = 0 then
        some { s with calls := s.calls.set i (.releasing k r .notified) }
      else none
    | _ => none
  | some j =>
    match s.calls[i]?, s.calls[j]? with
    | some (.releasing k r .deactivated), some (.waiting t .asleep) =>
      some { s with
        calls := (s.calls.set i (.releasing k r .notified)).set j (.waiting t (.woken true)) }
    | _, _ => none

/-- One step of the system. -/
def step (s : State T) : Action T → Option (State T)
  | .tick duration => some { s with now := s.now + duration }
  | .runOneObserved =>
    some { s with
      scheduler := { s.scheduler with nextExecutionId := s.scheduler.nextExecutionId + 1 }
      calls := s.calls ++ [.waiting ⟨s.scheduler.nextId, s.now⟩ .numbered] }
  | .call i e =>
    (s.calls[i]?).bind fun c => (c.step s.now s.scheduler e).map fun (p, c) =>
      { s with scheduler := p, calls := s.calls.set i c }
  | .notifyOne i target => s.notifyOne i target
  | .runManyClassified count classify =>
    some { s with batches := s.batches ++ [.enter count classify] }
  | .batch i =>
    (s.batches[i]?).bind fun b => (b.step s.now s.scheduler).map fun (p, b) =>
      { s with scheduler := p, batches := s.batches.set i b }
  | .worker i w e =>
    (s.batches[i]?).bind fun b => (b.workerStep s.now s.scheduler w e).map fun (p, b) =>
      { s with scheduler := p, batches := s.batches.set i b }

abbrev exec (s : State T) (as : List (Action T)) : Option (State T) :=
  Transition.exec State.step s as

abbrev Reachable (laneCount : UInt64) (now : Instant) (s : State T) : Prop :=
  Transition.Reachable State.step (fresh laneCount now) s

end State

end PitBox.Scheduler
