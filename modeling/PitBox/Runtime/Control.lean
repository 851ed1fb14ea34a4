import PitBox.Runtime.Limiter

/-!
# What can stop a guest

A guest runs in a Store that asks two things while it runs: the epoch callback
at every tick, and the limiter at every growth of a linear memory. A callback
that answers `Interrupt` and a limiter that refuses stop the guest with a
trap. Why it stopped is left in the signal of the execution and in the flag of
the limiter.
-/

namespace PitBox.Runtime

abbrev Instant := ℕ
abbrev Duration := ℕ

/-- Per-invocation limits. -/
structure ExecutionLimits where
  timeout : Option Duration
  memoryBytes : Option ℕ
  deriving DecidableEq, Repr

inductive ControlSignal where
  | none
  | timedOut
  | cancelled
  deriving DecidableEq, Repr

/-- The control of one execution. Whether its token is cancelled is read at
each tick, so the token is part of the ticks. -/
structure ExecutionControl where
  deadline : Option Instant
  signal : ControlSignal
  deriving DecidableEq, Repr

inductive UpdateDeadline where
  | interrupt
  | continue (ticks : ℕ)
  deriving DecidableEq, Repr

namespace ExecutionControl

def new (timeout : Option Duration) (now : Instant) : ExecutionControl where
  deadline := timeout.map (now + ·)
  signal := .none

def timedOut (control : ExecutionControl) (now : Instant) : Bool :=
  control.deadline.any (· ≤ now)

/-- The epoch deadline callback. -/
def onEpoch (control : ExecutionControl) (cancelled : Bool) (now : Instant) :
    ExecutionControl × UpdateDeadline :=
  if cancelled then ({ control with signal := .cancelled }, .interrupt)
  else if control.timedOut now then ({ control with signal := .timedOut }, .interrupt)
  else (control, .continue 1)

end ExecutionControl

/-- What the Store of a guest is asked. -/
inductive StoreEvent where
  | epoch (cancelled : Bool) (now : Instant)
  | memoryGrowing (current desired : ℕ) (maximum : Option ℕ)
  deriving DecidableEq, Repr

/-- Why a guest was stopped. -/
inductive Stop where
  | cancelled
  | timedOut
  | memoryLimit
  deriving DecidableEq, Repr

/-- The Store of one execution with its control. -/
structure GuestStore where
  control : ExecutionControl
  limits : RuntimeLimiter
  deriving DecidableEq, Repr

namespace GuestStore

def new (limits : ExecutionLimits) (now : Instant) : GuestStore where
  control := .new limits.timeout now
  limits := .new limits.memoryBytes

/-- One question, and whether its answer stops the guest. -/
def event (s : GuestStore) : StoreEvent → GuestStore × Bool
  | .epoch cancelled now =>
    let (control, update) := s.control.onEpoch cancelled now
    ({ s with control }, update == .interrupt)
  | .memoryGrowing current desired maximum =>
    match s.limits.memoryGrowing current desired maximum with
    | (limits, .ok _) => ({ s with limits }, false)
    | (limits, .error _) => ({ s with limits }, true)

/-- The questions of one call into the guest, up to the first that stops it. -/
def play (s : GuestStore) : List StoreEvent → GuestStore × Bool
  | [] => (s, false)
  | e :: es =>
    match s.event e with
    | (s, true) => (s, true)
    | (s, false) => s.play es

/-- The reason a question stops the guest for, if it does. -/
def stop? (s : GuestStore) : StoreEvent → Option Stop
  | .epoch cancelled now =>
    if cancelled then some .cancelled
    else if s.control.timedOut now then some .timedOut
    else none
  | .memoryGrowing _ desired _ =>
    if s.limits.memoryLimit.any (· < desired) then some .memoryLimit else none

/-- The Store of a guest that has been stopped. -/
def stopped (s : GuestStore) : Stop → GuestStore
  | .cancelled => { s with control := { s.control with signal := .cancelled } }
  | .timedOut => { s with control := { s.control with signal := .timedOut } }
  | .memoryLimit => { s with limits := { s.limits with memoryExceeded := true } }

theorem event_eq (s : GuestStore) (e : StoreEvent) :
    s.event e = ((s.stop? e).elim s s.stopped, (s.stop? e).isSome) := by
  cases e with
  | epoch cancelled now =>
    simp only [event, stop?, ExecutionControl.onEpoch]
    split_ifs <;> rfl
  | memoryGrowing current desired maximum =>
    unfold event stop? RuntimeLimiter.memoryGrowing
    cases hlimit : s.limits.memoryLimit with
    | none => rfl
    | some limit => by_cases h : limit < desired <;> simp [h, stopped, hlimit]

theorem play_eq (s : GuestStore) (es : List StoreEvent) :
    s.play es = ((es.findSome? s.stop?).elim s s.stopped, (es.findSome? s.stop?).isSome) := by
  induction es with
  | nil => rfl
  | cons e es ih =>
    rw [play, event_eq, List.findSome?_cons]
    cases h : s.stop? e with
    | none => exact ih
    | some reason => rfl

end GuestStore

/-- One call into the guest: what its Store is asked meanwhile, the error of the
trap should it be stopped, and how it ends by itself otherwise. -/
structure GuestCall (ε α : Type) where
  events : List StoreEvent
  trap : ε
  result : Except ε α

namespace GuestStore

variable {ε α : Type}

/-- A call into the guest. -/
def enter (s : GuestStore) (call : GuestCall ε α) : GuestStore × Except ε α :=
  match s.play call.events with
  | (s, true) => (s, .error call.trap)
  | (s, false) => (s, call.result)

theorem enter_of_stop {s : GuestStore} {call : GuestCall ε α} {reason : Stop}
    (h : call.events.findSome? s.stop? = some reason) :
    s.enter call = (s.stopped reason, .error call.trap) := by
  rw [enter, play_eq, h]
  rfl

theorem enter_of_none {s : GuestStore} {call : GuestCall ε α}
    (h : call.events.findSome? s.stop? = none) : s.enter call = (s, call.result) := by
  rw [enter, play_eq, h]
  rfl

end GuestStore

end PitBox.Runtime
