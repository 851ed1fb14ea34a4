import PitBox.Garage.Chain

/-!
# A fleet of Garages

Garages with their lanes and the guests that were handed to their dispatchers.
The dispatcher of a Garage gives a guest a lane for as long as its task runs,
and the task of a guest that makes a nested call waits for the answer without
giving the lane back. PitLane forwards a nested call to some Garage that is not
on its path; there it is a request like any other. HTTP clients have no
timeouts here.
-/

namespace PitBox.Garage

open PitBox.Runtime

/-- A Garage of a fleet. An entry of `sharedLanes` is the guest that has the lane. -/
structure Node where
  garage : State
  maxInvocationDepth : ℕ
  grants : List PaddockGrant
  sharedLanes : List (Option ℕ)

/-- Where a guest is that was handed to the dispatcher of its Garage: it waits
for a lane, or it has one and runs, or it has one and is blocked in a nested
call that PitLane has, or has forwarded as a call of a Garage. -/
inductive GuestStage where
  | waiting
  | running (lane : ℕ)
  | calling (lane : ℕ) (logical : LogicalInvocationRequest)
  | forwarded (lane : ℕ) (garage call : ℕ)
  | finished
  deriving DecidableEq, Repr

/-- A guest, by its Garage and its call there. -/
structure Guest where
  garage : ℕ
  call : ℕ
  payload : RemotePayload
  executionId : String
  stage : GuestStage

structure Fleet where
  nodes : List Node
  guests : List Guest

inductive FleetAction where
  | arrive (g : ℕ) (request : RemoteExecutionRequest)
  | garage (g i : ℕ) (choice : Choice)
  | dispatch (g i : ℕ) (payload : RemotePayload) (executionId : String)
  | assign (e : ℕ)
  | nested (e : ℕ) (nestedCall : HttpHostState.NestedCall) (requestId : String)
  | forward (e g : ℕ) (request : RemoteExecutionRequest)
  | reject (e : ℕ)
  | answer (e : ℕ)
  | finish (e : ℕ) (outcome : Except String (Except String HttpDispatchResult))

def Choice.isDispatchEnds : Choice → Bool
  | .dispatchEnds _ => true
  | _ => false

def ExecuteStage.isWarm : ExecuteStage → Bool
  | .warm => true
  | _ => false

namespace Fleet

variable (ids : GarageIds) (library : ServiceLibrary) (sha256 : Bytes → Sha256)

/-- Garages nobody has used, given by their agents and their numbers of lanes. -/
def fresh (garages : List (GarageAgent × ℕ)) (maxInvocationDepth : ℕ) : Fleet where
  nodes := garages.map fun (agent, laneCount) =>
    ⟨.initial agent, maxInvocationDepth, [], List.replicate laneCount none⟩
  guests := []

def stepNode (s : Fleet) (g : ℕ) (a : Action) : Option Fleet :=
  (s.nodes[g]?).bind fun node => (node.garage.step a).map fun garage =>
    { s with nodes := s.nodes.set g { node with garage } }

def setStage (s : Fleet) (e : ℕ) (guest : Guest) (stage : GuestStage) : Fleet :=
  { s with guests := s.guests.set e { guest with stage } }

/-- The execution of a guest, as its Garage sees it. -/
def execution (node : Node) (call : Execute) (guest : Guest) : GuestExecution where
  garage := node.garage.agent
  maxInvocationDepth := node.maxInvocationDepth
  grants := node.grants
  request := call.request
  payload := guest.payload
  executionId := guest.executionId

/-- One step of the fleet. -/
def step (s : Fleet) : FleetAction → Option Fleet
  | .arrive g request => s.stepNode g (.arrive request)
  | .garage g i choice =>
    match (s.nodes[g]?).bind fun node => node.garage.calls[i]? with
    | some call =>
      if call.stage.isWarm || choice.isDispatchEnds then none else s.stepNode g (.call i choice)
    | none => none
  | .dispatch g i payload executionId =>
    match (s.nodes[g]?).bind fun node => node.garage.calls[i]? with
    | some call =>
      if call.stage.isWarm then
        (s.stepNode g (.call i .go)).map fun s =>
          { s with guests := s.guests ++ [⟨g, i, payload, executionId, .waiting⟩] }
      else none
    | none => none
  | .assign e =>
    match s.guests[e]? with
    | some guest =>
      match guest.stage, s.nodes[guest.garage]? with
      | .waiting, some node =>
        match node.sharedLanes.findIdx? Option.isNone with
        | some lane =>
          let nodes := s.nodes.set guest.garage
            { node with sharedLanes := node.sharedLanes.set lane (some e) }
          some ({ s with nodes }.setStage e guest (.running lane))
        | none => none
      | _, _ => none
    | none => none
  | .nested e nestedCall requestId =>
    match s.guests[e]? with
    | some guest =>
      match guest.stage, s.nodes[guest.garage]? with
      | .running lane, some node =>
        (node.garage.calls[guest.call]?).bind fun call =>
          ((execution node call guest).nested ids library sha256 nestedCall requestId).map
            fun logical => s.setStage e guest (.calling lane logical)
      | _, _ => none
    | none => none
  | .forward e g request =>
    match s.guests[e]?, s.nodes[g]? with
    | some guest, some node =>
      match guest.stage with
      | .calling lane logical =>
        if request.invocationDepth = logical.invocationDepth ∧
            request.visitedGarages = logical.visitedGarages ∧
            node.garage.agent.id ∉ logical.visitedGarages then
          (s.stepNode g (.arrive request)).map fun s =>
            s.setStage e guest (.forwarded lane g node.garage.calls.length)
        else none
      | _ => none
    | _, _ => none
  | .reject e =>
    match s.guests[e]? with
    | some guest =>
      match guest.stage with
      | .calling lane _ => some (s.setStage e guest (.running lane))
      | _ => none
    | none => none
  | .answer e =>
    match s.guests[e]? with
    | some guest =>
      match guest.stage with
      | .forwarded lane g i =>
        match (s.nodes[g]?).bind fun node => node.garage.calls[i]? with
        | some call => if call.stage.isOver then some (s.setStage e guest (.running lane)) else none
        | none => none
      | _ => none
    | none => none
  | .finish e outcome =>
    match s.guests[e]? with
    | some guest =>
      match guest.stage, s.nodes[guest.garage]? with
      | .running lane, some node =>
        (node.garage.step (.call guest.call (.dispatchEnds outcome))).map fun garage =>
          let sharedLanes := node.sharedLanes.set lane none
          let nodes := s.nodes.set guest.garage { node with garage, sharedLanes }
          { s with nodes }.setStage e guest .finished
      | _, _ => none
    | none => none

abbrev exec (s : Fleet) (as : List FleetAction) : Option Fleet :=
  Transition.exec (step ids library sha256) s as

/-! ### Lanes that wait for lanes -/

/-- The guest of call `i` of Garage `g` waits for a lane. -/
def waits (s : Fleet) (g i : ℕ) : Bool :=
  s.guests.any fun guest => guest.garage == g && guest.call == i && guest.stage == .waiting

/-- All lanes of some Garages are held by guests blocked in nested calls whose
own guests wait for lanes of these Garages. -/
def Deadlocked (s : Fleet) : Prop :=
  ∃ S : Set ℕ, S.Nonempty ∧ ∀ g ∈ S, ∃ node, s.nodes[g]? = some node ∧ node.sharedLanes ≠ [] ∧
    ∀ holder ∈ node.sharedLanes, ∃ e guest lane g' i, holder = some e ∧
      s.guests[e]? = some guest ∧ guest.stage = .forwarded lane g' i ∧ s.waits g' i = true ∧ g' ∈ S

end Fleet

end PitBox.Garage
