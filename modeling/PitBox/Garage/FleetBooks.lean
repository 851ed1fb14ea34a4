import PitBox.Garage.LaneDeadlock
import PitBox.Garage.Progress

/-!
# Guests, tasks and lanes of a fleet

A fleet keeps its books in three places: the calls of its Garages with their
tasks, the guests, and the lanes. They agree. A call was handed over exactly if
it has a guest, and its task runs until the guest has finished; a lane is held
exactly by the guest that says so; and the guest of a nested call comes after
the guest that makes it.
-/

namespace PitBox.Garage

open PitBox.Runtime Table Transition

/-- The lane that a guest says it has. -/
def GuestStage.lane? : GuestStage → Option ℕ
  | .waiting | .finished => none
  | .running lane | .calling lane _ | .forwarded lane _ _ => some lane

namespace Execute

variable {g g' : GarageAgent} {r r' : Execute} {e : Choice}

theorem step_dispatch (h : r.step g e = some (g', r')) (hwarm : r.stage.isWarm = false)
    (hends : e.isDispatchEnds = false) : r'.dispatch = r.dispatch := by
  revert h hwarm hends
  fun_cases step g r e <;> intro h hwarm hends <;> cases h
  case case16 => cases hwarm
  case case19 => cases hends
  all_goals rfl

theorem step_handOver (h : r.step g e = some (g', r')) (he : e = .go)
    (hwarm : r.stage.isWarm = true) : r'.dispatch = .running := by
  revert h he hwarm
  fun_cases step g r e <;> intro h he hwarm <;> cases h <;> cases he
  case case16 => rfl
  all_goals cases hwarm

theorem step_dispatchEnds {outcome : Except String (Except String HttpDispatchResult)}
    (h : r.step g e = some (g', r')) (he : e = .dispatchEnds outcome) :
    r.dispatch = .running ∧ r' = { r with dispatch := .finished outcome } := by
  revert h he
  fun_cases step g r e <;> intro h he <;> cases h <;> cases he
  exact ⟨rfl, rfl⟩

theorem step_dispatchEnds_agent {outcome : Except String (Except String HttpDispatchResult)}
    (h : r.step g e = some (g', r')) (he : e = .dispatchEnds outcome) : g' = g := by
  revert h he
  fun_cases step g r e <;> intro h he <;> cases h <;> cases he
  rfl

end Execute

namespace Fleet

variable {ids : GarageIds} {library : ServiceLibrary} {sha256 : Bytes → Sha256}
  {s t : Fleet} {a : FleetAction}

/-- Call `i` of Garage `g`. -/
def call? (s : Fleet) (g i : ℕ) : Option Execute :=
  (s.nodes[g]?).bind fun node => node.garage.calls[i]?

def setNode (s : Fleet) (g : ℕ) (node : Node) : Fleet := { s with nodes := s.nodes.set g node }

theorem setNode_self {g : ℕ} {node : Node} (hnode : s.nodes[g]? = some node) :
    s.setNode g node = s := by
  obtain ⟨hlt, rfl⟩ := List.getElem?_eq_some_iff.mp hnode
  rw [setNode, List.set_getElem_self]

theorem stepNode_of_step {g : ℕ} {node : Node} {garage : State} {b : Action}
    (hnode : s.nodes[g]? = some node) (hb : node.garage.step b = some garage) :
    s.stepNode g b = some (s.setNode g { node with garage }) := by
  rw [stepNode, hnode, Option.bind_some, hb, Option.map_some]
  rfl

/-- The steps of a fleet with what they ask for. -/
inductive Change (s : Fleet) : FleetAction → Fleet → Prop
  | arrive {g : ℕ} {request : RemoteExecutionRequest} {node : Node} {garage : State}
      (hnode : s.nodes[g]? = some node) (hb : node.garage.step (.arrive request) = some garage) :
    Change s (.arrive g request) (s.setNode g { node with garage })
  | garage {g i : ℕ} {choice : Choice} {node : Node} {call : Execute} {garage : State}
      (hnode : s.nodes[g]? = some node) (hcall : node.garage.calls[i]? = some call)
      (hwarm : call.stage.isWarm = false) (hends : choice.isDispatchEnds = false)
      (hb : node.garage.step (.call i choice) = some garage) :
    Change s (.garage g i choice) (s.setNode g { node with garage })
  | dispatch {g i : ℕ} {payload : RemotePayload} {id : String} {node : Node} {call : Execute}
      {garage : State} (hnode : s.nodes[g]? = some node)
      (hcall : node.garage.calls[i]? = some call) (hwarm : call.stage.isWarm = true)
      (hb : node.garage.step (.call i .go) = some garage) :
    Change s (.dispatch g i payload id)
      { s.setNode g { node with garage } with
        guests := s.guests ++ [⟨g, i, payload, id, .waiting⟩] }
  | assign {e : ℕ} {guest : Guest} {node : Node} {lane : ℕ} (he : s.guests[e]? = some guest)
      (hstage : guest.stage = .waiting) (hnode : s.nodes[guest.garage]? = some node)
      (hlane : node.sharedLanes.findIdx? Option.isNone = some lane) :
    Change s (.assign e)
      ((s.setNode guest.garage
        { node with sharedLanes := node.sharedLanes.set lane (some e) }).setStage e guest
          (.running lane))
  | nested {e : ℕ} {nestedCall : HttpHostState.NestedCall} {requestId : String} {guest : Guest}
      {lane : ℕ} {logical : LogicalInvocationRequest} (he : s.guests[e]? = some guest)
      (hstage : guest.stage = .running lane) :
    Change s (.nested e nestedCall requestId) (s.setStage e guest (.calling lane logical))
  | forward {e g : ℕ} {request : RemoteExecutionRequest} {guest : Guest} {node : Node}
      {lane : ℕ} {logical : LogicalInvocationRequest} {garage : State}
      (he : s.guests[e]? = some guest) (hstage : guest.stage = .calling lane logical)
      (hnode : s.nodes[g]? = some node) (hb : node.garage.step (.arrive request) = some garage) :
    Change s (.forward e g request)
      ((s.setNode g { node with garage }).setStage e guest
        (.forwarded lane g node.garage.calls.length))
  | reject {e : ℕ} {guest : Guest} {lane : ℕ} {logical : LogicalInvocationRequest}
      (he : s.guests[e]? = some guest) (hstage : guest.stage = .calling lane logical) :
    Change s (.reject e) (s.setStage e guest (.running lane))
  | answer {e : ℕ} {guest : Guest} {lane g i : ℕ} {call : Execute}
      (he : s.guests[e]? = some guest) (hstage : guest.stage = .forwarded lane g i)
      (hcall : s.call? g i = some call) (hover : call.stage.isOver = true) :
    Change s (.answer e) (s.setStage e guest (.running lane))
  | finish {e : ℕ} {outcome : Except String (Except String HttpDispatchResult)} {guest : Guest}
      {node : Node} {lane : ℕ} {garage : State} (he : s.guests[e]? = some guest)
      (hstage : guest.stage = .running lane) (hnode : s.nodes[guest.garage]? = some node)
      (hb : node.garage.step (.call guest.call (.dispatchEnds outcome)) = some garage) :
    Change s (.finish e outcome)
      ((s.setNode guest.garage
        { node with garage, sharedLanes := node.sharedLanes.set lane none }).setStage e guest
          .finished)

theorem step_change (h : s.step ids library sha256 a = some t) : Change s a t := by
  revert h
  fun_cases step ids library sha256 s a <;> intro h
  all_goals try cases h
  case case1 =>
    obtain ⟨node, garage, hnode, hb, rfl⟩ := stepNode_eq_some h
    exact .arrive hnode hb
  case case3 hcall hguard =>
    obtain ⟨node, garage, hnode, hb, rfl⟩ := stepNode_eq_some h
    rw [hnode] at hcall
    rw [Bool.or_eq_true, not_or, Bool.not_eq_true, Bool.not_eq_true] at hguard
    exact .garage hnode hcall hguard.1 hguard.2 hb
  case case5 hcall hwarm =>
    obtain ⟨u, hu, rfl⟩ := Option.map_eq_some_iff.mp h
    obtain ⟨node, garage, hnode, hb, rfl⟩ := stepNode_eq_some hu
    rw [hnode] at hcall
    exact .dispatch hnode hcall hwarm hb
  case case8 guest he node hnode hstage lane hlane nodes => exact .assign he hstage hnode hlane
  case case12 guest he lane node hnode hstage =>
    obtain ⟨call, -, h⟩ := Option.bind_eq_some_iff.mp h
    obtain ⟨logical, -, rfl⟩ := Option.map_eq_some_iff.mp h
    exact .nested he hstage
  case case15 guest node hnode he lane logical hstage hforward =>
    obtain ⟨u, hu, rfl⟩ := Option.map_eq_some_iff.mp h
    obtain ⟨node', garage, hnode', hb, rfl⟩ := stepNode_eq_some hu
    obtain rfl := Option.some.inj (hnode.symm.trans hnode')
    exact .forward he hstage hnode hb
  case case19 guest he lane logical hstage => exact .reject he hstage
  case case22 guest he lane g i hstage call hcall hover => exact .answer he hstage hcall hover
  case case27 guest he lane node hnode hstage =>
    obtain ⟨garage, hb, rfl⟩ := Option.map_eq_some_iff.mp h
    exact .finish he hstage hnode hb

/-! ### What a step touches -/

theorem call?_eq_some {g i : ℕ} {call : Execute} : s.call? g i = some call ↔
    ∃ node, s.nodes[g]? = some node ∧ node.garage.calls[i]? = some call := by
  rw [call?, Option.bind_eq_some_iff]

theorem getElem?_setStage {e x : ℕ} {guest : Guest} {stage : GuestStage}
    (he : s.guests[e]? = some guest) : (s.setStage e guest stage).guests[x]? =
      if x = e then some { guest with stage } else s.guests[x]? :=
  getElem?_set_of_some he _ x

theorem exists_of_setStage {e x : ℕ} {guest y : Guest} {stage : GuestStage}
    (he : s.guests[e]? = some guest) (hy : (s.setStage e guest stage).guests[x]? = some y) :
    ∃ z, s.guests[x]? = some z ∧ z.garage = y.garage ∧ z.call = y.call ∧
      (x = e ∧ z = guest ∧ y.stage = stage ∨ x ≠ e ∧ z = y) := by
  rw [getElem?_setStage he] at hy
  split_ifs at hy with hx
  · cases hy
    exact ⟨guest, hx ▸ he, rfl, rfl, .inl ⟨hx, rfl, rfl⟩⟩
  · exact ⟨y, hy, rfl, rfl, .inr ⟨hx, rfl⟩⟩

theorem call?_setNode {g x i : ℕ} {node node' : Node} (hnode : s.nodes[g]? = some node) :
    (s.setNode g node').call? x i = if x = g then node'.garage.calls[i]? else s.call? x i := by
  unfold call? setNode
  rcases eq_or_ne x g with rfl | hne
  · rw [if_pos rfl, List.getElem?_set_self (List.getElem?_eq_some_iff.mp hnode).1, Option.bind_some]
  · rw [if_neg hne, List.getElem?_set_ne hne.symm]

theorem slot_setNode {g lane x l : ℕ} {v : Option ℕ} {node node' : Node}
    (hnode : s.nodes[g]? = some node) (hlanes : node'.sharedLanes = node.sharedLanes.set lane v)
    (hlane : lane < node.sharedLanes.length) :
    (s.setNode g node').slot x l = if x = g ∧ l = lane then v else s.slot x l := by
  unfold slot setNode
  rcases eq_or_ne x g with rfl | hne
  · rw [List.getElem?_set_self (List.getElem?_eq_some_iff.mp hnode).1, Option.bind_some, hnode,
      Option.bind_some, hlanes]
    rcases eq_or_ne l lane with rfl | hne
    · rw [if_pos ⟨rfl, rfl⟩, List.getElem?_set_self hlane]
      rfl
    · rw [if_neg fun h => hne h.2, List.getElem?_set_ne hne.symm]
  · rw [if_neg fun h => hne h.1, List.getElem?_set_ne hne.symm]

/-- What the steps of Garages and the changes of lanes keep, every step keeps of
every node. -/
theorem step_keepsNodes {P : Node → Prop}
    (hgarage : ∀ node b garage, P node → node.garage.step b = some garage →
      P { node with garage })
    (hlane : ∀ node lane v, P node → P { node with sharedLanes := node.sharedLanes.set lane v })
    (hs : ∀ node ∈ s.nodes, P node) (h : s.step ids library sha256 a = some t) :
    ∀ node ∈ t.nodes, P node := by
  have hset {g : ℕ} {node : Node} (hnode : P node) : ∀ x ∈ s.nodes.set g node, P x := by
    intro x hx
    rcases List.mem_or_eq_of_mem_set hx with hx | rfl
    · exact hs x hx
    · exact hnode
  have hmem {g : ℕ} {node : Node} (hnode : s.nodes[g]? = some node) : P node :=
    hs node (List.mem_of_getElem? hnode)
  cases step_change h with
  | arrive hnode hb => exact hset (hgarage _ _ _ (hmem hnode) hb)
  | garage hnode hcall hwarm hends hb => exact hset (hgarage _ _ _ (hmem hnode) hb)
  | dispatch hnode hcall hwarm hb => exact hset (hgarage _ _ _ (hmem hnode) hb)
  | assign he hstage hnode hfree => exact hset (hlane _ _ _ (hmem hnode))
  | nested he hstage => exact hs
  | forward he hstage hnode hb => exact hset (hgarage _ _ _ (hmem hnode) hb)
  | reject he hstage => exact hs
  | answer he hstage hcall hover => exact hs
  | finish he hstage hnode hb => exact hset (hlane _ _ _ (hgarage _ _ _ (hmem hnode) hb))

/-! ### Lanes -/

def lane? (s : Fleet) (e : ℕ) : Option (ℕ × ℕ) :=
  (s.guests[e]?).bind fun guest => guest.stage.lane?.map (guest.garage, ·)

def LanesAgree (s : Fleet) : Prop := ∀ g l e, s.slot g l = some e ↔ s.lane? e = some (g, l)

theorem lane?_eq_some {e g l : ℕ} : s.lane? e = some (g, l) ↔
    ∃ guest, s.guests[e]? = some guest ∧ guest.garage = g ∧ guest.stage.lane? = some l := by
  simp only [lane?, Option.bind_eq_some_iff, Option.map_eq_some_iff, Prod.mk.injEq]
  constructor
  · rintro ⟨guest, hguest, l', hlane, rfl, rfl⟩
    exact ⟨guest, hguest, rfl, hlane⟩
  · rintro ⟨guest, hguest, rfl, hlane⟩
    exact ⟨guest, hguest, l, hlane, rfl, rfl⟩

theorem lane?_setStage {e x : ℕ} {guest : Guest} {stage : GuestStage}
    (he : s.guests[e]? = some guest) (ht : t.guests = (s.setStage e guest stage).guests) :
    t.lane? x = if x = e then stage.lane?.map (guest.garage, ·) else s.lane? x := by
  unfold lane?
  rw [ht, getElem?_setStage he]
  split_ifs <;> rfl

theorem lane?_setStage_same {e x : ℕ} {guest : Guest} {stage : GuestStage}
    (he : s.guests[e]? = some guest) (hsame : stage.lane? = guest.stage.lane?)
    (ht : t.guests = (s.setStage e guest stage).guests) : t.lane? x = s.lane? x := by
  rw [lane?_setStage he ht]
  split_ifs with h
  · rw [h, lane?, he, Option.bind_some, hsame]
  · rfl

theorem LanesAgree.of_same (h : s.LanesAgree) (hslot : ∀ g l, t.slot g l = s.slot g l)
    (hlane : ∀ e, t.lane? e = s.lane? e) : t.LanesAgree := by
  intro g l e
  rw [hslot, hlane]
  exact h g l e

/-- A free lane is given to a guest that has none. -/
theorem LanesAgree.give (h : s.LanesAgree) {g lane e : ℕ} (hfree : s.slot g lane = none)
    (hnone : s.lane? e = none)
    (hslot : ∀ x l, t.slot x l = if x = g ∧ l = lane then some e else s.slot x l)
    (hlane : ∀ x, t.lane? x = if x = e then some (g, lane) else s.lane? x) : t.LanesAgree := by
  intro x l y
  rw [hslot, hlane]
  have hold := h x l y
  by_cases hx : x = g ∧ l = lane
  · obtain ⟨rfl, rfl⟩ := hx
    rw [hfree] at hold
    by_cases hy : y = e
    · simp [hy]
    · simpa [hy, Ne.symm hy] using hold
  · have hpair : (g, lane) ≠ (x, l) := by
      rintro heq
      cases heq
      exact hx ⟨rfl, rfl⟩
    by_cases hy : y = e
    · rw [hy, hnone] at hold
      simpa [hx, hy, hpair] using hold
    · simpa [hx, hy] using hold

/-- A guest gives its lane back. -/
theorem LanesAgree.giveBack (h : s.LanesAgree) {g lane e : ℕ} (hheld : s.lane? e = some (g, lane))
    (hslot : ∀ x l, t.slot x l = if x = g ∧ l = lane then none else s.slot x l)
    (hlane : ∀ x, t.lane? x = if x = e then none else s.lane? x) : t.LanesAgree := by
  intro x l y
  rw [hslot, hlane]
  have hold := h x l y
  by_cases hx : x = g ∧ l = lane
  · obtain ⟨rfl, rfl⟩ := hx
    rw [(h x l e).mpr hheld] at hold
    by_cases hy : y = e
    · simp [hy]
    · simpa [hy, Ne.symm hy] using hold
  · have hpair : (g, lane) ≠ (x, l) := by
      rintro heq
      cases heq
      exact hx ⟨rfl, rfl⟩
    by_cases hy : y = e
    · rw [hy, hheld] at hold
      simpa [hx, hy, hpair] using hold
    · simpa [hx, hy] using hold

theorem step_lanesAgree (hs : s.LanesAgree) (h : s.step ids library sha256 a = some t) :
    t.LanesAgree := by
  cases step_change h with
  | arrive hnode hb => exact hs.of_same (slot_set_self hnode rfl rfl) fun _ => rfl
  | garage hnode hcall hwarm hends hb => exact hs.of_same (slot_set_self hnode rfl rfl) fun _ => rfl
  | @dispatch g i payload id node call garage hnode hcall hwarm hb =>
    refine hs.of_same (slot_set_self hnode rfl rfl) fun e => ?_
    -- the new guest has no lane
    unfold lane?
    rcases Nat.lt_trichotomy e s.guests.length with hlt | rfl | hgt
    · rw [List.getElem?_append_left hlt]
    · rw [List.getElem?_concat_length, List.getElem?_eq_none le_rfl]
      rfl
    · rw [List.getElem?_eq_none (by simpa using hgt), List.getElem?_eq_none hgt.le]
  | @assign e guest node lane he hstage hnode hlane =>
    obtain ⟨hlt, hfree, -⟩ := List.findIdx?_eq_some_iff_getElem.mp hlane
    have hnone : s.slot guest.garage lane = none := by
      rw [slot, hnode, Option.bind_some, List.getElem?_eq_getElem hlt,
        Option.isNone_iff_eq_none.mp hfree]
      rfl
    have hwaits : s.lane? e = none := by
      rw [lane?, he, Option.bind_some, hstage]
      rfl
    exact hs.give hnone hwaits (fun x l => slot_setNode hnode rfl hlt)
      fun x => lane?_setStage he rfl
  | nested he hstage =>
    exact hs.of_same (fun _ _ => rfl) fun _ => lane?_setStage_same he (by rw [hstage]; rfl) rfl
  | forward he hstage hnode hb =>
    exact hs.of_same (slot_set_self hnode rfl rfl) fun _ =>
      lane?_setStage_same he (by rw [hstage]; rfl) rfl
  | reject he hstage =>
    exact hs.of_same (fun _ _ => rfl) fun _ => lane?_setStage_same he (by rw [hstage]; rfl) rfl
  | answer he hstage hcall hover =>
    exact hs.of_same (fun _ _ => rfl) fun _ => lane?_setStage_same he (by rw [hstage]; rfl) rfl
  | @finish e outcome guest node lane garage he hstage hnode hb =>
    have hheld : s.lane? e = some (guest.garage, lane) :=
      lane?_eq_some.mpr ⟨guest, he, rfl, by rw [hstage]; rfl⟩
    obtain ⟨x, hx, hlane⟩ := slot_eq_some.mp ((hs _ _ _).mpr hheld)
    obtain rfl := Option.some.inj (hnode.symm.trans hx)
    exact hs.giveBack hheld
      (fun x l => slot_setNode hnode rfl (List.getElem?_eq_some_iff.mp hlane).1)
      fun x => lane?_setStage he rfl

/-! ### Tasks -/

/-- The dispatch task of call `i` of Garage `g`. -/
def task? (s : Fleet) (g i : ℕ) : Option (BlockingTask HttpDispatchResult) :=
  (s.call? g i).map Execute.dispatch

/-- The calls that were handed over are those of the guests, each of one guest,
and the task of a call runs until its guest has finished. -/
structure TasksAgree (s : Fleet) : Prop where
  served : ∀ g i task, s.task? g i = some task → task.isSpawned = true →
    ∃ (e : ℕ) (guest : Guest), s.guests[e]? = some guest ∧ guest.garage = g ∧ guest.call = i
  handed : ∀ (e : ℕ) (guest : Guest), s.guests[e]? = some guest → ∃ task,
    s.task? guest.garage guest.call = some task ∧ task.isSpawned = true ∧
      (task.isRunning = true ↔ guest.stage ≠ .finished)
  single : ∀ (e e' : ℕ) (guest guest' : Guest), s.guests[e]? = some guest →
    s.guests[e']? = some guest' →
    guest.garage = guest'.garage → guest.call = guest'.call → e = e'

def TasksStay (s t : Fleet) : Prop :=
  (∀ g i task, s.task? g i = some task → t.task? g i = some task) ∧
    ∀ g i task, t.task? g i = some task → task.isSpawned = true → s.task? g i = some task

theorem tasksStay_arrive {g : ℕ} {request : RemoteExecutionRequest} {node : Node}
    {garage : State} (hnode : s.nodes[g]? = some node)
    (hb : node.garage.step (.arrive request) = some garage) :
    TasksStay s (s.setNode g { node with garage }) := by
  cases State.step_cases hb with
  | arrive =>
    have hcall (x i : ℕ) : (s.setNode g { node with
        garage := { node.garage with calls := node.garage.calls ++ [.new request] } }).call? x i =
          if x = g then (node.garage.calls ++ [.new request])[i]? else s.call? x i :=
      call?_setNode hnode
    have hold (i : ℕ) : s.call? g i = node.garage.calls[i]? := by
      rw [call?, hnode, Option.bind_some]
    constructor
    · intro x i task h
      unfold task? at h ⊢
      rw [hcall]
      split_ifs with hx
      · rw [hx, hold] at h
        have hlt : i < node.garage.calls.length := by
          by_contra hge
          rw [List.getElem?_eq_none (not_lt.mp hge)] at h
          cases h
        rw [List.getElem?_append_left hlt]
        exact h
      · exact h
    · intro x i task h hspawned
      unfold task? at h ⊢
      rw [hcall] at h
      split_ifs at h with hx
      · rw [hx, hold]
        rcases Nat.lt_trichotomy i node.garage.calls.length with hlt | rfl | hgt
        · rwa [List.getElem?_append_left hlt] at h
        · rw [List.getElem?_concat_length] at h
          cases h
          cases hspawned
        · rw [List.getElem?_eq_none (by simpa using hgt)] at h
          cases h
      · exact h

/-- The tasks after a step of one call. -/
theorem exists_call {g i : ℕ} {choice : Choice} {node : Node} {garage : State} (node' : Node)
    (hnode : s.nodes[g]? = some node) (hb : node.garage.step (.call i choice) = some garage)
    (hgarage : node'.garage = garage) :
    ∃ call agent call', node.garage.calls[i]? = some call ∧
      call.step node.garage.agent choice = some (agent, call') ∧
      s.task? g i = some call.dispatch ∧ ∀ x j, (s.setNode g node').task? x j =
        if x = g ∧ j = i then some call'.dispatch else s.task? x j := by
  cases State.step_cases hb with
  | @call _ _ call agent call' hcall hstep =>
    refine ⟨call, agent, call', hcall, hstep, ?_, fun x j => ?_⟩
    · rw [task?, call?, hnode, Option.bind_some, hcall, Option.map_some]
    · unfold task?
      rw [call?_setNode hnode]
      rcases eq_or_ne x g with rfl | hne
      · rw [if_pos rfl, hgarage, call?, hnode, Option.bind_some]
        rcases eq_or_ne j i with rfl | hne
        · rw [if_pos ⟨rfl, rfl⟩, List.getElem?_set_self (List.getElem?_eq_some_iff.mp hcall).1]
          rfl
        · rw [if_neg fun h => hne h.2, List.getElem?_set_ne hne.symm]
      · rw [if_neg hne, if_neg fun h => hne h.1]

theorem tasksStay_of_eq (h : ∀ x j, t.task? x j = s.task? x j) : TasksStay s t :=
  ⟨fun g i _ htask => (h g i).trans htask, fun g i _ htask _ => (h g i).symm.trans htask⟩

theorem TasksAgree.of_tasks (hs : s.TasksAgree) (hstay : TasksStay s t)
    (hguests : t.guests = s.guests) : t.TasksAgree where
  served g i task htask hspawned := by
    rw [hguests]
    exact hs.served g i task (hstay.2 g i task htask hspawned) hspawned
  handed e guest hguest := by
    rw [hguests] at hguest
    obtain ⟨task, htask, hspawned, hruns⟩ := hs.handed e guest hguest
    exact ⟨task, hstay.1 _ _ _ htask, hspawned, hruns⟩
  single e e' guest guest' he he' := by
    rw [hguests] at he he'
    exact hs.single e e' guest guest' he he'

/-- A guest that has not finished goes on. -/
theorem TasksAgree.of_stage (hs : s.TasksAgree) {e : ℕ} {guest : Guest} {stage : GuestStage}
    (he : s.guests[e]? = some guest) (hold : guest.stage ≠ .finished) (hnew : stage ≠ .finished) :
    (s.setStage e guest stage).TasksAgree := by
  constructor
  · intro g i task htask hspawned
    obtain ⟨x, y, hy, hgarage, hcall⟩ := hs.served g i task htask hspawned
    rcases eq_or_ne x e with rfl | hne
    · obtain rfl := Option.some.inj (he.symm.trans hy)
      exact ⟨x, { guest with stage }, by rw [getElem?_setStage he, if_pos rfl], hgarage, hcall⟩
    · exact ⟨x, y, by rw [getElem?_setStage he, if_neg hne, hy], hgarage, hcall⟩
  · intro x y hy
    obtain ⟨z, hz, hgarage, hcall, hstage⟩ := exists_of_setStage he hy
    have hfinished : y.stage ≠ .finished ↔ z.stage ≠ .finished := by
      rcases hstage with ⟨-, rfl, hstage⟩ | ⟨-, rfl⟩
      · rw [hstage]
        exact iff_of_true hnew hold
      · rfl
    rw [← hgarage, ← hcall, hfinished]
    exact hs.handed x z hz
  · intro x x' y y' hy hy' hgarage hcall
    obtain ⟨z, hz, hg, hc, -⟩ := exists_of_setStage he hy
    obtain ⟨z', hz', hg', hc', -⟩ := exists_of_setStage he hy'
    exact hs.single x x' z z' hz hz' (by rw [hg, hg', hgarage]) (by rw [hc, hc', hcall])

/-- A call without a guest is handed over. -/
theorem TasksAgree.push (hs : s.TasksAgree) {g i : ℕ} {payload : RemotePayload} {id : String}
    (hold : s.task? g i = some .unspawned)
    (htask : ∀ x j, t.task? x j = if x = g ∧ j = i then some .running else s.task? x j)
    (hguests : t.guests = s.guests ++ [⟨g, i, payload, id, .waiting⟩]) : t.TasksAgree := by
  have hnew {e : ℕ} {guest : Guest} (he : s.guests[e]? = some guest) :
      ¬ (guest.garage = g ∧ guest.call = i) := by
    rintro ⟨rfl, rfl⟩
    obtain ⟨task, htask, hspawned, -⟩ := hs.handed e guest he
    cases hold.symm.trans htask
    cases hspawned
  constructor
  · intro x j task h hspawned
    rw [htask] at h
    rw [hguests]
    split_ifs at h with hx
    · exact ⟨s.guests.length, _, List.getElem?_concat_length, hx.1.symm, hx.2.symm⟩
    · obtain ⟨e, guest, he, hgarage, hcall⟩ := hs.served x j task h hspawned
      exact ⟨e, guest, getElem?_append_of_some he, hgarage, hcall⟩
  · intro e guest he
    rw [hguests] at he
    rcases getElem?_concat_eq_some he with he | ⟨-, rfl⟩
    · rw [htask, if_neg (hnew he)]
      exact hs.handed e guest he
    · exact ⟨.running, by rw [htask, if_pos ⟨rfl, rfl⟩], rfl, by simp [BlockingTask.isRunning]⟩
  · intro e e' guest guest' he he' hgarage hcall
    rw [hguests] at he he'
    rcases getElem?_concat_eq_some he with he | ⟨rfl, rfl⟩ <;>
      rcases getElem?_concat_eq_some he' with he' | ⟨rfl, rfl⟩
    · exact hs.single e e' guest guest' he he' hgarage hcall
    · exact absurd ⟨hgarage, hcall⟩ (hnew he)
    · exact absurd ⟨hgarage.symm, hcall.symm⟩ (hnew he')
    · rfl

/-- A guest finishes, and with it the task of its call. -/
theorem TasksAgree.finish (hs : s.TasksAgree) {e : ℕ} {guest : Guest}
    {outcome : Except String (Except String HttpDispatchResult)} (he : s.guests[e]? = some guest)
    (htask : ∀ x j, t.task? x j =
      if x = guest.garage ∧ j = guest.call then some (.finished outcome) else s.task? x j)
    (hguests : t.guests = (s.setStage e guest .finished).guests) : t.TasksAgree := by
  constructor
  · intro g i task h hspawned
    -- a task that is spawned now was spawned before
    have hbefore : ∃ task, s.task? g i = some task ∧ task.isSpawned = true := by
      rw [htask] at h
      split_ifs at h with hx
      · obtain ⟨task, hold, hspawned, -⟩ := hs.handed e guest he
        exact ⟨task, by rw [hx.1, hx.2, hold], hspawned⟩
      · exact ⟨task, h, hspawned⟩
    obtain ⟨task, hold, hspawned⟩ := hbefore
    obtain ⟨x, y, hy, hgarage, hcall⟩ := hs.served g i task hold hspawned
    rcases eq_or_ne x e with rfl | hne
    · obtain rfl := Option.some.inj (he.symm.trans hy)
      exact ⟨x, { guest with stage := .finished },
        by rw [hguests, getElem?_setStage he, if_pos rfl], hgarage, hcall⟩
    · exact ⟨x, y, by rw [hguests, getElem?_setStage he, if_neg hne, hy], hgarage, hcall⟩
  · intro x y hy
    rw [hguests] at hy
    obtain ⟨z, hz, hgarage, hcall, ⟨rfl, rfl, hfinished⟩ | ⟨hne, rfl⟩⟩ := exists_of_setStage he hy
    · refine ⟨.finished outcome, ?_, rfl, by simp [BlockingTask.isRunning, hfinished]⟩
      rw [htask, if_pos ⟨hgarage.symm, hcall.symm⟩]
    · rw [htask, if_neg fun h => hne (hs.single x e z guest hz he h.1 h.2)]
      exact hs.handed x z hz
  · intro x x' y y' hy hy' hgarage hcall
    rw [hguests] at hy hy'
    obtain ⟨z, hz, hg, hc, -⟩ := exists_of_setStage he hy
    obtain ⟨z', hz', hg', hc', -⟩ := exists_of_setStage he hy'
    exact hs.single x x' z z' hz hz' (by rw [hg, hg', hgarage]) (by rw [hc, hc', hcall])

theorem step_tasksAgree (hcons : ∀ node ∈ s.nodes, ∀ call ∈ node.garage.calls, call.Consistent)
    (hs : s.TasksAgree) (h : s.step ids library sha256 a = some t) : t.TasksAgree := by
  cases step_change h with
  | arrive hnode hb => exact hs.of_tasks (tasksStay_arrive hnode hb) rfl
  | @garage g i choice node call garage hnode hcall hwarm hends hb =>
    obtain ⟨call', agent, r', hi, hstep, hold, htask⟩ :=
      exists_call { node with garage } hnode hb rfl
    obtain rfl := Option.some.inj (hcall.symm.trans hi)
    rw [Execute.step_dispatch hstep hwarm hends] at htask
    refine hs.of_tasks (tasksStay_of_eq fun x j => ?_) rfl
    rw [htask]
    split_ifs with h
    · rw [h.1, h.2, hold]
    · rfl
  | @dispatch g i payload id node call garage hnode hcall hwarm hb =>
    obtain ⟨call', agent, r', hi, hstep, hold, htask⟩ :=
      exists_call { node with garage } hnode hb rfl
    obtain rfl := Option.some.inj (hcall.symm.trans hi)
    have hunspawned : call.dispatch = .unspawned := by
      have hcall := hcons node (List.mem_of_getElem? hnode) call (List.mem_of_getElem? hcall)
      revert hcall hwarm
      unfold Execute.Consistent ExecuteStage.isWarm
      cases call.stage <;> simp
    rw [Execute.step_handOver hstep rfl hwarm] at htask
    rw [hunspawned] at hold
    exact hs.push hold htask rfl
  | @assign e guest node lane he hstage hnode hlane =>
    have hsame (x j : ℕ) : task? (s.setNode guest.garage
        { node with sharedLanes := node.sharedLanes.set lane (some e) }) x j = s.task? x j := by
      unfold task?
      rw [call?_setNode hnode]
      split_ifs with h
      · rw [h, call?, hnode, Option.bind_some]
      · rfl
    exact (hs.of_tasks (tasksStay_of_eq hsame) rfl).of_stage he (by simp [hstage]) (by simp)
  | nested he hstage => exact hs.of_stage he (by simp [hstage]) (by simp)
  | forward he hstage hnode hb =>
    have hstay := hs.of_tasks (tasksStay_arrive hnode hb) rfl
    exact hstay.of_stage he (by simp [hstage]) (by simp)
  | reject he hstage => exact hs.of_stage he (by simp [hstage]) (by simp)
  | answer he hstage hcall hover => exact hs.of_stage he (by simp [hstage]) (by simp)
  | @finish e outcome guest node lane garage he hstage hnode hb =>
    obtain ⟨call, agent, r', hi, hstep, hold, htask⟩ := exists_call { node with
      garage, sharedLanes := node.sharedLanes.set lane none } hnode hb rfl
    obtain ⟨hruns, rfl⟩ := Execute.step_dispatchEnds hstep rfl
    exact hs.finish he htask rfl

/-! ### Nested calls -/

/-- The guest of a nested call comes after the guest that makes it. -/
def CalleesLater (s : Fleet) : Prop :=
  ∀ (e : ℕ) (guest : Guest) (lane g i : ℕ), s.guests[e]? = some guest →
    guest.stage = .forwarded lane g i → HasCall s.nodes g i ∧
      ∀ (e' : ℕ) (guest' : Guest), s.guests[e']? = some guest' → guest'.garage = g →
        guest'.call = i → e < e'

theorem CalleesLater.of_nodes (hs : s.CalleesLater) {g : ℕ} {node node' : Node}
    (hnode : s.nodes[g]? = some node)
    (hle : node.garage.calls.length ≤ node'.garage.calls.length) :
    (s.setNode g node').CalleesLater := by
  intro e guest lane x i he hstage
  obtain ⟨hknown, hlater⟩ := hs e guest lane x i he hstage
  exact ⟨hknown.set hnode hle, hlater⟩

theorem CalleesLater.of_stage (hs : s.CalleesLater) {e : ℕ} {guest : Guest} {stage : GuestStage}
    (he : s.guests[e]? = some guest) (hstage : ∀ lane g i, stage ≠ .forwarded lane g i) :
    (s.setStage e guest stage).CalleesLater := by
  intro x y lane g i hy hforwarded
  obtain ⟨z, hz, -, -, ⟨-, -, hset⟩ | ⟨-, rfl⟩⟩ := exists_of_setStage he hy
  · exact absurd (hset.symm.trans hforwarded) (hstage lane g i)
  · obtain ⟨hknown, hlater⟩ := hs x z lane g i hz hforwarded
    refine ⟨hknown, fun x' y' hy' hgarage hcall => ?_⟩
    obtain ⟨z', hz', hg, hc, -⟩ := exists_of_setStage he hy'
    exact hlater x' z' hz' (hg.trans hgarage) (hc.trans hcall)

theorem CalleesLater.forward (hs : s.CalleesLater) {e lane g i : ℕ} {guest : Guest}
    (he : s.guests[e]? = some guest) (hknown : HasCall s.nodes g i)
    (hnew : ∀ guest' ∈ s.guests, ¬ (guest'.garage = g ∧ guest'.call = i)) :
    (s.setStage e guest (.forwarded lane g i)).CalleesLater := by
  intro x y lane' g' i' hy hforwarded
  obtain ⟨z, hz, -, -, ⟨-, -, hset⟩ | ⟨-, rfl⟩⟩ := exists_of_setStage he hy
  · obtain ⟨-, rfl, rfl⟩ : lane = lane' ∧ g = g' ∧ i = i' := by
      simpa using hset.symm.trans hforwarded
    refine ⟨hknown, fun x' y' hy' hgarage hcall => ?_⟩
    obtain ⟨z', hz', hg, hc, -⟩ := exists_of_setStage he hy'
    exact absurd ⟨hg.trans hgarage, hc.trans hcall⟩ (hnew z' (List.mem_of_getElem? hz'))
  · obtain ⟨hknown, hlater⟩ := hs x z lane' g' i' hz hforwarded
    refine ⟨hknown, fun x' y' hy' hgarage hcall => ?_⟩
    obtain ⟨z', hz', hg, hc, -⟩ := exists_of_setStage he hy'
    exact hlater x' z' hz' (hg.trans hgarage) (hc.trans hcall)

theorem step_calleesLater (hknown : s.CallsKnown) (hs : s.CalleesLater)
    (h : s.step ids library sha256 a = some t) : t.CalleesLater := by
  cases step_change h with
  | arrive hnode hb => exact hs.of_nodes hnode (calls_length_le hb)
  | garage hnode hcall hwarm hends hb => exact hs.of_nodes hnode (calls_length_le hb)
  | @dispatch g i payload id node call garage hnode hcall hwarm hb =>
    intro e guest lane x j he hstage
    rcases getElem?_concat_eq_some he with he | ⟨-, rfl⟩
    · obtain ⟨hcall, hlater⟩ := hs e guest lane x j he hstage
      refine ⟨hcall.set hnode (calls_length_le hb), fun e' guest' he' hgarage hcall => ?_⟩
      rcases getElem?_concat_eq_some he' with he' | ⟨rfl, rfl⟩
      · exact hlater e' guest' he' hgarage hcall
      · exact (List.getElem?_eq_some_iff.mp he).1
    · cases hstage
  | assign he hstage hnode hlane =>
    refine CalleesLater.of_stage (hs.of_nodes hnode ?_) he ?_
    · exact le_rfl
    · simp
  | nested he hstage => exact hs.of_stage he (by simp)
  | @forward e g request guest node lane logical garage he hstage hnode hb =>
    have hnodes : (s.setNode g { node with garage }).CalleesLater :=
      hs.of_nodes hnode (calls_length_le hb)
    cases State.step_cases hb with
    | arrive =>
      refine hnodes.forward he ⟨_, List.getElem?_set_self (List.getElem?_eq_some_iff.mp hnode).1,
        by simp⟩ fun guest' hguest' hcall => ?_
      obtain ⟨node', hnode', hlt⟩ := hknown guest' hguest'
      rw [hcall.1, hnode] at hnode'
      obtain rfl := Option.some.inj hnode'
      exact hlt.ne hcall.2
  | reject he hstage => exact hs.of_stage he (by simp)
  | answer he hstage hcall hover => exact hs.of_stage he (by simp)
  | finish he hstage hnode hb =>
    refine CalleesLater.of_stage (hs.of_nodes hnode ?_) he ?_
    · exact calls_length_le hb
    · simp

/-! ### All books -/

/-- What holds of a fleet of new Garages with lanes, after any steps. -/
structure Books (s : Fleet) : Prop where
  lanesAgree : s.LanesAgree
  tasksAgree : s.TasksAgree
  callsKnown : s.CallsKnown
  calleesLater : s.CalleesLater
  live : ∀ node ∈ s.nodes, ∃ maxPending maxPreparations,
    State.Live maxPending maxPreparations node.garage
  consistent : ∀ node ∈ s.nodes, ∀ call ∈ node.garage.calls, call.Consistent
  hasLanes : ∀ node ∈ s.nodes, node.sharedLanes ≠ []

/-- Agents that have done nothing yet, with their lanes. -/
def Unused (garages : List (GarageAgent × ℕ)) : Prop :=
  ∀ p ∈ garages, 0 < p.2 ∧ ∃ id protocolVersion maxPending maxPreparations,
    p.1 = .new id protocolVersion maxPending maxPreparations

theorem books_fresh {garages : List (GarageAgent × ℕ)} (h : Unused garages)
    (maxInvocationDepth : ℕ) : (fresh garages maxInvocationDepth).Books where
  lanesAgree g l e := by
    refine iff_of_false (fun hslot => ?_) (by simp [lane?, fresh])
    obtain ⟨node, hnode, hl⟩ := slot_eq_some.mp hslot
    obtain ⟨p, -, rfl⟩ := List.mem_map.mp (List.mem_of_getElem? hnode)
    exact absurd (List.mem_replicate.mp (List.mem_of_getElem? hl)).2 (by simp)
  tasksAgree := by
    have hnone (g i : ℕ) : (fresh garages maxInvocationDepth).task? g i = none := by
      rw [task?, Option.map_eq_none_iff, Option.eq_none_iff_forall_ne_some]
      intro call hcall
      obtain ⟨node, hnode, hi⟩ := call?_eq_some.mp hcall
      obtain ⟨p, -, rfl⟩ := List.mem_map.mp (List.mem_of_getElem? hnode)
      simp [State.initial] at hi
    refine ⟨fun g i task htask => ?_, by simp [fresh], by simp [fresh]⟩
    rw [hnone] at htask
    cases htask
  callsKnown := by simp [CallsKnown, fresh]
  calleesLater := by simp [CalleesLater, fresh]
  live node hnode := by
    obtain ⟨⟨agent, laneCount⟩, hp, rfl⟩ := List.mem_map.mp hnode
    obtain ⟨-, id, protocolVersion, maxPending, maxPreparations, rfl⟩ := h _ hp
    exact ⟨maxPending, maxPreparations,
      State.live_initial id protocolVersion maxPending maxPreparations⟩
  consistent node hnode := by
    obtain ⟨p, -, rfl⟩ := List.mem_map.mp hnode
    simp [State.initial]
  hasLanes node hnode := by
    obtain ⟨p, hp, rfl⟩ := List.mem_map.mp hnode
    simpa using (h p hp).1.ne'

theorem Books.step (hs : s.Books) (h : s.step ids library sha256 a = some t) : t.Books where
  lanesAgree := step_lanesAgree hs.lanesAgree h
  tasksAgree := step_tasksAgree hs.consistent hs.tasksAgree h
  callsKnown := step_callsKnown hs.callsKnown h
  calleesLater := step_calleesLater hs.callsKnown hs.calleesLater h
  live := by
    refine step_keepsNodes (fun node b garage hnode hb => ?_) (fun _ _ _ hnode => hnode) hs.live h
    obtain ⟨maxPending, maxPreparations, hlive⟩ := hnode
    exact ⟨maxPending, maxPreparations, hlive.step hb⟩
  consistent := by
    refine step_keepsNodes (fun node b garage hnode hb => ?_) (fun _ _ _ hnode => hnode)
      hs.consistent h
    exact State.step_calls (fun _ _ => rfl) Execute.step_consistent hnode hb
  hasLanes :=
    step_keepsNodes (fun _ _ _ hnode _ => hnode) (fun _ _ _ hnode => by simpa using hnode)
      hs.hasLanes h

theorem Books.exists_running (hs : s.Books) {e : ℕ} {guest : Guest} {node : Node}
    (he : s.guests[e]? = some guest) (hnode : s.nodes[guest.garage]? = some node)
    (hlive : guest.stage ≠ .finished) :
    ∃ call, node.garage.calls[guest.call]? = some call ∧ call.dispatch = .running := by
  obtain ⟨task, htask, -, hruns⟩ := hs.tasksAgree.handed e guest he
  obtain ⟨call, hcall, rfl⟩ := Option.map_eq_some_iff.mp htask
  obtain ⟨node', hnode', hi⟩ := call?_eq_some.mp hcall
  obtain rfl := Option.some.inj (hnode.symm.trans hnode')
  refine ⟨call, hi, ?_⟩
  have hrunning := hruns.mpr hlive
  revert hrunning
  cases call.dispatch <;> simp [BlockingTask.isRunning]

/-- A task that has finished stays as it is, whoever waits for it. -/
theorem step_finished (hs : s.Books) (h : s.step ids library sha256 a = some t) {x j : ℕ}
    {outcome : Except String (Except String HttpDispatchResult)}
    (hfinished : s.task? x j = some (.finished outcome)) :
    t.task? x j = some (.finished outcome) := by
  cases step_change h with
  | arrive hnode hb => exact (tasksStay_arrive hnode hb).1 x j _ hfinished
  | @garage g i choice node call garage hnode hcall hwarm hends hb =>
    obtain ⟨call', agent, r', hi, hstep, hold, htask⟩ :=
      exists_call { node with garage } hnode hb rfl
    obtain rfl := Option.some.inj (hcall.symm.trans hi)
    rw [htask, Execute.step_dispatch hstep hwarm hends]
    split_ifs with hx
    · rw [← hold, ← hx.1, ← hx.2, hfinished]
    · exact hfinished
  | @dispatch g i payload id node call garage hnode hcall hwarm hb =>
    obtain ⟨call', agent, r', hi, hstep, hold, htask⟩ :=
      exists_call { node with garage } hnode hb rfl
    obtain rfl := Option.some.inj (hcall.symm.trans hi)
    refine (htask x j).trans ?_
    split_ifs with hx
    · -- a call is handed over once
      have hconsistent :=
        hs.consistent node (List.mem_of_getElem? hnode) call (List.mem_of_getElem? hcall)
      rw [← hx.1, ← hx.2, hfinished] at hold
      have hdispatch := (Option.some.inj hold).symm
      revert hconsistent hwarm
      unfold Execute.Consistent ExecuteStage.isWarm
      cases call.stage <;> simp [hdispatch]
    · exact hfinished
  | @assign e guest node lane he hstage hnode hlane =>
    refine Eq.trans ?_ hfinished
    change task? (s.setNode guest.garage _) x j = _
    unfold task?
    rw [call?_setNode hnode]
    split_ifs with hx
    · rw [hx, call?, hnode, Option.bind_some]
    · rfl
  | nested | reject | answer => exact hfinished
  | forward he hstage hnode hb => exact (tasksStay_arrive hnode hb).1 x j _ hfinished
  | @finish e outcome' guest node lane garage he hstage hnode hb =>
    obtain ⟨call, agent, r', hi, hstep, hold, htask⟩ := exists_call { node with
      garage, sharedLanes := node.sharedLanes.set lane none } hnode hb rfl
    obtain ⟨hruns, rfl⟩ := Execute.step_dispatchEnds hstep rfl
    refine (htask x j).trans ?_
    split_ifs with hx
    · rw [← hx.1, ← hx.2, hfinished] at hold
      cases (Option.some.inj hold).trans hruns
    · exact hfinished

theorem books_exec {garages : List (GarageAgent × ℕ)} {maxInvocationDepth : ℕ}
    {as : List FleetAction} (hnew : Unused garages)
    (h : exec ids library sha256 (fresh garages maxInvocationDepth) as = some s) : s.Books :=
  exec_invariant_of_step (fun _ _ _ hs hstep => hs.step hstep) (books_fresh hnew _) h

end Fleet

end PitBox.Garage
