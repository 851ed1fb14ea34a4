import PitBox.Foundations.WaitGraph
import PitBox.Garage.Fleet

/-!
# Lanes that wait for each other

A nested call holds its caller's lane while its own guest waits for a lane like
every other request, so the Garages of a fleet with their lanes are a graph of
pools. Nothing but the hand-over of a nested call to a dispatcher can tie a
knot, and it does so in exactly the case that no way leads from its Garage to a
lane that somebody will give back.
-/

namespace PitBox.Garage

open PitBox.Runtime

/-- The Garage whose lane a guest waits for, when it is blocked in a call that waits. -/
def GuestStage.target (waits : ℕ → ℕ → Bool) : GuestStage → Option ℕ
  | .forwarded _ g i => if waits g i then some g else none
  | _ => none

namespace Fleet

variable {ids : GarageIds} {library : ServiceLibrary} {sha256 : Bytes → Sha256}
  {s t : Fleet} {a : FleetAction}

/-- The guest that has lane `l` of Garage `g`. -/
def slot (s : Fleet) (g l : ℕ) : Option ℕ :=
  (s.nodes[g]?).bind fun node => (node.sharedLanes[l]?).join

def laneCount (s : Fleet) (g : ℕ) : ℕ := (s.nodes[g]?).elim 0 (·.sharedLanes.length)

def blockedAt (s : Fleet) (waits : ℕ → ℕ → Bool) (e : ℕ) : Option ℕ :=
  (s.guests[e]?).bind (·.stage.target waits)

/-- The lanes of a fleet and what they wait for, given the calls that wait for lanes. -/
def waitGraph (s : Fleet) (waits : ℕ → ℕ → Bool) : WaitGraph ℕ where
  units := s.laneCount
  target g l := (s.slot g l).bind (s.blockedAt waits)

theorem slot_eq_some {g l e : ℕ} : s.slot g l = some e ↔
    ∃ node, s.nodes[g]? = some node ∧ node.sharedLanes[l]? = some (some e) := by
  simp only [slot, Option.bind_eq_some_iff, Option.join_eq_some_iff]

theorem blockedAt_eq_some {waits : ℕ → ℕ → Bool} {e g' : ℕ} :
    s.blockedAt waits e = some g' ↔ ∃ guest lane i, s.guests[e]? = some guest ∧
      guest.stage = .forwarded lane g' i ∧ waits g' i = true := by
  simp only [blockedAt, Option.bind_eq_some_iff]
  constructor
  · rintro ⟨guest, hguest, htarget⟩
    cases hstage : guest.stage with
    | forwarded lane g i =>
      rw [hstage, GuestStage.target] at htarget
      split_ifs at htarget with hwaits
      cases htarget
      exact ⟨guest, lane, i, hguest, hstage, hwaits⟩
    | _ =>
      rw [hstage] at htarget
      cases htarget
  · rintro ⟨guest, lane, i, hguest, hstage, hwaits⟩
    exact ⟨guest, hguest, by rw [hstage, GuestStage.target, if_pos hwaits]⟩

/-- A deadlock is a knot. -/
theorem deadlocked_iff : s.Deadlocked ↔ ∃ S, (s.waitGraph s.waits).Knot S := by
  unfold Deadlocked WaitGraph.Knot
  apply exists_congr
  intro S
  apply and_congr_right
  intro _
  apply forall₂_congr
  intro g _
  simp only [waitGraph, laneCount]
  cases hnode : s.nodes[g]? with
  | none => simp
  | some node =>
    simp only [Option.some.injEq, exists_eq_left', Option.elim_some, List.length_pos_iff]
    apply and_congr_right
    intro _
    constructor
    · intro h l hl
      obtain ⟨e, guest, lane, g', i, hholder, hguest, hstage, hwaits, hmem⟩ :=
        h _ (List.getElem_mem hl)
      refine ⟨g', hmem, ?_⟩
      have hslot : s.slot g l = some e :=
        slot_eq_some.mpr ⟨node, hnode, by rw [List.getElem?_eq_getElem hl, hholder]⟩
      rw [hslot]
      exact blockedAt_eq_some.mpr ⟨guest, lane, i, hguest, hstage, hwaits⟩
    · intro h holder hholder
      obtain ⟨l, hl, rfl⟩ := List.getElem_of_mem hholder
      obtain ⟨g', hmem, htarget⟩ := h l hl
      obtain ⟨e, hslot, hblocked⟩ := Option.bind_eq_some_iff.mp htarget
      obtain ⟨node', hnode', hlane⟩ := slot_eq_some.mp hslot
      obtain rfl := Option.some.inj (hnode.symm.trans hnode')
      obtain ⟨guest, lane, i, hguest, hstage, hwaits⟩ := blockedAt_eq_some.mp hblocked
      rw [List.getElem?_eq_getElem hl] at hlane
      exact ⟨e, guest, lane, g', i, Option.some.inj hlane, hguest, hstage, hwaits, hmem⟩

theorem not_deadlocked_iff : ¬ s.Deadlocked ↔ ∀ g, (s.waitGraph s.waits).Escapes g := by
  rw [deadlocked_iff]
  exact WaitGraph.not_exists_knot_iff

/-! ### What a step does to the lanes -/

/-- The steps of a fleet, by what they touch: a Garage on its own, a new guest,
the stage of a guest, a forwarded call, and a lane that is given or given back. -/
inductive Step (s : Fleet) : FleetAction → Fleet → Prop
  | node {a : FleetAction} {g : ℕ} {node : Node} {b : Action} {garage : State}
      (ha : ∀ g i payload id, a ≠ .dispatch g i payload id) (hnode : s.nodes[g]? = some node)
      (hb : node.garage.step b = some garage) :
    Step s a { s with nodes := s.nodes.set g { node with garage } }
  | dispatch {g i : ℕ} {payload : RemotePayload} {id : String} {node : Node} {garage : State}
      (hnode : s.nodes[g]? = some node) (hi : i < node.garage.calls.length)
      (hb : node.garage.step (.call i .go) = some garage) :
    Step s (.dispatch g i payload id)
      { nodes := s.nodes.set g { node with garage }
        guests := s.guests ++ [⟨g, i, payload, id, .waiting⟩] }
  | stage {a : FleetAction} {e : ℕ} {guest : Guest} {stage : GuestStage}
      (ha : ∀ g i payload id, a ≠ .dispatch g i payload id) (he : s.guests[e]? = some guest)
      (hwaiting : stage ≠ .waiting) (htarget : ∀ waits, stage.target waits = none) :
    Step s a (s.setStage e guest stage)
  | forward {e g : ℕ} {request : RemoteExecutionRequest} {guest : Guest} {node : Node}
      {lane : ℕ} {garage : State} (he : s.guests[e]? = some guest)
      (hnode : s.nodes[g]? = some node) (hb : node.garage.step (.arrive request) = some garage) :
    Step s (.forward e g request)
      ({ s with nodes := s.nodes.set g { node with garage } }.setStage e guest
        (.forwarded lane g node.garage.calls.length))
  | assign {e : ℕ} {guest : Guest} {node : Node} {lane : ℕ} (he : s.guests[e]? = some guest)
      (hnode : s.nodes[guest.garage]? = some node) :
    Step s (.assign e)
      ({ s with
        nodes := s.nodes.set guest.garage
          { node with sharedLanes := node.sharedLanes.set lane (some e) } }.setStage e guest
        (.running lane))
  | finish {e : ℕ} {outcome : Except String (Except String HttpDispatchResult)} {guest : Guest}
      {node : Node} {lane : ℕ} {garage : State} (he : s.guests[e]? = some guest)
      (hnode : s.nodes[guest.garage]? = some node)
      (hb : node.garage.step (.call guest.call (.dispatchEnds outcome)) = some garage) :
    Step s (.finish e outcome)
      ({ s with
        nodes := s.nodes.set guest.garage
          { node with garage, sharedLanes := node.sharedLanes.set lane none } }.setStage e guest
        .finished)

theorem stepNode_eq_some {g : ℕ} {b : Action} (h : s.stepNode g b = some t) :
    ∃ node garage, s.nodes[g]? = some node ∧ node.garage.step b = some garage ∧
      t = { s with nodes := s.nodes.set g { node with garage } } := by
  obtain ⟨node, hnode, h⟩ := Option.bind_eq_some_iff.mp h
  obtain ⟨garage, hb, rfl⟩ := Option.map_eq_some_iff.mp h
  exact ⟨node, garage, hnode, hb, rfl⟩

theorem step_cases (h : s.step ids library sha256 a = some t) : Step s a t := by
  revert h
  fun_cases step ids library sha256 s a <;> intro h
  all_goals try cases h
  case case1 =>
    obtain ⟨node, garage, hnode, hb, rfl⟩ := stepNode_eq_some h
    exact .node (by simp) hnode hb
  case case3 =>
    obtain ⟨node, garage, hnode, hb, rfl⟩ := stepNode_eq_some h
    exact .node (by simp) hnode hb
  case case5 hcall hwarm =>
    obtain ⟨u, hu, rfl⟩ := Option.map_eq_some_iff.mp h
    obtain ⟨node, garage, hnode, hb, rfl⟩ := stepNode_eq_some hu
    rw [hnode] at hcall
    exact .dispatch hnode (List.getElem?_eq_some_iff.mp hcall).1 hb
  case case8 guest he node hnode hstage lane hlane nodes => exact .assign he hnode
  case case12 guest he lane node hnode hstage =>
    obtain ⟨call, -, h⟩ := Option.bind_eq_some_iff.mp h
    obtain ⟨logical, -, rfl⟩ := Option.map_eq_some_iff.mp h
    exact .stage (by simp) he (by simp) fun _ => rfl
  case case15 guest node hnode he lane logical hstage hforward =>
    obtain ⟨u, hu, rfl⟩ := Option.map_eq_some_iff.mp h
    obtain ⟨node', garage, hnode', hb, rfl⟩ := stepNode_eq_some hu
    obtain rfl := Option.some.inj (hnode.symm.trans hnode')
    exact .forward he hnode hb
  case case19 guest he lane logical hstage =>
    exact .stage (by simp) he (by simp) fun _ => rfl
  case case22 guest he lane g i hstage call hcall hover =>
    exact .stage (by simp) he (by simp) fun _ => rfl
  case case27 guest he lane node hnode hstage =>
    obtain ⟨garage, hb, rfl⟩ := Option.map_eq_some_iff.mp h
    exact .finish he hnode hb

/-! ### Calls and lanes -/

/-- Garage `g` has a call `i`. -/
def HasCall (nodes : List Node) (g i : ℕ) : Prop :=
  ∃ node, nodes[g]? = some node ∧ i < node.garage.calls.length

def CallsKnown (s : Fleet) : Prop := ∀ guest ∈ s.guests, HasCall s.nodes guest.garage guest.call

theorem HasCall.set {nodes : List Node} {g x i : ℕ} {node node' : Node}
    (h : HasCall nodes x i) (hnode : nodes[g]? = some node)
    (hle : node.garage.calls.length ≤ node'.garage.calls.length) :
    HasCall (nodes.set g node') x i := by
  obtain ⟨y, hy, hi⟩ := h
  rcases eq_or_ne g x with rfl | hne
  · obtain rfl := Option.some.inj (hnode.symm.trans hy)
    exact ⟨node', List.getElem?_set_self (List.getElem?_eq_some_iff.mp hnode).1, hi.trans_le hle⟩
  · exact ⟨y, by rw [List.getElem?_set_ne hne, hy], hi⟩

theorem calls_length_le {x y : State} {b : Action} (h : x.step b = some y) :
    x.calls.length ≤ y.calls.length := by
  cases State.step_cases h with
  | arrive request => simp
  | call hi hr => simp

theorem mem_set_guest {e : ℕ} {guest x : Guest} {stage : GuestStage}
    (he : s.guests[e]? = some guest) (hx : x ∈ s.guests.set e { guest with stage }) :
    ∃ y ∈ s.guests, y.garage = x.garage ∧ y.call = x.call := by
  rcases List.mem_or_eq_of_mem_set hx with hx | rfl
  · exact ⟨x, hx, rfl, rfl⟩
  · exact ⟨guest, List.mem_of_getElem? he, rfl, rfl⟩

theorem step_callsKnown (hs : s.CallsKnown) (h : s.step ids library sha256 a = some t) :
    t.CallsKnown := by
  -- a guest of `t` is one of `s` in another stage, and its Garage has its call still
  have hold {x : Guest} (hx : ∃ y ∈ s.guests, y.garage = x.garage ∧ y.call = x.call)
      {nodes : List Node} (hnodes : ∀ g i, HasCall s.nodes g i → HasCall nodes g i) :
      HasCall nodes x.garage x.call := by
    obtain ⟨y, hy, hgarage, hcall⟩ := hx
    rw [← hgarage, ← hcall]
    exact hnodes _ _ (hs y hy)
  cases step_cases h with
  | node ha hnode hb =>
    intro x hx
    exact hold ⟨x, hx, rfl, rfl⟩ fun _ _ hc => hc.set hnode (calls_length_le hb)
  | dispatch hnode hi hb =>
    intro x hx
    rcases List.mem_append.mp hx with hx | hx
    · exact hold ⟨x, hx, rfl, rfl⟩ fun _ _ hc => hc.set hnode (calls_length_le hb)
    · obtain rfl := List.mem_singleton.mp hx
      exact HasCall.set ⟨_, hnode, hi⟩ hnode (calls_length_le hb)
  | stage ha he => exact fun x hx => hold (mem_set_guest he hx) fun _ _ hc => hc
  | forward he hnode hb =>
    exact fun x hx => hold (mem_set_guest he hx) fun _ _ hc => hc.set hnode (calls_length_le hb)
  | assign he hnode =>
    exact fun x hx => hold (mem_set_guest he hx) fun _ _ hc => hc.set hnode le_rfl
  | finish he hnode hb =>
    exact fun x hx => hold (mem_set_guest he hx) fun _ _ hc => hc.set hnode (calls_length_le hb)

theorem CallsKnown.waits_eq_false (hs : s.CallsKnown) {g : ℕ} {node : Node}
    (hnode : s.nodes[g]? = some node) : s.waits g node.garage.calls.length = false := by
  by_contra hwaits
  obtain ⟨guest, hguest, heq⟩ := List.any_eq_true.mp (Bool.not_eq_false _ ▸ hwaits)
  simp only [Bool.and_eq_true, beq_iff_eq] at heq
  obtain ⟨⟨rfl, hcall⟩, -⟩ := heq
  obtain ⟨node', hnode', hlt⟩ := hs guest hguest
  obtain rfl := Option.some.inj (hnode.symm.trans hnode')
  exact hlt.ne hcall

theorem laneCount_set {g : ℕ} {node node' : Node} (hnode : s.nodes[g]? = some node)
    (ht : t.nodes = s.nodes.set g node')
    (hlanes : node'.sharedLanes.length = node.sharedLanes.length) (x : ℕ) :
    t.laneCount x = s.laneCount x := by
  unfold laneCount
  rw [ht]
  rcases eq_or_ne g x with rfl | hne
  · simp [hnode, List.getElem?_set_self (List.getElem?_eq_some_iff.mp hnode).1, hlanes]
  · rw [List.getElem?_set_ne hne]

/-- The guests on the lanes when a lane of one Garage is given to `v`. -/
theorem slot_set {g lane x l e : ℕ} {v : Option ℕ} {node node' : Node}
    (hnode : s.nodes[g]? = some node) (ht : t.nodes = s.nodes.set g node')
    (hlanes : node'.sharedLanes = node.sharedLanes.set lane v) (h : t.slot x l = some e) :
    v = some e ∨ s.slot x l = some e := by
  obtain ⟨y, hy, hl⟩ := slot_eq_some.mp h
  rw [ht] at hy
  rcases eq_or_ne g x with rfl | hne
  · rw [List.getElem?_set_self (List.getElem?_eq_some_iff.mp hnode).1] at hy
    obtain rfl := Option.some.inj hy
    rw [hlanes] at hl
    rcases eq_or_ne lane l with rfl | hne
    · left
      obtain ⟨hlt, heq⟩ := List.getElem?_eq_some_iff.mp hl
      rwa [List.getElem_set_self] at heq
    · rw [List.getElem?_set_ne hne] at hl
      exact .inr (slot_eq_some.mpr ⟨node, hnode, hl⟩)
  · rw [List.getElem?_set_ne hne] at hy
    exact .inr (slot_eq_some.mpr ⟨y, hy, hl⟩)

theorem slot_set_self {g : ℕ} {node node' : Node} (hnode : s.nodes[g]? = some node)
    (ht : t.nodes = s.nodes.set g node') (hlanes : node'.sharedLanes = node.sharedLanes)
    (x l : ℕ) : t.slot x l = s.slot x l := by
  unfold slot
  rw [ht]
  rcases eq_or_ne g x with rfl | hne
  · simp [hnode, List.getElem?_set_self (List.getElem?_eq_some_iff.mp hnode).1, hlanes]
  · rw [List.getElem?_set_ne hne]

theorem waits_of_set {e : ℕ} {guest : Guest} {stage : GuestStage} (hwaiting : stage ≠ .waiting)
    (hguests : t.guests = s.guests.set e { guest with stage }) {g i : ℕ}
    (h : t.waits g i = true) : s.waits g i = true := by
  unfold waits at h ⊢
  rw [hguests] at h
  obtain ⟨x, hx, heq⟩ := List.any_eq_true.mp h
  rcases List.mem_or_eq_of_mem_set hx with hx | rfl
  · exact List.any_eq_true.mpr ⟨x, hx, heq⟩
  · simp only [Bool.and_eq_true, beq_iff_eq] at heq
    exact absurd heq.2 hwaiting

theorem target_of_waits_le {waits waits' : ℕ → ℕ → Bool} (stage : GuestStage)
    (hle : ∀ g i, waits' g i = true → waits g i = true) :
    stage.target waits' = none ∨ stage.target waits' = stage.target waits := by
  cases stage with
  | forwarded lane g i =>
    by_cases h : waits' g i = true
    · exact .inr (by simp [GuestStage.target, h, hle g i h])
    · exact .inl (by simp [GuestStage.target, h])
  | _ => exact .inl rfl

/-- The guest of a stage change is not blocked after it, and nobody else becomes blocked. -/
theorem blockedAt_of_set {e : ℕ} {guest : Guest} {stage : GuestStage}
    (he : s.guests[e]? = some guest) (hwaiting : stage ≠ .waiting)
    (htarget : stage.target t.waits = none)
    (hguests : t.guests = s.guests.set e { guest with stage }) (x : ℕ) :
    t.blockedAt t.waits x = none ∨ (x ≠ e ∧ t.blockedAt t.waits x = s.blockedAt s.waits x) := by
  unfold blockedAt
  rw [hguests]
  rcases eq_or_ne e x with rfl | hne
  · rw [List.getElem?_set_self (List.getElem?_eq_some_iff.mp he).1]
    exact .inl htarget
  · rw [List.getElem?_set_ne hne]
    cases s.guests[x]? with
    | none => exact .inl rfl
    | some y =>
      have hle (g i : ℕ) (h : t.waits g i = true) : s.waits g i = true :=
        waits_of_set hwaiting hguests h
      rcases target_of_waits_le y.stage hle with h | h
      · exact .inl h
      · exact .inr ⟨hne.symm, h⟩

/-- No lane starts to wait, as seen from `s` in `t`. -/
def OnlyOpens (s t : Fleet) : Prop :=
  (∀ g, t.laneCount g = s.laneCount g) ∧
    ∀ g l e, t.slot g l = some e → t.blockedAt t.waits e = none ∨
      (s.slot g l = some e ∧ t.blockedAt t.waits e = s.blockedAt s.waits e)

theorem OnlyOpens.escapes (h : OnlyOpens s t) {g : ℕ} (hg : (s.waitGraph s.waits).Escapes g) :
    (t.waitGraph t.waits).Escapes g := by
  apply hg.of_open h.1
  intro x l
  simp only [waitGraph]
  cases hslot : t.slot x l with
  | none => exact .inl rfl
  | some e =>
    rcases h.2 x l e hslot with hnone | ⟨hold, hsame⟩
    · exact .inl hnone
    · rw [hold]
      exact .inr hsame

/-- Every step but a hand-over to a dispatcher only opens lanes. -/
theorem Step.onlyOpens (hs : s.CallsKnown) (h : Step s a t)
    (ha : ∀ g i payload id, a ≠ .dispatch g i payload id) : OnlyOpens s t := by
  have hstage {e : ℕ} {guest : Guest} {stage : GuestStage} (he : s.guests[e]? = some guest)
      (hwaiting : stage ≠ .waiting) {u : Fleet} (htarget : stage.target u.waits = none)
      (hguests : u.guests = s.guests.set e { guest with stage })
      (hslots : ∀ g l x, u.slot g l = some x → x = e ∨ s.slot g l = some x) :
      ∀ g l x, u.slot g l = some x → u.blockedAt u.waits x = none ∨
        (s.slot g l = some x ∧ u.blockedAt u.waits x = s.blockedAt s.waits x) := by
    intro g l x hslot
    rcases blockedAt_of_set he hwaiting htarget hguests x with hnone | ⟨hne, hsame⟩
    · exact .inl hnone
    · exact .inr ⟨(hslots g l x hslot).resolve_left hne, hsame⟩
  cases h with
  | node _ hnode hb =>
    refine ⟨laneCount_set hnode rfl rfl, fun g l e hslot => .inr ⟨?_, rfl⟩⟩
    exact (slot_set_self hnode rfl (by rfl) g l).symm.trans hslot
  | dispatch => exact absurd rfl (ha _ _ _ _)
  | stage _ he hwaiting htarget =>
    exact ⟨fun _ => rfl, hstage he hwaiting (htarget _) rfl fun g l x hslot => .inr hslot⟩
  | @forward e g request guest node lane garage he hnode hb =>
    have hwaiting : GuestStage.forwarded lane g node.garage.calls.length ≠ .waiting := by simp
    refine ⟨laneCount_set hnode rfl rfl, hstage he hwaiting ?_ rfl fun x l y hslot => .inr ?_⟩
    · rw [GuestStage.target, if_neg]
      intro hwaits
      have hold := waits_of_set (s := s) hwaiting rfl hwaits
      rw [hs.waits_eq_false hnode] at hold
      cases hold
    · exact (slot_set_self hnode rfl (by rfl) x l).symm.trans hslot
  | @assign e guest node lane he hnode =>
    refine ⟨laneCount_set hnode rfl (by simp), hstage he (by simp) rfl rfl fun x l y hslot => ?_⟩
    rcases slot_set hnode rfl rfl hslot with heq | hold
    · exact .inl (Option.some.inj heq).symm
    · exact .inr hold
  | @finish e outcome guest node lane garage he hnode hb =>
    refine ⟨laneCount_set hnode rfl (by simp), hstage he (by simp) rfl rfl fun x l y hslot => ?_⟩
    rcases slot_set hnode rfl rfl hslot with heq | hold
    · cases heq
    · exact .inr hold

/-- The calls that wait for lanes, with call `i` of Garage `g` among them. -/
def waitsWith (s : Fleet) (g i g' i' : ℕ) : Bool := s.waits g' i' || (g' == g && i' == i)

/-- A guest that is handed to a dispatcher waits for a lane from then on. -/
theorem waitGraph_dispatch {g i : ℕ} {payload : RemotePayload} {id : String} {node : Node}
    {garage : State} (hnode : s.nodes[g]? = some node)
    (ht : t = { nodes := s.nodes.set g { node with garage }
                guests := s.guests ++ [⟨g, i, payload, id, .waiting⟩] }) :
    t.waitGraph t.waits = s.waitGraph (s.waitsWith g i) := by
  have hwaits : t.waits = s.waitsWith g i := by
    funext g' i'
    subst ht
    simp [waits, waitsWith, Bool.beq_comm]
  have hblocked (e) : t.blockedAt t.waits e = s.blockedAt (s.waitsWith g i) e := by
    rw [hwaits]
    subst ht
    unfold blockedAt
    rcases Nat.lt_trichotomy e s.guests.length with hlt | rfl | hgt
    · rw [List.getElem?_append_left hlt]
    · rw [List.getElem?_concat_length, List.getElem?_eq_none le_rfl]
      rfl
    · rw [List.getElem?_eq_none (by simpa using hgt), List.getElem?_eq_none hgt.le]
  have hnodes : t.nodes = s.nodes.set g { node with garage } := by rw [ht]
  simp only [waitGraph, WaitGraph.mk.injEq]
  refine ⟨funext (laneCount_set hnode hnodes rfl), ?_⟩
  funext x l
  rw [slot_set_self hnode hnodes rfl]
  exact congrArg _ (funext hblocked)

/-! ### The step that ties a knot -/

/-- A guest is blocked in a nested call that was forwarded as call `i` of Garage `g`. -/
def HasCaller (s : Fleet) (g i : ℕ) : Prop :=
  ∃ guest ∈ s.guests, ∃ lane, guest.stage = .forwarded lane g i

/-- When a nested call is handed to the dispatcher of its Garage, a way leads from
there along lanes held for calls that wait for lanes, the call itself among
them, to a lane that is free or whose guest is not blocked in such a call. -/
def LeavesOpen (s : Fleet) : FleetAction → Prop
  | .dispatch g i _ _ => s.HasCaller g i → (s.waitGraph (s.waitsWith g i)).Escapes g
  | _ => True

/-- A lane starts to wait only when the call of its guest is handed over. -/
theorem target_waitsWith (g i x l : ℕ) :
    (s.waitGraph (s.waitsWith g i)).target x l = (s.waitGraph s.waits).target x l ∨
      s.HasCaller g i ∧ (s.waitGraph (s.waitsWith g i)).target x l = some g := by
  simp only [waitGraph]
  cases hslot : s.slot x l with
  | none => exact .inl rfl
  | some e =>
    simp only [Option.bind_some, blockedAt]
    cases hguest : s.guests[e]? with
    | none => exact .inl rfl
    | some guest =>
      simp only [Option.bind_some]
      cases hstage : guest.stage with
      | forwarded lane g' i' =>
        rcases Decidable.em (g' = g ∧ i' = i) with ⟨rfl, rfl⟩ | hne
        · exact .inr ⟨⟨guest, List.mem_of_getElem? hguest, lane, hstage⟩,
            by simp [GuestStage.target, waitsWith]⟩
        · have hother : s.waitsWith g i g' i' = s.waits g' i' := by
            rw [waitsWith, show (g' == g && i' == i) = false by simpa using hne, Bool.or_false]
          exact .inl (by simp only [GuestStage.target, hother])
      | _ => exact .inl rfl

/-- A step ties a knot in exactly the case that it leaves no way out. -/
theorem step_not_deadlocked_iff (hs : s.CallsKnown) (hopen : ¬ s.Deadlocked)
    (h : s.step ids library sha256 a = some t) : ¬ t.Deadlocked ↔ s.LeavesOpen a := by
  rw [not_deadlocked_iff] at hopen ⊢
  have hcases := step_cases h
  cases a with
  | dispatch g i payload id =>
    cases hcases with
    | node ha => exact absurd rfl (ha _ _ _ _)
    | stage ha => exact absurd rfl (ha _ _ _ _)
    | dispatch hnode hi hb =>
      rw [waitGraph_dispatch hnode rfl]
      constructor
      · exact fun hall _ => hall g
      · intro hleaves x
        have hunits (y) : (s.waitGraph (s.waitsWith g i)).units y = (s.waitGraph s.waits).units y :=
          rfl
        by_cases hcaller : s.HasCaller g i
        · refine WaitGraph.Escapes.of_wait hunits (fun y l => ?_) (hleaves hcaller) (hopen x)
          rcases target_waitsWith g i y l with hsame | ⟨-, hnew⟩
          · exact .inr hsame
          · exact .inl hnew
        · refine WaitGraph.Escapes.of_open hunits (fun y l => .inr ?_) (hopen x)
          rcases target_waitsWith g i y l with hsame | ⟨hnew, -⟩
          · exact hsame
          · exact absurd hnew hcaller
  | _ =>
    exact iff_of_true (fun g => (hcases.onlyOpens hs (by simp)).escapes (hopen g)) trivial

theorem fresh_not_deadlocked (garages : List (GarageAgent × ℕ)) (maxInvocationDepth : ℕ) :
    ¬ (fresh garages maxInvocationDepth).Deadlocked := by
  rintro ⟨S, ⟨g, hg⟩, hlanes⟩
  obtain ⟨node, hnode, hne, hheld⟩ := hlanes g hg
  obtain ⟨holder, hholder⟩ := List.exists_mem_of_ne_nil _ hne
  obtain ⟨e, guest, lane, g', i, -, hguest, -⟩ := hheld holder hholder
  simp [fresh] at hguest

section Runs

variable {garages : List (GarageAgent × ℕ)} {maxInvocationDepth : ℕ} {as : List FleetAction}

theorem visited_not_deadlocked_iff
    (h : exec ids library sha256 (fresh garages maxInvocationDepth) as = some s) :
    (∀ t ∈ Transition.visited (step ids library sha256) (fresh garages maxInvocationDepth) as,
        ¬ t.Deadlocked) ↔
      Transition.Along (step ids library sha256) LeavesOpen (fresh garages maxInvocationDepth)
        as := by
  apply Transition.forall_visited_iff (I := CallsKnown) (fun _ _ _ => step_callsKnown)
    (fun _ _ _ => step_not_deadlocked_iff) ?_ (fresh_not_deadlocked _ _) h
  simp [CallsKnown, fresh]

/-- In a run of a fleet no state is deadlocked in exactly the case that every
nested call handed to a dispatcher leaves a way out. -/
theorem exec_not_deadlocked_iff
    (h : exec ids library sha256 (fresh garages maxInvocationDepth) as = some s) :
    (∀ t ∈ Transition.visited (step ids library sha256) (fresh garages maxInvocationDepth) as,
        ¬ t.Deadlocked) ↔
      Transition.Along (step ids library sha256) LeavesOpen (fresh garages maxInvocationDepth)
        as :=
  visited_not_deadlocked_iff h

/-- A nested call is handed over only to a Garage with a free lane. -/
def hasRoom (s : Fleet) : FleetAction → Bool
  | .dispatch g i _ _ =>
    !s.guests.any (fun guest => guest.stage.target (fun g' i' => g' == g && i' == i) == some g) ||
      (List.range (s.laneCount g)).any fun l => (s.slot g l).isNone
  | _ => true

theorem leavesOpen_of_hasRoom (h : s.hasRoom a = true) : s.LeavesOpen a := by
  cases a with
  | dispatch g i payload id =>
    rintro ⟨guest, hguest, lane, hstage⟩
    rcases Bool.or_eq_true_iff.mp h with hnone | hfree
    · rw [Bool.not_eq_true', List.any_eq_false] at hnone
      exact absurd (hnone guest hguest) (by simp [hstage, GuestStage.target])
    · obtain ⟨l, hl, hslot⟩ := List.any_eq_true.mp hfree
      refine .opened (List.mem_range.mp hl) ?_
      simp only [waitGraph, Option.isNone_iff_eq_none.mp hslot, Option.bind_none]
  | _ => trivial

theorem not_deadlocked_of_hasRoom
    (h : exec ids library sha256 (fresh garages maxInvocationDepth) as = some s)
    (hroom : Transition.Along (step ids library sha256) (fun s a => hasRoom s a = true)
      (fresh garages maxInvocationDepth) as) :
    ∀ t ∈ Transition.visited (step ids library sha256) (fresh garages maxInvocationDepth) as,
      ¬ t.Deadlocked :=
  (visited_not_deadlocked_iff h).mpr (hroom.mono fun _ _ => leavesOpen_of_hasRoom)

end Runs

/-! ### Runs -/

/-- All lanes of the Garages of a list wait within the list. -/
def waitWithin (s : Fleet) (S : List ℕ) : Bool :=
  S.all fun g => (s.nodes[g]?).any fun node => !node.sharedLanes.isEmpty &&
    node.sharedLanes.all fun holder =>
      (holder.bind (s.blockedAt s.waits)).any fun g' => S.contains g'

theorem deadlocked_of_waitWithin {S : List ℕ} (hne : S ≠ []) (h : s.waitWithin S = true) :
    s.Deadlocked := by
  refine ⟨{g | g ∈ S}, List.exists_mem_of_ne_nil S hne, fun g hg => ?_⟩
  obtain ⟨node, hnode, hlanes⟩ := (Option.any_eq_true _ _).mp (List.all_eq_true.mp h g hg)
  obtain ⟨hsome, hall⟩ := Bool.and_eq_true_iff.mp hlanes
  refine ⟨node, hnode, by simpa using hsome, fun holder hholder => ?_⟩
  obtain ⟨g', hblocked, hmem⟩ :=
    (Option.any_eq_true _ _).mp (List.all_eq_true.mp hall holder hholder)
  obtain ⟨e, rfl, hblocked⟩ := Option.bind_eq_some_iff.mp hblocked
  obtain ⟨guest, lane, i, hguest, hstage, hwaits⟩ := blockedAt_eq_some.mp hblocked
  exact ⟨e, guest, lane, g', i, rfl, hguest, hstage, hwaits, List.contains_iff_mem.mp hmem⟩

section Demo

def emptyPayload : RemotePayload := ⟨[], [], [], [], none, none⟩

/-- The first call of a Garage, from its arrival to its guest. -/
def firstGuest (g : ℕ) : List FleetAction :=
  List.replicate 5 (.garage g 0 .go) ++
    [.garage g 0 (.opened (.ok ())),
      .garage g 0 (.registrationEnds (.ok (.ok ⟨.cold, .coldCompiled⟩))), .garage g 0 .go,
      .dispatch g 0 emptyPayload "0"]

def nextGuest (g i : ℕ) : List FleetAction :=
  List.replicate 3 (.garage g i .go) ++ [.dispatch g i emptyPayload "1"]

/-- Guest `e` of Garage `g` calls a service that PitLane finds on Garage `g'`. -/
def callsOver (e : ℕ) (id : GarageId) (g' : ℕ) : List FleetAction :=
  [.nested e (.sendRequest ⟨some "svc", none, "GET", [], .ok []⟩) "1",
    .forward e g' { State.requestFor "sha256:a" with invocationDepth := 1, visitedGarages := [id] }]

def twoGarages : List (GarageAgent × ℕ) :=
  [(.new "garage-1" 1 2 1, 1), (.new "garage-2" 1 2 1, 1)]

def idleCall : List FleetAction :=
  [[.arrive 0 (State.requestFor "sha256:a")], firstGuest 0, [.assign 0], callsOver 0 "garage-1" 1,
    firstGuest 1].flatten

theorem exec_not_deadlocked_iff_idleCall :
    ∃ s, exec GuestExecution.plainIds GuestExecution.plainLibrary GuestExecution.plainSha256
        (fresh twoGarages 16) idleCall = some s ∧ s.guests.length = 2 ∧
      ∀ t ∈ Transition.visited (step GuestExecution.plainIds GuestExecution.plainLibrary
        GuestExecution.plainSha256) (fresh twoGarages 16) idleCall, ¬ t.Deadlocked := by
  have hrun : (exec GuestExecution.plainIds GuestExecution.plainLibrary GuestExecution.plainSha256
      (fresh twoGarages 16) idleCall).map (fun s => s.guests.length) = some 2 := by decide +kernel
  obtain ⟨s, hs, hlength⟩ := Option.map_eq_some_iff.mp hrun
  have hroom : Transition.Along (step GuestExecution.plainIds GuestExecution.plainLibrary
      GuestExecution.plainSha256) (fun s a => hasRoom s a = true) (fresh twoGarages 16)
      idleCall := by decide +kernel
  exact ⟨s, hs, hlength,
    (exec_not_deadlocked_iff hs).mpr (hroom.mono fun _ _ => leavesOpen_of_hasRoom)⟩

/-- The guest of each Garage calls a service of the other. -/
def crossedCalls : List FleetAction :=
  [[.arrive 0 (State.requestFor "sha256:a"), .arrive 1 (State.requestFor "sha256:a")],
    firstGuest 0, firstGuest 1, [.assign 0, .assign 1], callsOver 0 "garage-1" 1,
    callsOver 1 "garage-2" 0, nextGuest 1 1, nextGuest 0 1].flatten

theorem crossedCalls_deadlocked :
    ∃ s, exec GuestExecution.plainIds GuestExecution.plainLibrary GuestExecution.plainSha256
      (fresh twoGarages 16) crossedCalls = some s ∧ s.Deadlocked := by
  have hrun : (exec GuestExecution.plainIds GuestExecution.plainLibrary GuestExecution.plainSha256
      (fresh twoGarages 16) crossedCalls).map (fun s => s.waitWithin [0, 1]) = some true := by
    decide +kernel
  obtain ⟨s, hs, hwait⟩ := Option.map_eq_some_iff.mp hrun
  exact ⟨s, hs, deadlocked_of_waitWithin (by simp) hwait⟩

end Demo

end Fleet

end PitBox.Garage
