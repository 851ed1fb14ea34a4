import PitBox.Garage.FleetBooks

/-!
# What a fleet can hang on

A guest waits for a lane, or it is blocked in a nested call whose own guest
waits in the same way, and so on down to a guest that waits for a lane. Garages
are entangled when all their lanes are held by guests that wait in this way for
lanes of these Garages. This is the only thing that a fleet can hang on, and it
lasts as long as no client goes away.
-/

namespace PitBox.Garage

open PitBox.Runtime Table Ledger Transition

/-- A choice that is neither a drop nor the end of a guest. -/
def Choice.alone (e : Choice) : Bool := !e.isDrop && !e.isDispatchEnds

namespace Execute

variable {g g' : GarageAgent} {r r' : Execute} {e : Choice}

/-- The call waits for its guest. -/
def parked (r : Execute) : Bool :=
  match r.stage, r.dispatch with
  | .dispatching, .running => true
  | _, _ => false

theorem parked_iff : r.parked = true ↔ r.stage = .dispatching ∧ r.dispatches = true := by
  unfold parked dispatches BlockingTask.isRunning
  cases r.stage <;> cases r.dispatch <;> simp

/-- The call can take a step that is neither a drop nor the end of its guest. -/
def CanGo (g : GarageAgent) (r : Execute) : Prop :=
  ∃ e : Choice, e.alone = true ∧ (r.step g e).isSome = true

theorem canGo_of_canStep (h : r.CanStep g) (hruns : r.dispatches = false) : r.CanGo g := by
  obtain ⟨e, hdrop, hstep⟩ := h
  refine ⟨e, ?_, hstep⟩
  cases e with
  | dispatchEnds outcome =>
    obtain ⟨⟨agent, call⟩, hcall⟩ := Option.isSome_iff_exists.mp hstep
    have hrunning := (step_dispatchEnds hcall rfl).1
    simp [dispatches, hrunning, BlockingTask.isRunning] at hruns
  | _ => simpa [Choice.alone, Choice.isDispatchEnds] using hdrop

theorem canGo_of_registers (h : r.registers = true) : r.CanGo g := by
  obtain ⟨q, stage, registration, dispatch⟩ := r
  cases registration with
  | running => exact ⟨.registrationEnds (.error ""), rfl, by simp [step]⟩
  | unspawned | finished outcome => cases h

theorem Consistent.stage_of_dispatches (h : r.Consistent) (hruns : r.dispatches = true) :
    r.stage = .dispatching ∨ r.stage = .dropped := by
  obtain ⟨q, stage, registration, dispatch⟩ := r
  cases stage with
  | dispatching => exact .inl rfl
  | dropped => exact .inr rfl
  | responded response => exact absurd (h.1.symm.trans hruns) (by simp)
  | _ =>
    cases h
    cases hruns

theorem Consistent.parked (h : r.Consistent) (hruns : r.dispatches = true)
    (hlive : r.stage.isOver = false) : r.parked = true := by
  rcases h.stage_of_dispatches hruns with hstage | hstage
  · exact parked_iff.mpr ⟨hstage, hruns⟩
  · rw [hstage] at hlive
    cases hlive

theorem step_parked (h : r.step g e = some (g', r')) (hparked : r.parked = true)
    (hdrop : e.isDrop = false) : r'.stage = .dispatching := by
  obtain ⟨hstage, hruns⟩ := parked_iff.mp hparked
  revert h hstage hruns hdrop
  fun_cases step g r e <;> intro h hdrop hstage hruns <;> cases h
  case case17 => cases hruns
  all_goals first
    | exact hstage
    | (cases hstage; done)
    | cases hdrop

/-- Nothing but the end of its guest moves a call that waits for it. -/
theorem step_eq_none_of_halted (hhalted : (r.stage.isOver || r.parked) = true)
    (hregisters : r.registers = false) (halone : e.alone = true) : r.step g e = none := by
  rw [Option.eq_none_iff_forall_ne_some]
  rintro ⟨g', r'⟩ h
  rw [Bool.or_eq_true, parked_iff] at hhalted
  rcases hhalted with hover | ⟨hstage, hruns⟩
  · revert h hover hregisters halone
    fun_cases step g r e <;> intro hregisters halone h hover <;> cases h
    all_goals first
      | cases hover
      | cases hregisters
      | cases halone
  · revert h hstage hruns hregisters halone
    fun_cases step g r e <;> intro hregisters halone h hstage hruns <;> cases h
    all_goals first
      | (cases hstage; done)
      | (cases hruns; done)
      | cases hregisters
      | cases halone

end Execute

namespace State

variable {s : State} {maxPending maxPreparations : ℕ}

theorem canGo_of_holdsBudget (hcons : ∀ r ∈ s.calls, r.Consistent)
    (h : Live maxPending maxPreparations s) (hnone : s.agent.preparationBudget = 0) :
    ∃ r ∈ s.calls, r.CanGo s.agent := by
  have hpermits : 0 + tally Execute.holdsBudget s.calls = max maxPreparations 1 :=
    hnone ▸ h.budget
  have hheld : 0 < tally Execute.holdsBudget s.calls := by omega
  obtain ⟨r, hr, hholds⟩ := exists_of_tally_pos hheld
  refine ⟨r, hr, Execute.canGo_of_canStep
    (Execute.canStep_of_holdsBudget (h.awaits r hr) hholds) ?_⟩
  by_contra hruns
  rcases (hcons r hr).stage_of_dispatches (by simpa using hruns) with hstage | hstage <;>
    simp [Execute.holdsBudget, hstage] at hholds

/-- A call that is not over waits for its guest, or some call can go on. -/
theorem Live.parked_or_canGo (h : Live maxPending maxPreparations s)
    (hcons : ∀ r ∈ s.calls, r.Consistent) {r : Execute} (hr : r ∈ s.calls)
    (hlive : r.stage.isOver = false) : r.parked = true ∨ ∃ x ∈ s.calls, x.CanGo s.agent := by
  by_cases hruns : r.dispatches = true
  · exact .inl ((hcons r hr).parked hruns hlive)
  · right
    rcases Execute.canStep_of_live (h.awaits r hr) hlive (h.held.bounded r hr) with
      hstep | hnone | ⟨c, -, hcell⟩
    · exact ⟨r, hr, Execute.canGo_of_canStep hstep (by simpa using hruns)⟩
    · exact canGo_of_holdsBudget hcons h hnone
    · obtain ⟨x, hx, hinit⟩ := h.held.exists_initializer hcell
      rcases Execute.canStep_of_initializing (h.awaits x hx) hinit with hstep | hnone
      · refine ⟨x, hx, Execute.canGo_of_canStep hstep ?_⟩
        by_contra hruns
        rcases (hcons x hx).stage_of_dispatches (by simpa using hruns) with hstage | hstage <;>
          simp [Execute.use, hstage] at hinit
      · exact canGo_of_holdsBudget hcons h hnone

/-- No call is dropped. -/
def KeepsClients (b : Action) : Prop := ∀ i e, b = .call i e → e.isDrop = false

theorem step_parked {t : State} {b : Action} {i : ℕ} {call : Execute} (h : s.step b = some t)
    (hkeeps : KeepsClients b) (hcall : s.calls[i]? = some call) (hparked : call.parked = true) :
    ∃ call', t.calls[i]? = some call' ∧ call'.stage.isOver = false := by
  have hlive {x : Execute} (hx : x.stage = .dispatching) : x.stage.isOver = false := by
    rw [hx]
    rfl
  have hsame := hlive (Execute.parked_iff.mp hparked).1
  cases step_cases h with
  | arrive request =>
    exact ⟨call, by rw [List.getElem?_append_left (List.getElem?_eq_some_iff.mp hcall).1, hcall],
      hsame⟩
  | @call j e r g' r' hj hr =>
    rcases eq_or_ne j i with rfl | hne
    · obtain rfl := Option.some.inj (hcall.symm.trans hj)
      exact ⟨r', List.getElem?_set_self (List.getElem?_eq_some_iff.mp hcall).1,
        hlive (Execute.step_parked hr hparked (hkeeps j e rfl))⟩
    · exact ⟨call, by rw [List.getElem?_set_ne hne, hcall], hsame⟩

end State

def FleetAction.drops : FleetAction → Bool
  | .garage _ _ choice => choice.isDrop
  | _ => false

/-- The steps of a fleet that no new request and no departing client makes. -/
def FleetAction.advances : FleetAction → Bool
  | .arrive _ _ => false
  | .garage _ _ choice => !choice.isDrop
  | _ => true

namespace Fleet

variable {ids : GarageIds} {library : ServiceLibrary} {sha256 : Bytes → Sha256}
  {s t : Fleet} {a : FleetAction}

/-! ### Steps that are left -/

variable (ids library sha256) in
/-- Something can happen without a new request and without a client that goes away. -/
def Ready (s : Fleet) : Prop :=
  ∃ a : FleetAction, a.advances = true ∧ (s.step ids library sha256 a).isSome = true

theorem ready_of_canGo {node : Node} {call : Execute} {g i : ℕ} (hnode : s.nodes[g]? = some node)
    (hcall : node.garage.calls[i]? = some call) (h : call.CanGo node.garage.agent) :
    s.Ready ids library sha256 := by
  obtain ⟨e, halone, hstep⟩ := h
  rw [Choice.alone, Bool.and_eq_true, Bool.not_eq_true', Bool.not_eq_true'] at halone
  by_cases hwarm : call.stage.isWarm = true
  · refine ⟨.dispatch g i emptyPayload "", rfl, ?_⟩
    obtain ⟨q, stage, registration, dispatch⟩ := call
    cases stage with
    | warm => simp [step, hnode, hcall, ExecuteStage.isWarm, stepNode, State.step, Execute.step]
    | _ => cases hwarm
  · rw [Bool.not_eq_true] at hwarm
    refine ⟨.garage g i e, by rw [FleetAction.advances, halone.1]; rfl, ?_⟩
    simpa [step, hnode, hcall, hwarm, halone.2, stepNode, State.step] using hstep

theorem ready_of_waiting {e : ℕ} {guest : Guest} {node : Node} (he : s.guests[e]? = some guest)
    (hstage : guest.stage = .waiting) (hnode : s.nodes[guest.garage]? = some node)
    (hfree : none ∈ node.sharedLanes) : s.Ready ids library sha256 := by
  refine ⟨.assign e, rfl, ?_⟩
  obtain ⟨lane, hlane⟩ : ∃ lane, node.sharedLanes.findIdx? Option.isNone = some lane := by
    rw [← Option.isSome_iff_exists, List.findIdx?_isSome]
    exact List.any_eq_true.mpr ⟨none, hfree, rfl⟩
  simp [step, he, hstage, hnode, hlane]

theorem ready_of_calling {e lane : ℕ} {guest : Guest} {logical : LogicalInvocationRequest}
    (he : s.guests[e]? = some guest) (hstage : guest.stage = .calling lane logical) :
    s.Ready ids library sha256 :=
  ⟨.reject e, rfl, by simp [step, he, hstage]⟩

theorem ready_of_answered {e lane g i : ℕ} {guest : Guest} {call : Execute}
    (he : s.guests[e]? = some guest) (hstage : guest.stage = .forwarded lane g i)
    (hcall : s.call? g i = some call) (hover : call.stage.isOver = true) :
    s.Ready ids library sha256 := by
  rw [call?] at hcall
  exact ⟨.answer e, rfl, by simp [step, he, hstage, hcall, hover]⟩

theorem Books.ready_of_running (h : s.Books) {e lane : ℕ} {guest : Guest}
    (he : s.guests[e]? = some guest) (hstage : guest.stage = .running lane) :
    s.Ready ids library sha256 := by
  obtain ⟨task, htask, -, hruns⟩ := h.tasksAgree.handed e guest he
  obtain ⟨call, hcall, rfl⟩ := Option.map_eq_some_iff.mp htask
  obtain ⟨node, hnode, hi⟩ := call?_eq_some.mp hcall
  have hrunning : call.dispatches = true := hruns.mpr (by simp [hstage])
  obtain ⟨q, stage, registration, dispatch⟩ := call
  cases dispatch with
  | running =>
    refine ⟨.finish e (.error ""), rfl, ?_⟩
    simp [Fleet.step, he, hstage, hnode, State.step, hi, Execute.step]
  | unspawned | finished outcome => cases hrunning

/-! ### Waiting through nested calls -/

/-- A guest waits for a lane of Garage `g`, itself or through nested calls. -/
inductive Awaits (s : Fleet) : ℕ → ℕ → Prop
  | lane {e : ℕ} {guest : Guest} (he : s.guests[e]? = some guest)
      (hstage : guest.stage = .waiting) : Awaits s e guest.garage
  | nested {e e' lane g : ℕ} {guest guest' : Guest} {call : Execute}
      (he : s.guests[e]? = some guest)
      (hstage : guest.stage = .forwarded lane guest'.garage guest'.call)
      (he' : s.guests[e']? = some guest') (hcall : s.call? guest'.garage guest'.call = some call)
      (hlive : call.stage.isOver = false) (h : Awaits s e' g) :
    Awaits s e g

/-- All lanes of some Garages are held by guests that wait for lanes of these
Garages, themselves or through nested calls. -/
structure Entangled (s : Fleet) (S : Set ℕ) : Prop where
  nonempty : S.Nonempty
  hasLanes : ∀ g ∈ S, 0 < s.laneCount g
  held : ∀ g ∈ S, ∀ l < s.laneCount g, ∃ e, s.slot g l = some e ∧ ∃ g' ∈ S, s.Awaits e g'

def WaitedFor (s : Fleet) : Set ℕ :=
  {g | ∃ (e : ℕ) (guest : Guest), s.guests[e]? = some guest ∧ guest.stage = .waiting ∧
    guest.garage = g}

theorem Awaits.waitedFor {e g : ℕ} (h : s.Awaits e g) : g ∈ s.WaitedFor := by
  induction h with
  | lane he hstage => exact ⟨_, _, he, hstage, rfl⟩
  | nested _ _ _ _ _ _ ih => exact ih

theorem Awaits.stage {e g : ℕ} (h : s.Awaits e g) : ∃ guest, s.guests[e]? = some guest ∧
    (guest.stage = .waiting ∨ ∃ lane g' i, guest.stage = .forwarded lane g' i) := by
  cases h with
  | lane he hstage => exact ⟨_, he, .inl hstage⟩
  | nested he hstage => exact ⟨_, he, .inr ⟨_, _, _, hstage⟩⟩

/-- Everything was answered, and everything given back. -/
structure Quiet (s : Fleet) : Prop where
  calls : ∀ node ∈ s.nodes, ∀ call ∈ node.garage.calls,
    call.stage.isOver = true ∧ call.registers = false ∧ call.dispatches = false
  guests : ∀ guest ∈ s.guests, guest.stage = .finished
  lanes : ∀ node ∈ s.nodes, ∀ holder ∈ node.sharedLanes, holder = none

theorem Books.exists_guest (hs : s.Books) {g i : ℕ} {call : Execute}
    (hcall : s.call? g i = some call) (hruns : call.dispatches = true) :
    ∃ (e : ℕ) (guest : Guest), s.guests[e]? = some guest ∧
      guest.garage = g ∧ guest.call = i ∧ guest.stage ≠ .finished := by
  have htask : s.task? g i = some call.dispatch := by rw [task?, hcall, Option.map_some]
  have hspawned : call.dispatch.isSpawned = true := by
    revert hruns
    unfold Execute.dispatches
    cases call.dispatch <;> simp [BlockingTask.isRunning, BlockingTask.isSpawned]
  obtain ⟨e, guest, he, rfl, rfl⟩ := hs.tasksAgree.served g i _ htask hspawned
  obtain ⟨task, htask', -, hstage⟩ := hs.tasksAgree.handed e guest he
  obtain rfl := Option.some.inj (htask.symm.trans htask')
  exact ⟨e, guest, he, rfl, rfl, hstage.mp hruns⟩

section AtRest

variable (hs : s.Books) (hready : ¬ s.Ready ids library sha256)

include hs hready

theorem Books.parked_of_not_ready {node : Node} {call : Execute} (hnode : node ∈ s.nodes)
    (hcall : call ∈ node.garage.calls) (hlive : call.stage.isOver = false) :
    call.parked = true := by
  obtain ⟨maxPending, maxPreparations, hgarage⟩ := hs.live node hnode
  rcases hgarage.parked_or_canGo (hs.consistent node hnode) hcall hlive with
    hparked | ⟨x, hx, hgo⟩
  · exact hparked
  · obtain ⟨g, hg⟩ := List.mem_iff_getElem?.mp hnode
    obtain ⟨i, hi⟩ := List.mem_iff_getElem?.mp hx
    exact absurd (ready_of_canGo hg hi hgo) hready

/-- A guest that has not finished waits for a lane. The induction is on the
guests that come after it. -/
theorem Books.exists_awaits {e : ℕ} {guest : Guest} (he : s.guests[e]? = some guest)
    (hstage : guest.stage ≠ .finished) : ∃ g, s.Awaits e g := by
  induction hn : s.guests.length - e using Nat.strong_induction_on generalizing e guest with
  | h n ih =>
    cases hguest : guest.stage with
    | waiting => exact ⟨_, .lane he hguest⟩
    | running lane => exact absurd (hs.ready_of_running he hguest) hready
    | calling lane logical => exact absurd (ready_of_calling he hguest) hready
    | forwarded lane g i =>
      obtain ⟨⟨node, hnode, hi⟩, hlater⟩ := hs.calleesLater e guest lane g i he hguest
      have hcall : s.call? g i = some node.garage.calls[i] :=
        call?_eq_some.mpr ⟨node, hnode, List.getElem?_eq_getElem hi⟩
      have hlive : node.garage.calls[i].stage.isOver = false := by
        by_contra hover
        exact hready (ready_of_answered he hguest hcall (by simpa using hover))
      have hparked := hs.parked_of_not_ready hready (List.mem_of_getElem? hnode)
        (List.getElem_mem hi) hlive
      obtain ⟨e', guest', he', rfl, rfl, hstage'⟩ :=
        hs.exists_guest hcall (Execute.parked_iff.mp hparked).2
      have hlt := (List.getElem?_eq_some_iff.mp he').1
      have hafter := hlater e' guest' he' rfl rfl
      obtain ⟨g', hawaits⟩ := ih (s.guests.length - e') (by omega) he' hstage' rfl
      exact ⟨g', .nested he hguest he' hcall hlive hawaits⟩
    | finished => exact absurd hguest hstage

/-- The Garages whose lanes are waited for are entangled, if there are any. -/
theorem Books.entangled (hwaited : s.WaitedFor.Nonempty) : s.Entangled s.WaitedFor where
  nonempty := hwaited
  hasLanes := by
    rintro g ⟨e, guest, he, -, rfl⟩
    obtain ⟨node, hnode, -⟩ := hs.callsKnown guest (List.mem_of_getElem? he)
    rw [laneCount, hnode]
    exact List.length_pos_iff.mpr (hs.hasLanes node (List.mem_of_getElem? hnode))
  held := by
    rintro g ⟨e, guest, he, hstage, rfl⟩ l hl
    obtain ⟨node, hnode, -⟩ := hs.callsKnown guest (List.mem_of_getElem? he)
    have hlt : l < node.sharedLanes.length := by
      rwa [laneCount, hnode] at hl
    cases hholder : node.sharedLanes[l] with
    | none =>
      have hfree : none ∈ node.sharedLanes := hholder ▸ List.getElem_mem hlt
      exact absurd (ready_of_waiting he hstage hnode hfree) hready
    | some holder =>
      have hslot : s.slot guest.garage l = some holder :=
        slot_eq_some.mpr ⟨node, hnode, by rw [List.getElem?_eq_getElem hlt, hholder]⟩
      obtain ⟨x, hx, -, hlane⟩ := lane?_eq_some.mp ((hs.lanesAgree _ _ _).mp hslot)
      have hunfinished : x.stage ≠ .finished := by
        rintro h
        rw [h] at hlane
        cases hlane
      obtain ⟨g', hawaits⟩ := hs.exists_awaits hready hx hunfinished
      exact ⟨holder, hslot, g', hawaits.waitedFor, hawaits⟩

/-- Where no lane is waited for, everything is over. -/
theorem Books.quiet (hnone : ¬ s.WaitedFor.Nonempty) : s.Quiet := by
  have hfinished (e : ℕ) (guest : Guest) (he : s.guests[e]? = some guest) :
      guest.stage = .finished := by
    by_contra hstage
    obtain ⟨g, hawaits⟩ := hs.exists_awaits hready he hstage
    exact hnone ⟨g, hawaits.waitedFor⟩
  have hstopped {g i : ℕ} {call : Execute} (hcall : s.call? g i = some call) :
      call.dispatches = false := by
    by_contra hruns
    obtain ⟨e, guest, he, -, -, hstage⟩ := hs.exists_guest hcall (by simpa using hruns)
    exact hstage (hfinished e guest he)
  constructor
  · intro node hnode call hcall
    obtain ⟨g, hg⟩ := List.mem_iff_getElem?.mp hnode
    obtain ⟨i, hi⟩ := List.mem_iff_getElem?.mp hcall
    have hknown : s.call? g i = some call := call?_eq_some.mpr ⟨node, hg, hi⟩
    refine ⟨?_, ?_, hstopped hknown⟩
    · by_contra hlive
      have hparked := hs.parked_of_not_ready hready hnode hcall (by simpa using hlive)
      exact absurd (Execute.parked_iff.mp hparked).2 (by simp [hstopped hknown])
    · by_contra hregisters
      exact hready (ready_of_canGo hg hi (Execute.canGo_of_registers (by simpa using hregisters)))
  · intro guest hguest
    obtain ⟨e, he⟩ := List.mem_iff_getElem?.mp hguest
    exact hfinished e guest he
  · intro node hnode holder hholder
    obtain ⟨g, hg⟩ := List.mem_iff_getElem?.mp hnode
    obtain ⟨l, hl⟩ := List.mem_iff_getElem?.mp hholder
    cases holder with
    | none => rfl
    | some e =>
      have hslot : s.slot g l = some e := slot_eq_some.mpr ⟨node, hg, hl⟩
      obtain ⟨guest, he, -, hlane⟩ := lane?_eq_some.mp ((hs.lanesAgree _ _ _).mp hslot)
      rw [hfinished e guest he] at hlane
      cases hlane

theorem Books.quiet_or_entangled : s.Quiet ∨ ∃ S, s.Entangled S ∧ ∀ g i call,
    s.call? g i = some call → call.stage.isOver = false → ∃ (e : ℕ) (guest : Guest),
      s.guests[e]? = some guest ∧ guest.garage = g ∧ guest.call = i ∧ ∃ g' ∈ S, s.Awaits e g' := by
  by_cases hwaited : s.WaitedFor.Nonempty
  · refine .inr ⟨s.WaitedFor, hs.entangled hready hwaited, fun g i call hcall hlive => ?_⟩
    obtain ⟨node, hnode, hi⟩ := call?_eq_some.mp hcall
    have hparked := hs.parked_of_not_ready hready (List.mem_of_getElem? hnode)
      (List.mem_of_getElem? hi) hlive
    obtain ⟨e, guest, he, hgarage, hguest, hstage⟩ :=
      hs.exists_guest hcall (Execute.parked_iff.mp hparked).2
    obtain ⟨g', hawaits⟩ := hs.exists_awaits hready he hstage
    exact ⟨e, guest, he, hgarage, hguest, g', hawaits.waitedFor, hawaits⟩
  · exact .inl (hs.quiet hready hwaited)

end AtRest

/-- Every Garage takes a step of its own or none. -/
theorem Change.node (h : Change s a t) (hdrop : a.drops = false) {g : ℕ} {node : Node}
    (hnode : s.nodes[g]? = some node) : ∃ node', t.nodes[g]? = some node' ∧
      (node'.garage = node.garage ∨
        ∃ b, State.KeepsClients b ∧ node.garage.step b = some node'.garage) := by
  have hset {x : ℕ} {y y' : Node} (hy : s.nodes[x]? = some y) (hstep : y'.garage = y.garage ∨
      ∃ b, State.KeepsClients b ∧ y.garage.step b = some y'.garage) :
      ∃ node', (s.setNode x y').nodes[g]? = some node' ∧ (node'.garage = node.garage ∨
        ∃ b, State.KeepsClients b ∧ node.garage.step b = some node'.garage) := by
    rcases eq_or_ne x g with rfl | hne
    · obtain rfl := Option.some.inj (hnode.symm.trans hy)
      exact ⟨y', List.getElem?_set_self (List.getElem?_eq_some_iff.mp hnode).1, hstep⟩
    · exact ⟨node, (List.getElem?_set_ne hne).trans hnode, .inl rfl⟩
  cases h with
  | arrive hy hb => exact hset hy (.inr ⟨_, by simp [State.KeepsClients], hb⟩)
  | garage hy hcall hwarm hends hb =>
    refine hset hy (.inr ⟨_, ?_, hb⟩)
    rintro i e h
    cases h
    exact hdrop
  | dispatch hy hcall hwarm hb =>
    refine hset hy (.inr ⟨_, ?_, hb⟩)
    rintro i e h
    cases h
    rfl
  | assign he hstage hy hlane => exact hset hy (.inl rfl)
  | nested he hstage => exact ⟨node, hnode, .inl rfl⟩
  | forward he hstage hy hb => exact hset hy (.inr ⟨_, by simp [State.KeepsClients], hb⟩)
  | reject he hstage => exact ⟨node, hnode, .inl rfl⟩
  | answer he hstage hcall hover => exact ⟨node, hnode, .inl rfl⟩
  | finish he hstage hy hb =>
    refine hset hy (.inr ⟨_, ?_, hb⟩)
    rintro i e h
    cases h
    rfl

theorem Change.call (h : Change s a t) (hdrop : a.drops = false) {g i : ℕ} {call : Execute}
    (hcall : s.call? g i = some call) (hparked : call.parked = true) :
    ∃ call', t.call? g i = some call' ∧ call'.stage.isOver = false := by
  obtain ⟨node, hnode, hi⟩ := call?_eq_some.mp hcall
  obtain ⟨node', hnode', hsame | ⟨b, hkeeps, hb⟩⟩ := h.node hdrop hnode
  · refine ⟨call, call?_eq_some.mpr ⟨node', hnode', hsame ▸ hi⟩, ?_⟩
    rw [(Execute.parked_iff.mp hparked).1]
    rfl
  · obtain ⟨call', hi', hlive⟩ := State.step_parked hb hkeeps hi hparked
    exact ⟨call', call?_eq_some.mpr ⟨node', hnode', hi'⟩, hlive⟩

section Lasting

variable {S : Set ℕ} (hs : s.Books) (hS : s.Entangled S) (h : Change s a t)

include hS

theorem Entangled.not_free {g lane : ℕ} {node : Node} (hg : g ∈ S)
    (hnode : s.nodes[g]? = some node)
    (hlane : node.sharedLanes.findIdx? Option.isNone = some lane) : False := by
  obtain ⟨hlt, hfree, -⟩ := List.findIdx?_eq_some_iff_getElem.mp hlane
  obtain ⟨e, hslot, -⟩ := hS.held g hg lane (by rwa [laneCount, hnode])
  obtain ⟨node', hnode', hl⟩ := slot_eq_some.mp hslot
  obtain rfl := Option.some.inj (hnode.symm.trans hnode')
  rw [List.getElem?_eq_getElem hlt, Option.some_inj] at hl
  rw [hl] at hfree
  cases hfree

include hs in
theorem Entangled.not_running {e lane : ℕ} {guest : Guest} (he : s.guests[e]? = some guest)
    (hg : guest.garage ∈ S) (hstage : guest.stage = .running lane) : False := by
  have hslot : s.slot guest.garage lane = some e :=
    (hs.lanesAgree _ _ _).mpr (lane?_eq_some.mpr ⟨guest, he, rfl, by rw [hstage]; rfl⟩)
  obtain ⟨node, hnode, hl⟩ := slot_eq_some.mp hslot
  obtain ⟨e', hslot', g', -, hawaits⟩ := hS.held _ hg lane
    (by simpa [laneCount, hnode] using (List.getElem?_eq_some_iff.mp hl).1)
  obtain rfl := Option.some.inj (hslot.symm.trans hslot')
  obtain ⟨guest', he', hwaits | ⟨lane', g'', i, hforwarded⟩⟩ := hawaits.stage
  · obtain rfl := Option.some.inj (he.symm.trans he')
    cases hstage.symm.trans hwaits
  · obtain rfl := Option.some.inj (he.symm.trans he')
    cases hstage.symm.trans hforwarded

include hs h in
/-- The lanes of entangled Garages stay with their guests. -/
theorem Entangled.slot_eq {g : ℕ} (hg : g ∈ S) (l : ℕ) : t.slot g l = s.slot g l := by
  cases h with
  | arrive hnode hb => exact slot_set_self hnode rfl (by rfl) g l
  | garage hnode hcall hwarm hends hb => exact slot_set_self hnode rfl (by rfl) g l
  | dispatch hnode hcall hwarm hb => exact slot_set_self hnode rfl (by rfl) g l
  | @assign e guest node lane he hstage hnode hlane =>
    have hlt := (List.findIdx?_eq_some_iff_getElem.mp hlane).1
    refine (slot_setNode hnode rfl hlt).trans (if_neg ?_)
    rintro ⟨rfl, -⟩
    exact hS.not_free hg hnode hlane
  | nested he hstage => rfl
  | forward he hstage hnode hb => exact slot_set_self hnode rfl (by rfl) g l
  | reject he hstage => rfl
  | answer he hstage hcall hover => rfl
  | @finish e outcome guest node lane garage he hstage hnode hb =>
    have hslot : s.slot guest.garage lane = some e :=
      (hs.lanesAgree _ _ _).mpr (lane?_eq_some.mpr ⟨guest, he, rfl, by rw [hstage]; rfl⟩)
    obtain ⟨node', hnode', hl⟩ := slot_eq_some.mp hslot
    obtain rfl := Option.some.inj (hnode.symm.trans hnode')
    refine (slot_setNode hnode rfl (List.getElem?_eq_some_iff.mp hl).1).trans (if_neg ?_)
    rintro ⟨rfl, -⟩
    exact hS.not_running hs he hg hstage

include h in
/-- A guest that waits for a lane of entangled Garages does not move. -/
theorem Entangled.guest_eq {e g : ℕ} (hg : g ∈ S) (hawaits : s.Awaits e g) :
    t.guests[e]? = s.guests[e]? := by
  -- the guest waits at one of the Garages, or its call is not over
  have hstuck : ∃ guest, s.guests[e]? = some guest ∧
      (guest.stage = .waiting ∧ guest.garage ∈ S ∨ ∃ lane g' i call,
        guest.stage = .forwarded lane g' i ∧ s.call? g' i = some call ∧
          call.stage.isOver = false) := by
    cases hawaits with
    | lane he hstage => exact ⟨_, he, .inl ⟨hstage, hg⟩⟩
    | nested he hstage he' hcall hlive => exact ⟨_, he, .inr ⟨_, _, _, _, hstage, hcall, hlive⟩⟩
  obtain ⟨guest, he, hstuck⟩ := hstuck
  have hother {u : Fleet} (hu : u.guests = s.guests) {x : ℕ} {y : Guest} {stage : GuestStage}
      (hx : s.guests[x]? = some y) (hne : x ≠ e) :
      (u.setStage x y stage).guests[e]? = s.guests[e]? := by
    rw [getElem?_setStage (hu ▸ hx), if_neg hne.symm, hu]
  cases h with
  | arrive | garage => rfl
  | dispatch => rw [getElem?_append_of_some he, he]
  | @assign x y node lane hx hstage hnode hlane =>
    refine hother rfl hx ?_
    rintro rfl
    obtain rfl := Option.some.inj (he.symm.trans hx)
    rcases hstuck with ⟨-, hgarage⟩ | ⟨lane', g', i, call, hforwarded, -⟩
    · exact hS.not_free hgarage hnode hlane
    · cases hstage.symm.trans hforwarded
  | @answer x y lane g' i call hx hstage hcall hover =>
    refine hother rfl hx ?_
    rintro rfl
    obtain rfl := Option.some.inj (he.symm.trans hx)
    rcases hstuck with ⟨hwaiting, -⟩ | ⟨lane', g'', j, call', hforwarded, hcall', hlive⟩
    · cases hstage.symm.trans hwaiting
    · cases hstage.symm.trans hforwarded
      obtain rfl := Option.some.inj (hcall.symm.trans hcall')
      rw [hover] at hlive
      cases hlive
  | nested hx hstage | forward hx hstage hnode hb | reject hx hstage | finish hx hstage hnode hb =>
    refine hother rfl hx ?_
    rintro rfl
    obtain rfl := Option.some.inj (he.symm.trans hx)
    rcases hstuck with ⟨hwaiting, -⟩ | ⟨lane', g', i, call, hforwarded, -⟩
    · cases hstage.symm.trans hwaiting
    · cases hstage.symm.trans hforwarded

include hs h in
/-- It waits for the lane still. -/
theorem Entangled.awaits (hdrop : a.drops = false) {e g : ℕ} (hg : g ∈ S)
    (hawaits : s.Awaits e g) : t.Awaits e g := by
  induction hawaits with
  | lane he hstage =>
    have hsame := hS.guest_eq h hg (.lane he hstage)
    exact .lane (hsame.trans he) hstage
  | @nested e e' lane g guest guest' call he hstage he' hcall hlive hinner ih =>
    have hsame := hS.guest_eq h hg (.nested he hstage he' hcall hlive hinner)
    have hsame' := hS.guest_eq h hg hinner
    -- the guest of the call has not finished, so the call waits for it
    have hunfinished : guest'.stage ≠ .finished := by
      obtain ⟨x, hx, hx'⟩ := hinner.stage
      obtain rfl := Option.some.inj (he'.symm.trans hx)
      rcases hx' with hwaiting | ⟨lane', g', i, hforwarded⟩
      · simp [hwaiting]
      · simp [hforwarded]
    obtain ⟨task, htask, -, hruns⟩ := hs.tasksAgree.handed e' guest' he'
    rw [task?, hcall, Option.map_some, Option.some_inj] at htask
    have hdispatches : call.dispatches = true := by
      rw [Execute.dispatches, htask]
      exact hruns.mpr hunfinished
    obtain ⟨node, hnode, hi⟩ := call?_eq_some.mp hcall
    have hparked := (hs.consistent node (List.mem_of_getElem? hnode) call
      (List.mem_of_getElem? hi)).parked hdispatches hlive
    obtain ⟨call', hcall', hlive'⟩ := h.call hdrop hcall hparked
    exact .nested (hsame.trans he) hstage (hsame'.trans he') hcall' hlive' (ih hg)

end Lasting

theorem Change.laneCount_eq (h : Change s a t) (g : ℕ) : t.laneCount g = s.laneCount g := by
  cases h with
  | arrive hnode hb => exact laneCount_set hnode rfl (by rfl) g
  | garage hnode hcall hwarm hends hb => exact laneCount_set hnode rfl (by rfl) g
  | dispatch hnode hcall hwarm hb => exact laneCount_set hnode rfl (by rfl) g
  | assign he hstage hnode hlane => exact laneCount_set hnode rfl (by simp) g
  | nested he hstage => rfl
  | forward he hstage hnode hb => exact laneCount_set hnode rfl (by rfl) g
  | reject he hstage => rfl
  | answer he hstage hcall hover => rfl
  | finish he hstage hnode hb => exact laneCount_set hnode rfl (by simp) g

theorem Entangled.step {S : Set ℕ} (hS : s.Entangled S) (hs : s.Books) (h : Change s a t)
    (hdrop : a.drops = false) : t.Entangled S where
  nonempty := hS.nonempty
  hasLanes g hg := by
    rw [h.laneCount_eq]
    exact hS.hasLanes g hg
  held g hg l hl := by
    rw [h.laneCount_eq] at hl
    obtain ⟨e, hslot, g', hg', hawaits⟩ := hS.held g hg l hl
    exact ⟨e, (hS.slot_eq hs h hg l).trans hslot, g', hg', hS.awaits hs h hdrop hg' hawaits⟩

/-- Nothing is left to do, as one sees it on the calls and the guests. -/
def halted (s : Fleet) : Bool :=
  (s.nodes.all fun node => node.garage.calls.all fun call =>
    (call.stage.isOver || call.parked) && !call.registers) &&
  s.guests.all fun guest =>
    match guest.stage with
    | .waiting => (s.nodes[guest.garage]?).all fun node => node.sharedLanes.all Option.isSome
    | .running _ | .calling _ _ => false
    | .forwarded _ g i => (s.call? g i).all fun call => !call.stage.isOver
    | .finished => true

theorem not_ready_of_halted (h : s.halted = true) : ¬ s.Ready ids library sha256 := by
  rw [halted, Bool.and_eq_true, List.all_eq_true, List.all_eq_true] at h
  obtain ⟨hcalls, hguests⟩ := h
  have hcall {g i : ℕ} {node : Node} {call : Execute} (hnode : s.nodes[g]? = some node)
      (hi : node.garage.calls[i]? = some call) :
      (call.stage.isOver || call.parked) = true ∧ call.registers = false := by
    have hnode := hcalls node (List.mem_of_getElem? hnode)
    simpa using List.all_eq_true.mp hnode call (List.mem_of_getElem? hi)
  rintro ⟨a, hadvances, hstep⟩
  obtain ⟨t, ht⟩ := Option.isSome_iff_exists.mp hstep
  cases step_change ht with
  | arrive => cases hadvances
  | @garage g i choice node call garage hnode hi hwarm hends hb =>
    obtain ⟨hover, hregisters⟩ := hcall hnode hi
    have halone : choice.alone = true := by
      rw [Choice.alone, hends, Bool.and_eq_true]
      exact ⟨hadvances, rfl⟩
    cases State.step_cases hb with
    | call hj hr =>
      obtain rfl := Option.some.inj (hi.symm.trans hj)
      rw [Execute.step_eq_none_of_halted hover hregisters halone] at hr
      cases hr
  | @dispatch g i payload id node call garage hnode hi hwarm hb =>
    obtain ⟨hover, -⟩ := hcall hnode hi
    revert hover hwarm
    unfold Execute.parked
    cases call.stage <;> simp [ExecuteStage.isWarm, ExecuteStage.isOver]
  | @assign e guest node lane he hstage hnode hlane =>
    have hfull := hguests guest (List.mem_of_getElem? he)
    simp only [hstage, hnode, Option.all_some, List.all_eq_true] at hfull
    obtain ⟨hlt, hfree, -⟩ := List.findIdx?_eq_some_iff_getElem.mp hlane
    have hheld := hfull _ (List.getElem_mem hlt)
    rw [Option.isNone_iff_eq_none.mp hfree] at hheld
    cases hheld
  | answer he hstage hcall hover =>
    have hlive := hguests _ (List.mem_of_getElem? he)
    simp [hstage, hcall, hover] at hlive
  | nested he hstage | forward he hstage hnode hb | reject he hstage | finish he hstage hnode hb =>
    have hidle := hguests _ (List.mem_of_getElem? he)
    simp [hstage] at hidle

section Demo

def threeGarages : List (GarageAgent × ℕ) :=
  [(.new "garage-1" 1 2 1, 1), (.new "garage-2" 1 2 1, 2), (.new "garage-3" 1 2 1, 1)]

/-- A guest of the first Garage calls the second, whose guest calls the third; a
guest of the third calls the first. -/
def detouredCalls : List FleetAction :=
  [[.arrive 0 (State.requestFor "sha256:a"), .arrive 2 (State.requestFor "sha256:a")],
    firstGuest 0, firstGuest 2, [.assign 0, .assign 1], callsOver 0 "garage-1" 1, firstGuest 1,
    [.assign 2, .nested 2 (.sendRequest ⟨some "svc", none, "GET", [], .ok []⟩) "1",
      .forward 2 2 { State.requestFor "sha256:a" with
        invocationDepth := 2, visitedGarages := ["garage-1", "garage-2"] }],
    callsOver 1 "garage-3" 0, nextGuest 2 1, nextGuest 0 1].flatten

theorem unused_threeGarages : Unused threeGarages := by
  intro p hp
  simp only [threeGarages, List.mem_cons, List.not_mem_nil, or_false] at hp
  rcases hp with rfl | rfl | rfl <;> exact ⟨by decide, _, _, _, _, rfl⟩

/-- Another request of the first Garage, which is admitted, and whose guest waits
with the others. -/
def lateRequest : List FleetAction :=
  .arrive 1 (State.requestFor "sha256:a") :: nextGuest 1 1

end Demo

end Fleet

end PitBox.Garage
