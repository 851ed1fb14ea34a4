import PitBox.Garage.Admission
import PitBox.Garage.Invoker

/-!
# Chains of nested calls

A guest that runs in a Garage calls a service, PitLane forwards the call to a
Garage, and a guest that is started there calls again. Every started guest has
its Garage at the end of its path and every Garage refuses a path it is on, so
a chain comes to no Garage twice and its depth is the length of its path.
-/

namespace PitBox.Garage

open PitBox.Runtime

/-! ### Which requests start a guest -/

theorem GarageAgent.refuses_congr {g g' : GarageAgent} (hid : g'.id = g.id)
    (hversion : g'.protocolVersion = g.protocolVersion) : g'.refuses = g.refuses := by
  funext request
  simp only [refuses, hid, hversion]

theorem GarageAgent.not_mem_of_refuses {g : GarageAgent} {request : RemoteExecutionRequest}
    (h : g.refuses request = none) :
    g.id ∉ request.visitedGarages ∧ request.invocationDepth ≤ 16 := by
  unfold refuses at h
  split_ifs at h with _ _ hvisited hdepth
  exact ⟨hvisited, Nat.le_of_not_gt hdepth⟩

namespace Execute

variable {g g' : GarageAgent} {r r' : Execute} {e : Choice}

theorem step_refuses (h : r.step g e = some (g', r')) : g'.refuses = g.refuses := by
  apply GarageAgent.refuses_congr
  all_goals
    revert h
    fun_cases step g r e <;> intro h <;> cases h <;> rfl

def Passed (g : GarageAgent) (r : Execute) : Prop :=
  g.refuses r.request = none ∨
    (r.dispatch = .unspawned ∧ (r.stage = .arrived ∨ ∃ response, r.stage = .responded response))

theorem step_passed (hr : r.Passed g) (h : r.step g e = some (g', r')) : r'.Passed g' := by
  rw [Passed, step_refuses h, step_request h]
  rcases hr with hr | ⟨hdispatch, hstage⟩
  · exact .inl hr
  · revert h hdispatch hstage
    fun_cases step g r e <;> intro h hdispatch hstage <;> cases h
    all_goals first
      | exact .inr ⟨hdispatch, .inr ⟨_, rfl⟩⟩
      | exact .inr ⟨hdispatch, hstage⟩
      | exact .inl ‹_›
      | (cases hdispatch; done)
      | (obtain h | ⟨_, h⟩ := hstage <;> cases h)

end Execute

namespace State

theorem step_passed {s t : State} {a : Action} (hs : ∀ r ∈ s.calls, r.Passed s.agent)
    (h : s.step a = some t) : ∀ r ∈ t.calls, r.Passed t.agent := by
  cases step_cases h with
  | arrive request =>
    intro r hr
    rcases List.mem_append.mp hr with hr | hr
    · exact hs r hr
    · obtain rfl := List.mem_singleton.mp hr
      exact .inr ⟨rfl, .inl rfl⟩
  | @call i e r g' r' hi hr =>
    intro c hc
    rcases List.mem_or_eq_of_mem_set hc with hc | rfl
    · have hpassed := hs c hc
      rwa [Execute.Passed, ← Execute.step_refuses hr] at hpassed
    · exact Execute.step_passed (hs r (List.mem_of_getElem? hi)) hr

theorem step_agent_refuses {s t : State} {a : Action} (h : s.step a = some t) :
    t.agent.refuses = s.agent.refuses := by
  cases step_cases h with
  | arrive request => rfl
  | call hi hr => exact Execute.step_refuses hr

theorem exec_refuses {g : GarageAgent} {as : List Action} {s : State}
    (h : exec (initial g) as = some s) {r : Execute} (hr : r ∈ s.calls)
    (hstarted : r.dispatch ≠ .unspawned) : g.refuses r.request = none := by
  have hinv : s.agent.refuses = g.refuses ∧ ∀ r ∈ s.calls, r.Passed s.agent := by
    apply Transition.exec_invariant_of_step
      (I := fun s => s.agent.refuses = g.refuses ∧ ∀ r ∈ s.calls, r.Passed s.agent) ?_ ?_ h
    · rintro s a t ⟨hagent, hpassed⟩ hstep
      exact ⟨(step_agent_refuses hstep).trans hagent, step_passed hpassed hstep⟩
    · exact ⟨rfl, by simp [initial]⟩
  rcases hinv.2 r hr with hnone | ⟨hunspawned, -⟩
  · rw [← hinv.1]
    exact hnone
  · exact absurd hunspawned hstarted

end State

/-! ### Chains -/

namespace GuestExecution

/-- The Garage starts a guest for the request: in some run of the Garage, among
any other requests, the request is handed to the dispatcher. -/
def Starts (e : GuestExecution) : Prop :=
  ∃ as s, State.exec (State.initial e.garage) as = some s ∧
    ∃ r ∈ s.calls, r.request = e.request ∧ r.dispatch ≠ .unspawned

variable (ids : GarageIds) (library : ServiceLibrary) (sha256 : Bytes → Sha256)

/-- The guest of `e` makes a nested call that PitLane forwards to `next`. -/
def Forwards (e next : GuestExecution) : Prop :=
  ∃ nestedCall requestId logical,
    e.nested ids library sha256 nestedCall requestId = some logical ∧
      next.request.invocationDepth = logical.invocationDepth ∧
      next.request.visitedGarages = logical.visitedGarages

variable {ids : GarageIds} {library : ServiceLibrary} {sha256 : Bytes → Sha256}
  {e next : GuestExecution} {chain : List GuestExecution}

theorem Starts.refuses (h : e.Starts) : e.garage.refuses e.request = none := by
  obtain ⟨as, s, hrun, r, hr, hrequest, hstarted⟩ := h
  rw [← hrequest]
  exact State.exec_refuses hrun hr hstarted

theorem Starts.not_mem (h : e.Starts) : e.garage.id ∉ e.request.visitedGarages :=
  (GarageAgent.not_mem_of_refuses h.refuses).1

theorem Starts.depth_le (h : e.Starts) : e.request.invocationDepth ≤ 16 :=
  (GarageAgent.not_mem_of_refuses h.refuses).2

theorem Starts.depth_succ (h : e.Starts) :
    saturatingSucc e.request.invocationDepth = e.request.invocationDepth + 1 := by
  have hle := h.depth_le
  exact saturatingSucc_of_lt (by omega)

theorem Forwards.context (hids : ids.ParsesBack) (hstarts : e.Starts)
    (h : Forwards ids library sha256 e next) :
    next.request.invocationDepth = e.request.invocationDepth + 1 ∧
      next.request.visitedGarages = e.request.visitedGarages ++ [e.garage.id] := by
  obtain ⟨nestedCall, requestId, logical, hnested, hdepth, hvisited⟩ := h
  obtain ⟨hlogical, hpath⟩ := nested_context hids hnested
  exact ⟨hdepth.trans (hlogical.trans hstarts.depth_succ), hvisited.trans hpath⟩

/-- Along a chain the path only grows and the depth counts the links. -/
theorem chain_context (hids : ids.ParsesBack) (hstarts : ∀ x ∈ e :: chain, x.Starts)
    (hchain : List.IsChain (Forwards ids library sha256) (e :: chain)) :
    ((e :: chain).map (·.garage.id)).Nodup ∧
      (∀ x ∈ e :: chain, x.garage.id ∉ e.request.visitedGarages) ∧
      ∀ k x, (e :: chain)[k]? = some x →
        x.request.invocationDepth = e.request.invocationDepth + k := by
  induction chain generalizing e with
  | nil =>
    refine ⟨List.nodup_singleton _, ?_, ?_⟩
    · intro x hx
      obtain rfl := List.mem_singleton.mp hx
      exact (hstarts x hx).not_mem
    · intro k x hk
      obtain ⟨hlt, rfl⟩ := List.getElem?_eq_some_iff.mp hk
      obtain rfl : k = 0 := Nat.lt_one_iff.mp hlt
      rfl
  | cons next chain ih =>
    obtain ⟨hlink, htail⟩ := List.isChain_cons_cons.mp hchain
    have hfirst := hstarts e List.mem_cons_self
    obtain ⟨hdepth, hvisited⟩ := hlink.context hids hfirst
    obtain ⟨hnodup, havoids, hdepths⟩ :=
      ih (fun x hx => hstarts x (List.mem_cons_of_mem _ hx)) htail
    rw [hvisited] at havoids
    refine ⟨?_, ?_, ?_⟩
    · rw [List.map_cons, List.nodup_cons]
      refine ⟨fun hmem => ?_, hnodup⟩
      obtain ⟨x, hx, hid⟩ := List.mem_map.mp hmem
      exact havoids x hx (List.mem_append.mpr (.inr (List.mem_singleton.mpr hid)))
    · intro x hx
      rcases List.mem_cons.mp hx with rfl | hx
      · exact hfirst.not_mem
      · exact fun hmem => havoids x hx (List.mem_append.mpr (.inl hmem))
    · intro k x hk
      cases k with
      | zero =>
        obtain rfl := Option.some.inj hk
        rfl
      | succ k =>
        rw [hdepths k x hk, hdepth]
        omega

/-- Chains of nested calls over a fleet: no Garage twice and none the first
request has come through, one level per guest without saturation, and no more
guests than Garages or levels. -/
theorem chain_bounded {fleet : List GarageAgent} (hids : ids.ParsesBack)
    (hfleet : ∀ x ∈ e :: chain, x.garage ∈ fleet) (hstarts : ∀ x ∈ e :: chain, x.Starts)
    (hchain : List.IsChain (Forwards ids library sha256) (e :: chain)) :
    ((e :: chain).map (·.garage.id)).Nodup ∧
      (∀ x ∈ e :: chain, x.garage.id ∉ e.request.visitedGarages) ∧
      (∀ k x, (e :: chain)[k]? = some x →
        x.request.invocationDepth = e.request.invocationDepth + k ∧
          x.request.invocationDepth ≤ 16 ∧
          saturatingSucc x.request.invocationDepth = x.request.invocationDepth + 1) ∧
      (e :: chain).length ≤ min fleet.length (17 - e.request.invocationDepth) := by
  obtain ⟨hnodup, havoids, hdepths⟩ := chain_context hids hstarts hchain
  refine ⟨hnodup, havoids, fun k x hk => ?_, le_min ?_ ?_⟩
  · have hx := hstarts x (List.mem_of_getElem? hk)
    exact ⟨hdepths k x hk, hx.depth_le, hx.depth_succ⟩
  · have hsub : (e :: chain).map (·.garage.id) ⊆ fleet.map (·.id) := by
      intro id hid
      obtain ⟨x, hx, rfl⟩ := List.mem_map.mp hid
      exact List.mem_map_of_mem (hfleet x hx)
    have hle := (hnodup.subperm hsub).length_le
    simpa using hle
  · have hlast : (e :: chain)[chain.length]? = some ((e :: chain).getLast (by simp)) := by
      rw [List.getLast_eq_getElem]
      simp
    have hdepth := hdepths _ _ hlast
    have hle := (hstarts _ (List.getLast_mem (by simp))).depth_le
    simp only [List.length_cons]
    omega

section Demo

def plainIds : GarageIds := ⟨id, some⟩

/-- Libraries that accept everything. What follows `pit://` is a service up to
the first slash, and then a path. -/
def plainLibrary : ServiceLibrary where
  parseUri uri :=
    let rest := uri.toList.drop "pit://".length
    .ok ⟨.ofList (rest.takeWhile (· ≠ '/')), .ofList (rest.dropWhile (· ≠ '/'))⟩
  method _ := .ok ()
  headerName _ := .ok ()
  headerValue _ := .ok ()

def plainSha256 (_ : Bytes) : Sha256 := Vector.replicate 32 0

/-- A guest of the Garage `id` at a depth, with a path. -/
def guestOf (id : GarageId) (depth : ℕ) (visited : List GarageId) : GuestExecution where
  garage := .new id 1 1 1
  maxInvocationDepth := 16
  grants := []
  request := { State.requestFor "sha256:a" with
    invocationDepth := depth
    visitedGarages := visited }
  payload := ⟨[], [], [], [], none, none⟩
  executionId := "0"

def startRun (e : GuestExecution) : List Action :=
  .arrive e.request :: (State.upToRegistration 0 ++ State.upToDispatch 0)

theorem starts_of_startRun {e : GuestExecution}
    (h : (State.exec (State.initial e.garage) (startRun e)).map
      (fun s => s.calls.map fun r => (r.request, r.dispatches)) = some [(e.request, true)]) :
    e.Starts := by
  obtain ⟨s, hs, hcalls⟩ := Option.map_eq_some_iff.mp h
  have hmem : (e.request, true) ∈ s.calls.map fun r => (r.request, r.dispatches) := by
    rw [hcalls]
    exact List.mem_singleton_self _
  obtain ⟨r, hr, heq⟩ := List.mem_map.mp hmem
  refine ⟨_, s, hs, r, hr, congrArg Prod.fst heq, fun hunspawned => ?_⟩
  have hruns : r.dispatches = true := congrArg Prod.snd heq
  rw [Execute.dispatches, hunspawned] at hruns
  cases hruns

/-- A guest of the first Garage calls a service that PitLane finds on the second. -/
theorem chain_bounded_twoGarages :
    [guestOf "garage-1" 0 [], guestOf "garage-2" 1 ["garage-1"]].length ≤
      min [GarageAgent.new "garage-1" 1 1 1, .new "garage-2" 1 1 1].length (17 - 0) := by
  have hids : plainIds.ParsesBack := fun _ => rfl
  have hlink : Forwards plainIds plainLibrary plainSha256 (guestOf "garage-1" 0 [])
      (guestOf "garage-2" 1 ["garage-1"]) :=
    ⟨.sendRequest ⟨some "svc", none, "GET", [], .ok []⟩, "2", _, rfl, rfl, rfl⟩
  have hchain := chain_bounded (e := guestOf "garage-1" 0 []) hids
    (show ∀ x ∈ [guestOf "garage-1" 0 [], guestOf "garage-2" 1 ["garage-1"]],
      x.garage ∈ [GarageAgent.new "garage-1" 1 1 1, .new "garage-2" 1 1 1] from ?_) ?_
    (List.isChain_pair.mpr hlink)
  · exact hchain.2.2.2
  · intro x hx
    rcases List.mem_pair.mp hx with rfl | rfl
    · exact List.mem_cons_self
    · exact List.mem_cons_of_mem _ List.mem_cons_self
  · intro x hx
    rcases List.mem_pair.mp hx with rfl | rfl <;>
      exact starts_of_startRun (by decide +kernel)

end Demo

end GuestExecution

end PitBox.Garage
