import PitBox.Garage.LaneDeadlock

/-!
# The configured limit of the depth

A Garage looks at the depth of an invocation twice: where a request arrives,
and where a guest of it calls a service. The invoker of its guests has the
configured limit, and the check of arriving requests a constant. The two agree
on every request that does not lie between the constant and the limit, and on
those that are refused before their depth is looked at.
-/

namespace PitBox.Garage

open PitBox.Runtime

/-! ### The check of arriving requests -/

def depthMessage : String := "maximum invocation depth exceeded"

namespace GarageAgent

variable {g : GarageAgent} {request : RemoteExecutionRequest}

/-- The checks before that of the depth let the request pass. -/
def ReachesDepthCheck (g : GarageAgent) (request : RemoteExecutionRequest) : Prop :=
  g.refuses { request with invocationDepth := 0 } = none

instance (g : GarageAgent) (request : RemoteExecutionRequest) :
    Decidable (g.ReachesDepthCheck request) := inferInstanceAs (Decidable (_ = none))

theorem refuses_eq_none_iff :
    g.refuses request = none ↔ g.ReachesDepthCheck request ∧ request.invocationDepth ≤ 16 := by
  unfold ReachesDepthCheck refuses
  dsimp only
  split_ifs <;> simp_all

theorem refuses_depth (h : g.refuses request = some (.invocationCycle, depthMessage)) :
    g.ReachesDepthCheck request ∧ 16 < request.invocationDepth := by
  unfold ReachesDepthCheck
  unfold refuses at h ⊢
  split_ifs at h with hversion hcontract hvisited hdepth
  · simp at h
  · simp at h
  · simp [depthMessage] at h
  · simp [hversion, hcontract, hvisited, hdepth]

/-- The check is that of a limit on the requests that reach it exactly if the
limit is 16. -/
theorem refuses_isSome_iff (g : GarageAgent) (limit : ℕ) :
    (∀ request, g.ReachesDepthCheck request →
        ((g.refuses request).isSome ↔ limit < request.invocationDepth)) ↔ limit = 16 := by
  have hchecks (request : RemoteExecutionRequest) (h : g.ReachesDepthCheck request) :
      (g.refuses request).isSome ↔ 16 < request.invocationDepth := by
    rw [← Option.ne_none_iff_isSome, ne_eq, refuses_eq_none_iff, not_and, Nat.not_le]
    exact ⟨fun hdeep => hdeep h, fun hdeep _ => hdeep⟩
  constructor
  · intro h
    have hall (depth : ℕ) : 16 < depth ↔ limit < depth := by
      let request : RemoteExecutionRequest :=
        ⟨g.protocolVersion, "", "", none, .wasiHttpProxy, [], depth⟩
      have hreaches : g.ReachesDepthCheck request := by
        simp [ReachesDepthCheck, refuses, request]
      rw [← h request hreaches, hchecks request hreaches]
    have hupper := hall (limit + 1)
    have hlower := hall limit
    have hconstant := hall 16
    omega
  · rintro rfl request
    exact hchecks request

end GarageAgent

namespace Execute

variable {g g' : GarageAgent} {r r' : Execute} {e : Choice}

/-- The call has been refused because of its depth. -/
def RefusedForDepth (r : Execute) : Prop :=
  ∃ response, r.stage = .responded response ∧ response.error = some .invocationCycle ∧
    response.errorMessage = some depthMessage

theorem dispatchResponse_error (base : RemoteExecutionResponse) (hbase : base.error = none)
    (outcome : Except String (Except String HttpDispatchResult)) :
    (dispatchResponse base outcome).error ≠ some .invocationCycle := by
  match outcome with
  | .error error | .ok (.error error) => simp [dispatchResponse, failureStarted, failure]
  | .ok (.ok result) =>
    unfold dispatchResponse
    dsimp only
    cases result.response with
    | some response => simp [hbase]
    | none =>
      dsimp only
      split_ifs <;> simp

/-- Only requests that reach the check and are deeper than the constant are
refused for their depth. -/
theorem step_refusedForDepth
    (hr : r.RefusedForDepth → g.ReachesDepthCheck r.request ∧ 16 < r.request.invocationDepth)
    (h : r.step g e = some (g', r')) (hrefused : r'.RefusedForDepth) :
    g.ReachesDepthCheck r'.request ∧ 16 < r'.request.invocationDepth := by
  obtain ⟨response, hstage, herror, hmessage⟩ := hrefused
  rw [step_request h]
  rcases step_responded h hstage with hbefore | hresponds
  · exact hr ⟨response, hbefore, herror, hmessage⟩
  · cases hresponds with
    | @refused error message _ hrefuses =>
      cases herror
      cases hmessage
      exact GarageAgent.refuses_depth hrefuses
    | overloaded => cases herror
    | unavailable => cases herror
    | dispatched => exact absurd herror (dispatchResponse_error _ rfl _)

end Execute

/-! ### Runs of a fleet -/

/-- The request that arrives at a Garage in a step. -/
def FleetAction.arrival : FleetAction → Option (ℕ × RemoteExecutionRequest)
  | .arrive g request => some (g, request)
  | .forward _ g request => some (g, request)
  | _ => none

namespace Fleet

/-- A fleet nobody has used, given by the agents of its Garages with their
configured limits and their numbers of lanes. -/
def configured (garages : List (GarageAgent × ℕ × ℕ)) : Fleet where
  nodes := garages.map fun (agent, maxInvocationDepth, laneCount) =>
    ⟨.initial agent, maxInvocationDepth, [], List.replicate laneCount none⟩
  guests := []

/-- The Garages start guests only up to their limits, refuse only requests beyond
them for their depth, and so do the invokers of their guests. -/
def DepthEnforced (ids : GarageIds) (s : Fleet) : Prop :=
  ∀ node ∈ s.nodes,
    (∀ r ∈ node.garage.calls,
      (r.dispatch ≠ .unspawned → r.request.invocationDepth ≤ node.maxInvocationDepth) ∧
        (r.RefusedForDepth → node.maxInvocationDepth < r.request.invocationDepth)) ∧
      ∀ call guest requestId invocation,
        (∃ error, (execution node call guest).invoker.invoke ids requestId invocation =
          .error error) ↔ node.maxInvocationDepth < invocation.depth

/-- The depth of an arriving request that will be checked is not between the
constant and the limit. -/
def OutsideGap (s : Fleet) (a : FleetAction) : Prop :=
  ∀ g request, a.arrival = some (g, request) → ∀ node ∈ s.nodes[g]?,
    node.garage.agent.ReachesDepthCheck request →
      (request.invocationDepth ≤ 16 ↔ request.invocationDepth ≤ node.maxInvocationDepth)

variable {ids : GarageIds} {library : ServiceLibrary} {sha256 : Bytes → Sha256} {s t : Fleet}
  {a : FleetAction}

/-- What a step may do to Garage `k`: it keeps its limit, and makes at most one
step of its own. -/
def NodeMove (a : FleetAction) (k : ℕ) (node node' : Node) : Prop :=
  node'.maxInvocationDepth = node.maxInvocationDepth ∧
    (node'.garage = node.garage ∨ ∃ b, node.garage.step b = some node'.garage ∧
      ∀ request, b = .arrive request → a.arrival = some (k, request))

theorem nodeMove_set {g k : ℕ} {node node' x : Node} (hnode : s.nodes[g]? = some node)
    (hk : (s.nodes.set g x)[k]? = some node') (hmove : NodeMove a g node x) :
    ∃ node, s.nodes[k]? = some node ∧ NodeMove a k node node' := by
  rcases eq_or_ne g k with rfl | hne
  · rw [List.getElem?_set_self (List.getElem?_eq_some_iff.mp hnode).1] at hk
    obtain rfl := Option.some.inj hk
    exact ⟨node, hnode, hmove⟩
  · rw [List.getElem?_set_ne hne] at hk
    exact ⟨node', hk, rfl, .inl rfl⟩

theorem step_nodes (h : s.step ids library sha256 a = some t) {k : ℕ} {node' : Node}
    (hk : t.nodes[k]? = some node') :
    ∃ node, s.nodes[k]? = some node ∧ NodeMove a k node node' := by
  revert h
  fun_cases step ids library sha256 s a <;> intro h
  all_goals try cases h
  case case1 g request =>
    obtain ⟨node, garage, hnode, hb, rfl⟩ := stepNode_eq_some h
    refine nodeMove_set hnode hk ⟨rfl, .inr ⟨_, hb, ?_⟩⟩
    rintro request' ⟨⟩
    rfl
  case case3 =>
    obtain ⟨node, garage, hnode, hb, rfl⟩ := stepNode_eq_some h
    exact nodeMove_set hnode hk ⟨rfl, .inr ⟨_, hb, fun _ hcall => by cases hcall⟩⟩
  case case5 =>
    obtain ⟨u, hu, rfl⟩ := Option.map_eq_some_iff.mp h
    obtain ⟨node, garage, hnode, hb, rfl⟩ := stepNode_eq_some hu
    exact nodeMove_set hnode hk ⟨rfl, .inr ⟨_, hb, fun _ hcall => by cases hcall⟩⟩
  case case8 node hnode hstage lane hlane nodes =>
    exact nodeMove_set hnode hk ⟨rfl, .inl rfl⟩
  case case12 =>
    obtain ⟨call, -, h⟩ := Option.bind_eq_some_iff.mp h
    obtain ⟨logical, -, rfl⟩ := Option.map_eq_some_iff.mp h
    exact ⟨node', hk, rfl, .inl rfl⟩
  case case15 =>
    obtain ⟨u, hu, rfl⟩ := Option.map_eq_some_iff.mp h
    obtain ⟨node, garage, hnode, hb, rfl⟩ := stepNode_eq_some hu
    refine nodeMove_set hnode hk ⟨rfl, .inr ⟨_, hb, ?_⟩⟩
    rintro request' ⟨⟩
    rfl
  case case19 => exact ⟨node', hk, rfl, .inl rfl⟩
  case case22 => exact ⟨node', hk, rfl, .inl rfl⟩
  case case27 node hnode hstage =>
    obtain ⟨garage, hb, rfl⟩ := Option.map_eq_some_iff.mp h
    exact nodeMove_set hnode hk ⟨rfl, .inr ⟨_, hb, fun _ hcall => by cases hcall⟩⟩

/-- What is known of a call whose request arrived outside the gap. -/
structure CallKnown (node : Node) (r : Execute) : Prop where
  passed : r.Passed node.garage.agent
  refused : r.RefusedForDepth →
    node.garage.agent.ReachesDepthCheck r.request ∧ 16 < r.request.invocationDepth
  outside : node.garage.agent.ReachesDepthCheck r.request →
    (r.request.invocationDepth ≤ 16 ↔ r.request.invocationDepth ≤ node.maxInvocationDepth)

theorem NodeMove.callKnown {k : ℕ} {node node' : Node} (hmove : NodeMove a k node node')
    (hgap : ∀ request, a.arrival = some (k, request) →
      node.garage.agent.ReachesDepthCheck request →
        (request.invocationDepth ≤ 16 ↔ request.invocationDepth ≤ node.maxInvocationDepth))
    (hcalls : ∀ r ∈ node.garage.calls, CallKnown node r) :
    ∀ r ∈ node'.garage.calls, CallKnown node' r := by
  obtain ⟨hlimit, hsame | ⟨b, hb, harrival⟩⟩ := hmove
  · intro r hr
    rw [hsame] at hr
    obtain ⟨hpassed, hrefused, houtside⟩ := hcalls r hr
    exact ⟨hsame ▸ hpassed, hsame ▸ hrefused, hsame ▸ hlimit ▸ houtside⟩
  · have hreaches (request : RemoteExecutionRequest) :
        node'.garage.agent.ReachesDepthCheck request =
          node.garage.agent.ReachesDepthCheck request := by
      rw [GarageAgent.ReachesDepthCheck, State.step_agent_refuses hb]
      rfl
    have hpassed := State.step_passed (fun r hr => (hcalls r hr).passed) hb
    have hrefused := State.step_calls
      (P := fun r => r.RefusedForDepth → node.garage.agent.ReachesDepthCheck r.request ∧
        16 < r.request.invocationDepth)
      (fun request _ hnew => by obtain ⟨response, hstage, -⟩ := hnew; cases hstage)
      (fun hr hstep => Execute.step_refusedForDepth hr hstep)
      (fun r hr => (hcalls r hr).refused) hb
    have houtside := State.step_calls
      (P := fun r => node.garage.agent.ReachesDepthCheck r.request →
        (r.request.invocationDepth ≤ 16 ↔ r.request.invocationDepth ≤ node.maxInvocationDepth))
      (fun request hrequest => hgap request (harrival request hrequest))
      (fun hr hstep => by rwa [Execute.step_request hstep])
      (fun r hr => (hcalls r hr).outside) hb
    intro r hr
    refine ⟨hpassed r hr, ?_, ?_⟩
    · rw [hreaches]
      exact hrefused r hr
    · rw [hreaches, hlimit]
      exact houtside r hr

def CallsWithin (s : Fleet) : Prop :=
  ∀ (k : ℕ) (node : Node), s.nodes[k]? = some node → ∀ r ∈ node.garage.calls, CallKnown node r

theorem step_callsWithin (hs : s.CallsWithin) (hgap : s.OutsideGap a)
    (h : s.step ids library sha256 a = some t) : t.CallsWithin := by
  intro k node' hk
  obtain ⟨node, hnode, hmove⟩ := step_nodes h hk
  exact hmove.callKnown (fun request harrival => hgap k request harrival node hnode)
    (hs k node hnode)

theorem CallsWithin.depthEnforced (hs : s.CallsWithin) : s.DepthEnforced ids := by
  intro node hnode
  obtain ⟨k, hk⟩ := List.getElem?_of_mem hnode
  refine ⟨fun r hr => ?_, fun call guest requestId invocation => ?_⟩
  · have hknown := hs k node hk r hr
    constructor
    · intro hstarted
      rcases hknown.passed with hpassed | ⟨hunspawned, -⟩
      · obtain ⟨hreaches, hle⟩ := GarageAgent.refuses_eq_none_iff.mp hpassed
        exact (hknown.outside hreaches).mp hle
      · exact absurd hunspawned hstarted
    · intro hrefused
      obtain ⟨hreaches, hdeep⟩ := hknown.refused hrefused
      have houtside := hknown.outside hreaches
      omega
  · unfold GarageServiceInvoker.invoke
    split_ifs with hdepth
    · exact iff_of_true ⟨_, rfl⟩ hdepth
    · refine iff_of_false ?_ hdepth
      rintro ⟨error, ⟨⟩⟩

/-- In every run of a fleet in which no request that reaches the check arrives
with a depth between the constant and the limit of the Garage, every Garage
enforces its limit. -/
theorem exec_depthEnforced {garages : List (GarageAgent × ℕ × ℕ)} {as : List FleetAction}
    (hgap : Transition.Along (step ids library sha256) OutsideGap (configured garages) as)
    (h : exec ids library sha256 (configured garages) as = some s) : s.DepthEnforced ids := by
  have hwithin : s.CallsWithin := by
    apply Transition.exec_invariant (fun _ _ _ hs hC hstep => step_callsWithin hs hC hstep) ?_
      hgap h
    intro k node hk r hr
    obtain ⟨garage, -, rfl⟩ := List.mem_map.mp (List.mem_of_getElem? hk)
    simp [State.initial] at hr
  exact hwithin.depthEnforced

/-! ### Runs -/

instance (s : Fleet) (a : FleetAction) : Decidable (s.OutsideGap a) :=
  match ha : a.arrival with
  | none => isTrue (by intro g request h; rw [ha] at h; cases h)
  | some (g, request) =>
    decidable_of_iff (∀ node ∈ s.nodes[g]?, node.garage.agent.ReachesDepthCheck request →
      (request.invocationDepth ≤ 16 ↔ request.invocationDepth ≤ node.maxInvocationDepth)) (by
        constructor
        · intro h g' request' harrival
          rw [ha] at harrival
          cases harrival
          exact h
        · intro h
          exact h g request ha)

def shallow : List (GarageAgent × ℕ × ℕ) := [(.new "garage-1" 1 1 1, 5, 1)]

def startAt (depth : ℕ) : List FleetAction :=
  .arrive 0 { State.requestFor "sha256:a" with invocationDepth := depth } :: firstGuest 0

theorem exec_depthEnforced_shallow :
    ∃ s, exec GuestExecution.plainIds GuestExecution.plainLibrary GuestExecution.plainSha256
      (configured shallow) (startAt 5) = some s ∧ s.guests.length = 1 ∧
        s.DepthEnforced GuestExecution.plainIds := by
  have hrun : (exec GuestExecution.plainIds GuestExecution.plainLibrary GuestExecution.plainSha256
      (configured shallow) (startAt 5)).map (fun s => s.guests.length) = some 1 := by decide +kernel
  obtain ⟨s, hs, hlength⟩ := Option.map_eq_some_iff.mp hrun
  exact ⟨s, hs, hlength, exec_depthEnforced (by decide +kernel) hs⟩

def startedDepths (s : Fleet) : List (ℕ × ℕ) :=
  s.nodes.flatMap fun node => (node.garage.calls.filter Execute.dispatches).map fun r =>
    (r.request.invocationDepth, node.maxInvocationDepth)

theorem shallow_not_depthEnforced :
    ¬ ∀ (ids : GarageIds) (library : ServiceLibrary) (sha256 : Bytes → Sha256)
      (garages : List (GarageAgent × ℕ × ℕ)) (as : List FleetAction) (s : Fleet),
        exec ids library sha256 (configured garages) as = some s → s.DepthEnforced ids := by
  intro h
  have hrun : (exec GuestExecution.plainIds GuestExecution.plainLibrary GuestExecution.plainSha256
      (configured shallow) (startAt 10)).map startedDepths = some [(10, 5)] := by decide +kernel
  obtain ⟨s, hs, hdepths⟩ := Option.map_eq_some_iff.mp hrun
  have hmem : (10, 5) ∈ s.startedDepths := by
    rw [hdepths]
    exact List.mem_singleton_self _
  obtain ⟨node, hnode, hcalls⟩ := List.mem_flatMap.mp hmem
  obtain ⟨r, hr, heq⟩ := List.mem_map.mp hcalls
  obtain ⟨hr, hstarted⟩ := List.mem_filter.mp hr
  have hle := ((h _ _ _ _ _ s hs node hnode).1 r hr).1 fun hunspawned => by
    rw [Execute.dispatches, hunspawned] at hstarted
    cases hstarted
  have hdepth : r.request.invocationDepth = 10 := congrArg Prod.fst heq
  have hlimit : node.maxInvocationDepth = 5 := congrArg Prod.snd heq
  omega

end Fleet

end PitBox.Garage
