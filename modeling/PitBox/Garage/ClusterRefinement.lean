import PitBox.Garage.ClusterFleet

/-!
# Garages on their schedulers are a fleet

Every step of a cluster is a step of its fleet or none, so whatever holds of all
runs of fleets holds of Garages on their schedulers. The execution id of a guest
is that which its call gets in the end: the fleet is told it beforehand.
-/

namespace PitBox.Garage

open PitBox.Runtime Table Transition
open PitBox.Scheduler (LaneId RunOneObserved Standing)

namespace Cluster

variable {ids : GarageIds} {library : ServiceLibrary} {sha256 : Bytes → Sha256}
  {c d : Cluster} {a : ClusterAction} {names : ℕ → String} {s t : Fleet}

/-! ### What the scheduler does -/

theorem Simulates.guest_eq (h : Simulates names c s) {e : ℕ} {task : DispatchTask}
    (he : c.tasks[e]? = some task) : s.guests[e]? = some (c.guest (names e) task) := by
  rw [h.guests, he, Option.map_some]

theorem guest_stage {name : String} {task : DispatchTask} {standing : Standing HttpResponse}
    (h : (c.job? task).map RunOneObserved.standing = some standing) :
    (c.guest name task).stage = .ofStanding task.activity (some standing) := by
  rw [guest, h]

theorem guest_stage_of_jobAt {name : String} {task : DispatchTask} {job : ℕ}
    {call : RunOneObserved HttpResponse} (hjob : task.stage.job? = some job)
    (hcall : c.jobAt task.garage job = some call) :
    (c.guest name task).stage = .ofStanding task.activity (some call.standing) := by
  refine guest_stage ?_
  rw [job?, hjob, Option.bind_some, hcall, Option.map_some]

/-- A call takes a free slot: its guest gets the lane. -/
theorem Simulates.assign (h : Simulates names c s) (hjobs : c.Jobs) (hbooks : s.Books) {g j : ℕ}
    {p : Process} {scheduler : Scheduler.State HttpResponse} {k : Scheduler.Ticket} {lane : LaneId}
    (hp : c.processes[g]? = some p) (hj : p.scheduler.calls[j]? = some (.waiting k .scanning))
    (hfree : p.scheduler.scheduler.freeLane = some lane)
    (hcalls : scheduler.calls =
      p.scheduler.calls.set j (.owning ⟨k, lane, p.scheduler.now⟩ .assigned))
    (hlanes : scheduler.scheduler.sharedLanes =
      p.scheduler.scheduler.sharedLanes.set lane (some k.executionId)) :
    ∃ bs t, Fleet.exec ids library sha256 s bs = some t ∧
      Simulates names (c.setProcess g { p with scheduler }) t := by
  have hat := jobAt_eq_some.mpr ⟨p, hp, hj⟩
  obtain ⟨node, hnode, hsim⟩ := exists_related h.nodes hp
  obtain ⟨e, task, he, rfl, hjob⟩ := hjobs.served g j (by rw [hat]; rfl)
  have hactivity := hjobs.computing he hjob hat rfl
  have hstage : (c.guest (names e) task).stage = .waiting := guest_stage_of_jobAt hjob hat
  have hlane : node.sharedLanes.findIdx? Option.isNone = some lane := by
    rw [findIdx?_eq_of_map hsim.sharedLanes]
    exact hfree
  have hnode' : s.nodes[(c.guest (names e) task).garage]? = some node := hnode
  have hassign : s.step ids library sha256 (.assign e) = some ((s.setNode task.garage
      { node with sharedLanes := node.sharedLanes.set lane (some e) }).setStage e
        (c.guest (names e) task) (.running lane)) := by
    simp only [Fleet.step, h.guest_eq he, hstage, hnode', hlane]
    rfl
  have hnew : Process.Simulates { p with scheduler }
      { node with sharedLanes := node.sharedLanes.set lane (some e) } :=
    ⟨hsim.garage, hsim.maxInvocationDepth, hsim.grants, by
      rw [hlanes, List.map_set, List.map_set, hsim.sharedLanes]
      rfl⟩
  refine ⟨[.assign e], _, exec_of_step hassign, h.setJob hjobs hp hj hcalls he rfl hjob
    (related_set h.nodes hnew _) (fun x => ?_)
    (fun x i outcome => Fleet.step_finished hbooks hassign)
    fun _ _ _ _ _ hreleased => by cases hreleased⟩
  rw [hactivity]
  exact Fleet.getElem?_setStage (h.guest_eq he)

/-- A call clears its slot: its guest has finished with what the scheduler reports. -/
theorem Simulates.clear (h : Simulates names c s) (hjobs : c.Jobs) (hbooks : s.Books) {g j : ℕ}
    {p : Process} {scheduler : Scheduler.State HttpResponse} {k : Scheduler.Assignment}
    {r : Scheduler.ExecutionResult HttpResponse} (hp : c.processes[g]? = some p)
    (hj : p.scheduler.calls[j]? = some (.owning k (.relocked r)))
    (hcalls : scheduler.calls = p.scheduler.calls.set j (.releasing k r .cleared))
    (hlanes : scheduler.scheduler.sharedLanes =
      p.scheduler.scheduler.sharedLanes.set k.lane none) :
    ∃ bs t, Fleet.exec ids library sha256 s bs = some t ∧
      Simulates names (c.setProcess g { p with scheduler }) t := by
  have hat := jobAt_eq_some.mpr ⟨p, hp, hj⟩
  obtain ⟨node, hnode, hsim⟩ := exists_related h.nodes hp
  obtain ⟨e, task, he, rfl, hjob⟩ := hjobs.served g j (by rw [hat]; rfl)
  obtain ⟨at₀, clocks, hsubmitted⟩ := TaskStage.job?_eq_some.mp hjob
  have hstage : (c.guest (names e) task).stage = .running k.lane := by
    rw [guest_stage_of_jobAt hjob hat, hjobs.computing he hjob hat rfl]
    rfl
  -- the Garage of the fleet can be told at once
  have hnode' : s.nodes[(c.guest (names e) task).garage]? = some node := hnode
  obtain ⟨call, hcall, hruns⟩ :=
    hbooks.exists_running (h.guest_eq he) hnode' (by rw [hstage]; simp)
  obtain ⟨garage, hends, hahead⟩ := hsim.garage.finish hcall hruns
    (.ok (.ok (dispatchResult at₀ clocks k r)))
  have hfinish : s.step ids library sha256
      (.finish e (.ok (.ok (dispatchResult at₀ clocks k r)))) = some ((s.setNode task.garage
        { node with garage, sharedLanes := node.sharedLanes.set k.lane none }).setStage e
          (c.guest (names e) task) .finished) := by
    simp only [Fleet.step, h.guest_eq he, hstage, hnode']
    rw [hends]
    rfl
  have hnew : Process.Simulates { p with scheduler }
      { node with garage, sharedLanes := node.sharedLanes.set k.lane none } :=
    ⟨hahead, hsim.maxInvocationDepth, hsim.grants, by
      rw [hlanes, List.map_set, List.map_set, hsim.sharedLanes]
      rfl⟩
  refine ⟨[.finish e _], _, exec_of_step hfinish, h.setJob hjobs hp hj hcalls he rfl hjob
    (related_set h.nodes hnew _) (fun x => ?_)
    (fun x i outcome => Fleet.step_finished hbooks hfinish)
    fun at₁ clocks₁ slot result hsub hrel => ?_⟩
  · exact Fleet.getElem?_setStage (h.guest_eq he)
  · cases hsubmitted.symm.trans hsub
    cases hrel
    obtain ⟨r₀, agent, r', -, hstep', -, htask⟩ := Fleet.exists_call
      { node with garage, sharedLanes := node.sharedLanes.set k.lane none } hnode hends rfl
    obtain ⟨-, rfl⟩ := Execute.step_dispatchEnds hstep' rfl
    exact (htask _ _).trans (if_pos ⟨rfl, rfl⟩)

theorem Simulates.setScheduler (h : Simulates names c s) (hjobs : c.Jobs) (hbooks : s.Books)
    {g : ℕ} {p : Process} {scheduler : Scheduler.State HttpResponse}
    {b : Scheduler.Action HttpResponse} (hp : c.processes[g]? = some p)
    (hstep : p.scheduler.step b = some scheduler) (hb : b.ofCall = true)
    (hunwinds : b.unwindsCall = false) : ∃ bs t, Fleet.exec ids library sha256 s bs = some t ∧
      Simulates names (c.setProcess g { p with scheduler }) t := by
  cases Scheduler.State.step_shows hstep hb hunwinds with
  | nothing hstanding hlanes => exact ⟨[], s, rfl, h.of_standing hp hstanding hlanes⟩
  | assigned hj hfree hcalls hlanes => exact h.assign hjobs hbooks hp hj hfree hcalls hlanes
  | cleared hj hcalls hlanes => exact h.clear hjobs hbooks hp hj hcalls hlanes

/-! ### What the Garages do -/

theorem Simulates.arrive (h : Simulates names c s) (hbooks : s.Books) {g : ℕ}
    {request : RemoteExecutionRequest} {p : Process} {garage : State}
    (hp : c.processes[g]? = some p) (hb : p.garage.step (.arrive request) = some garage) :
    ∃ bs t, Fleet.exec ids library sha256 s bs = some t ∧
      Simulates names (c.setProcess g { p with garage }) t := by
  obtain ⟨node, hnode, hsim⟩ := exists_related h.nodes hp
  obtain ⟨garage', hb', hahead⟩ := hsim.garage.arrive hb
  have hs : s.step ids library sha256 (.arrive g request) =
      some (s.setNode g { node with garage := garage' }) := Fleet.stepNode_of_step hnode hb'
  exact ⟨[_], _, exec_of_step hs, h.setGarage hp hnode hahead fun x i outcome =>
    Fleet.step_finished hbooks hs⟩

theorem Simulates.garage (h : Simulates names c s) (hbooks : s.Books) {g i : ℕ} {choice : Choice}
    {p : Process} {call : Execute} {garage : State} (hp : c.processes[g]? = some p)
    (hcall : p.garage.calls[i]? = some call) (hwarm : call.stage.isWarm = false)
    (hends : choice.isDispatchEnds = false)
    (hb : p.garage.step (.call i choice) = some garage) :
    ∃ bs t, Fleet.exec ids library sha256 s bs = some t ∧
      Simulates names (c.setProcess g { p with garage }) t := by
  obtain ⟨node, hnode, hsim⟩ := exists_related h.nodes hp
  obtain ⟨call', hcall', hcalls⟩ := exists_related hsim.garage.calls hcall
  obtain ⟨garage', hb', hahead⟩ := hsim.garage.call hb hends
  have hs : s.step ids library sha256 (.garage g i choice) =
      some (s.setNode g { node with garage := garage' }) := by
    simp only [Fleet.step, hnode, Option.bind_some, hcall', hcalls.stage_eq, hwarm, hends]
    exact Fleet.stepNode_of_step hnode hb'
  exact ⟨[_], _, exec_of_step hs, h.setGarage hp hnode hahead fun x i outcome =>
    Fleet.step_finished hbooks hs⟩

theorem Simulates.length_guests (h : Simulates names c s) : s.guests.length = c.tasks.length := by
  have hguests : s.guests = c.tasks.mapIdx fun e => c.guest (names e) :=
    List.ext_getElem? fun e => by rw [h.guests, List.getElem?_mapIdx]
  rw [hguests, List.length_mapIdx]

/-- A call is handed over. -/
theorem Simulates.push (h : Simulates names c s) {task : DispatchTask}
    (hstage : task.stage.job? = none) (hnodes : t.nodes = s.nodes)
    (hguests : t.guests = s.guests ++ [c.guest (names c.tasks.length) task]) :
    Simulates names { c with tasks := c.tasks ++ [task] } t := by
  constructor
  · rw [hnodes]
    exact h.nodes
  · intro x
    rw [hguests]
    rcases Nat.lt_trichotomy x c.tasks.length with hlt | rfl | hgt
    · rw [List.getElem?_append_left (h.length_guests ▸ hlt), List.getElem?_append_left hlt]
      exact h.guests x
    · rw [← h.length_guests, List.getElem?_concat_length, h.length_guests,
        List.getElem?_concat_length]
      rfl
    · rw [List.getElem?_eq_none (by simpa [h.length_guests] using hgt),
        List.getElem?_eq_none (by simpa using hgt)]
      rfl
  · intro x y at₀ clocks job call slot result hy hsubmitted hjob hreleased
    have htask (g i : ℕ) : t.task? g i = s.task? g i := by
      rw [Fleet.task?, Fleet.call?, hnodes]
      rfl
    rw [htask]
    rcases getElem?_concat_eq_some hy with hy | ⟨-, rfl⟩
    · exact h.ended x y at₀ clocks job call slot result hy hsubmitted hjob hreleased
    · rw [hsubmitted] at hstage
      cases hstage

theorem Simulates.dispatch (h : Simulates names c s) (hbooks : s.Books) {g i : ℕ}
    {payload : RemotePayload} {p : Process} {call : Execute} {garage : State}
    (hp : c.processes[g]? = some p) (hcall : p.garage.calls[i]? = some call)
    (hwarm : call.stage.isWarm = true) (hb : p.garage.step (.call i .go) = some garage) :
    ∃ bs t, Fleet.exec ids library sha256 s bs = some t ∧
      Simulates names { c.setProcess g { p with garage } with
        tasks := c.tasks ++ [⟨g, i, payload, .spawned, .computing⟩] } t := by
  obtain ⟨node, hnode, hsim⟩ := exists_related h.nodes hp
  obtain ⟨call', hcall', hcalls⟩ := exists_related hsim.garage.calls hcall
  obtain ⟨garage', hb', hahead⟩ := hsim.garage.call hb rfl
  have hs : s.step ids library sha256 (.dispatch g i payload (names c.tasks.length)) =
      some { s.setNode g { node with garage := garage' } with
        guests := s.guests ++ [⟨g, i, payload, names c.tasks.length, .waiting⟩] } := by
    simp only [Fleet.step, hnode, Option.bind_some, hcall', hcalls.stage_eq, hwarm, if_true,
      Fleet.stepNode_of_step hnode hb', Option.map_some]
    rfl
  have hset := h.setGarage hp hnode hahead fun x i outcome hfinished =>
    Fleet.step_finished hbooks hs hfinished
  exact ⟨[_], _, exec_of_step hs, hset.push rfl rfl rfl⟩

/-- A Garage is told that a task has ended, which the fleet knows. -/
theorem Simulates.settle (h : Simulates names c s) {e job : ℕ} {task : DispatchTask} {p : Process}
    {at₀ : Scheduler.Instant} {clocks : TaskClocks} {slot : Scheduler.Assignment}
    {scheduled : Scheduler.ExecutionResult HttpResponse} {garage : State}
    (he : c.tasks[e]? = some task) (hp : c.processes[task.garage]? = some p)
    (hstage : task.stage = .submitted at₀ clocks job)
    (hjob : c.job? task = some (.returned slot scheduled))
    (hb : p.garage.step (.call task.call (.dispatchEnds (.ok (.ok
      (dispatchResult at₀ clocks slot scheduled))))) = some garage) :
    Simulates names (c.setProcess task.garage { p with garage }) s := by
  obtain ⟨node, hnode, hsim⟩ := exists_related h.nodes hp
  have hat : c.jobAt task.garage job = some (.returned slot scheduled) := by
    rwa [job?, hstage] at hjob
  have hfinished := h.ended e task at₀ clocks job _ slot scheduled he hstage hat rfl
  obtain ⟨r, hr, hdispatch⟩ := Option.map_eq_some_iff.mp hfinished
  obtain ⟨node', hnode', hr⟩ := Fleet.call?_eq_some.mp hr
  obtain rfl := Option.some.inj (hnode.symm.trans hnode')
  have hset := h.setGarage hp hnode (hsim.garage.settle hr hdispatch hb) fun x i outcome => by
    rw [Fleet.setNode_self hnode]
    exact id
  rwa [Fleet.setNode_self hnode] at hset

/-- The artifact of a task that looks it up is there. -/
theorem Simulates.mem_prepared (h : Simulates names c s) (hbooks : s.Books) {e : ℕ}
    {task : DispatchTask} {p : Process} {call : Execute} (he : c.tasks[e]? = some task)
    (hp : c.processes[task.garage]? = some p) (hprepared : p.garage.Prepared)
    (hcall : p.garage.calls[task.call]? = some call) :
    call.digest ∈ p.garage.agent.prepared := by
  obtain ⟨blocking, hblocking, hspawned, -⟩ := hbooks.tasksAgree.handed e _ (h.guest_eq he)
  obtain ⟨call', hcall', rfl⟩ := Option.map_eq_some_iff.mp hblocking
  obtain ⟨node, hnode, hi⟩ := Fleet.call?_eq_some.mp hcall'
  obtain ⟨node', hnode', hsim⟩ := exists_related h.nodes hp
  obtain rfl := Option.some.inj (hnode.symm.trans hnode')
  obtain ⟨r, hr, hahead⟩ := exists_related hsim.garage.calls hcall
  obtain rfl := Option.some.inj (hi.symm.trans hr)
  refine (hprepared.informed call (List.mem_of_getElem? hcall)).dispatch ?_
  obtain rfl | ⟨hruns, -⟩ := hahead
  · exact hspawned
  · rw [hruns]
    rfl

/-! ### What the guests do -/

theorem Simulates.setActivity (h : Simulates names c s) {e : ℕ} {task : DispatchTask}
    {lane : LaneId} (activity : Activity) (he : c.tasks[e]? = some task)
    (hlane : (c.job? task).map RunOneObserved.standing = some (.onLane lane)) :
    Simulates names (c.setTask e { task with activity })
      (s.setStage e (c.guest (names e) task) (.ofStanding activity (some (.onLane lane)))) := by
  refine h.setTask he rfl rfl (.inr rfl) rfl fun x => ?_
  refine (Fleet.getElem?_setStage (h.guest_eq he)).trans ?_
  have hjob : (c.job? { task with activity }).map RunOneObserved.standing =
      some (.onLane lane) := hlane
  rw [guest, guest, hjob]

theorem Simulates.nested (h : Simulates names c s) {e : ℕ}
    {nestedCall : HttpHostState.NestedCall} {requestId : String} {task : DispatchTask}
    {p : Process} {slot : Scheduler.Assignment} {timer : Scheduler.TaskTimer} {call : Execute}
    {logical : LogicalInvocationRequest} (he : c.tasks[e]? = some task)
    (hp : c.processes[task.garage]? = some p) (hactivity : task.activity = .computing)
    (hjob : c.job? task = some (.owning slot (.running timer)))
    (hcall : p.garage.calls[task.call]? = some call)
    (hname : names e = executionIdText slot.executionId)
    (hnested : (execution p call task slot.executionId).nested ids library sha256 nestedCall
      requestId = some logical) :
    ∃ bs t, Fleet.exec ids library sha256 s bs = some t ∧
      Simulates names (c.setTask e { task with activity := .calling logical }) t := by
  obtain ⟨node, hnode, hsim⟩ := exists_related h.nodes hp
  obtain ⟨call', hcall', hcalls⟩ := exists_related hsim.garage.calls hcall
  have hlane : (c.job? task).map RunOneObserved.standing = some (.onLane slot.lane) := by
    rw [hjob]
    rfl
  have hstage : (c.guest (names e) task).stage = .running slot.lane := by
    rw [guest_stage hlane, hactivity]
    rfl
  have hexecution : Fleet.execution node call' (c.guest (names e) task) =
      execution p call task slot.executionId := by
    rw [Fleet.execution, execution, hsim.garage.agent, hsim.maxInvocationDepth, hsim.grants,
      hcalls.request_eq, guest, hname]
  have hnode' : s.nodes[(c.guest (names e) task).garage]? = some node := hnode
  have hcall'' : node.garage.calls[(c.guest (names e) task).call]? = some call' := hcall'
  have hs : s.step ids library sha256 (.nested e nestedCall requestId) =
      some (s.setStage e (c.guest (names e) task) (.calling slot.lane logical)) := by
    simp only [Fleet.step, h.guest_eq he, hstage, hnode', hcall'', Option.bind_some]
    rw [hexecution, hnested, Option.map_some]
  exact ⟨[_], _, exec_of_step hs, h.setActivity _ he hlane⟩

theorem Simulates.forward (h : Simulates names c s) (hjobs : c.Jobs) {e g : ℕ}
    {request : RemoteExecutionRequest} {task : DispatchTask} {q : Process}
    {logical : LogicalInvocationRequest} {garage : State} (he : c.tasks[e]? = some task)
    (hactivity : task.activity = .calling logical) (hq : c.processes[g]? = some q)
    (hforward : request.invocationDepth = logical.invocationDepth ∧
      request.visitedGarages = logical.visitedGarages ∧
      q.garage.agent.id ∉ logical.visitedGarages)
    (hb : q.garage.step (.arrive request) = some garage) :
    ∃ bs t, Fleet.exec ids library sha256 s bs = some t ∧
      Simulates names ((c.setProcess g { q with garage }).setTask e
        { task with activity := .forwarded g q.garage.calls.length }) t := by
  obtain ⟨node, hnode, hsim⟩ := exists_related h.nodes hq
  obtain ⟨garage', hb', hahead⟩ := hsim.garage.arrive hb
  obtain ⟨lane, hlane⟩ := hjobs.exists_lane he (by simp [hactivity])
  have hstage : (c.guest (names e) task).stage = .calling lane logical := by
    rw [guest_stage hlane, hactivity]
    rfl
  have hs : s.step ids library sha256 (.forward e g request) =
      some ((s.setNode g { node with garage := garage' }).setStage e (c.guest (names e) task)
        (.forwarded lane g q.garage.calls.length)) := by
    simp only [Fleet.step, h.guest_eq he, hnode, hstage]
    rw [if_pos (by rw [hsim.garage.agent]; exact hforward), Fleet.stepNode_of_step hnode hb',
      Option.map_some, hsim.garage.calls.length_eq]
  have hset := h.setGarage hq hnode hahead fun x i outcome =>
    (Fleet.tasksStay_arrive hnode hb').1 x i _
  have hjob := job?_setGarage hq garage task
  have hnew := hset.setActivity (.forwarded g q.garage.calls.length) he (by rw [hjob]; exact hlane)
  rw [guest_congr (by rw [hjob])] at hnew
  exact ⟨[_], _, exec_of_step hs, hnew⟩

theorem Simulates.reject (h : Simulates names c s) (hjobs : c.Jobs) {e : ℕ} {task : DispatchTask}
    {logical : LogicalInvocationRequest} (he : c.tasks[e]? = some task)
    (hactivity : task.activity = .calling logical) :
    ∃ bs t, Fleet.exec ids library sha256 s bs = some t ∧
      Simulates names (c.setTask e { task with activity := .computing }) t := by
  obtain ⟨lane, hlane⟩ := hjobs.exists_lane he (by simp [hactivity])
  have hstage : (c.guest (names e) task).stage = .calling lane logical := by
    rw [guest_stage hlane, hactivity]
    rfl
  have hs : s.step ids library sha256 (.reject e) =
      some (s.setStage e (c.guest (names e) task) (.running lane)) := by
    simp only [Fleet.step, h.guest_eq he, hstage]
  exact ⟨[_], _, exec_of_step hs, h.setActivity _ he hlane⟩

theorem Simulates.answer (h : Simulates names c s) (hjobs : c.Jobs) {e g i : ℕ}
    {task : DispatchTask} {call : Execute} (he : c.tasks[e]? = some task)
    (hactivity : task.activity = .forwarded g i) (hcall : c.call? g i = some call)
    (hover : call.stage.isOver = true) :
    ∃ bs t, Fleet.exec ids library sha256 s bs = some t ∧
      Simulates names (c.setTask e { task with activity := .computing }) t := by
  obtain ⟨lane, hlane⟩ := hjobs.exists_lane he (by simp [hactivity])
  have hstage : (c.guest (names e) task).stage = .forwarded lane g i := by
    rw [guest_stage hlane, hactivity]
    rfl
  obtain ⟨p, hp, hi⟩ := call?_eq_some.mp hcall
  obtain ⟨node, hnode, hsim⟩ := exists_related h.nodes hp
  obtain ⟨call', hcall', hcalls⟩ := exists_related hsim.garage.calls hi
  have hs : s.step ids library sha256 (.answer e) =
      some (s.setStage e (c.guest (names e) task) (.running lane)) := by
    simp only [Fleet.step, h.guest_eq he, hstage, hnode, Option.bind_some, hcall',
      hcalls.stage_eq, hover, if_true]
  exact ⟨[_], _, exec_of_step hs, h.setActivity _ he hlane⟩

/-! ### Runs -/

/-- The names are the execution ids that the guests have so far. -/
def Named (names : ℕ → String) (c : Cluster) : Prop :=
  ∀ (e : ℕ) (task : DispatchTask) (call : RunOneObserved HttpResponse), c.tasks[e]? = some task →
    c.job? task = some call → names e = executionIdText call.executionId

/-- Every step of a cluster is one step of the fleet, or shows nothing there. -/
theorem Simulates.step (h : Simulates names c s) (hc : c.Sound) (hbooks : s.Books)
    (hnamed : d.Named names) (hstep : Change ids library sha256 c a d)
    (hunwinds : a.unwinds = false) :
    ∃ bs t, Fleet.exec ids library sha256 s bs = some t ∧ Simulates names d t := by
  cases hstep with
  | arrive hp hb => exact h.arrive hbooks hp hb
  | garage hp hcall hwarm hends hb => exact h.garage hbooks hp hcall hwarm hends hb
  | dispatch hp hcall hwarm hb => exact h.dispatch hbooks hp hcall hwarm hb
  | scheduler hp hb hs =>
    obtain ⟨hof, hu, -⟩ := unwindsCall_of_isSchedulerStep hb
    exact h.setScheduler hc.jobs hbooks hp hs hof hu
  | receive he hp hstage =>
    refine ⟨[], s, rfl, h.setTask_same he rfl rfl (.inl rfl) ?_⟩
    rw [guest, guest, job?_eq_none rfl, job?_eq_none (by rw [hstage]; rfl)]
  | found he hp hstage =>
    refine ⟨[], s, rfl, h.setTask_same he rfl rfl (.inl rfl) ?_⟩
    rw [guest, guest, job?_eq_none rfl, job?_eq_none (by rw [hstage]; rfl)]
  | missed he hp hstage hcall hmissing hb =>
    have hprepared := hc.prepared _ (List.mem_of_getElem? hp)
    exact absurd (h.mem_prepared hbooks he hp hprepared hcall) hmissing
  | submit he hp hstage hs =>
    exact ⟨[], s, rfl, h.submit hc.jobs he hp (by rw [hstage]; rfl) hs⟩
  | @nested e nestedCall requestId task p slot timer call logical he hp hactivity hjob hcall hn =>
    have htask : (c.setTask e { task with activity := .calling logical }).tasks[e]? =
        some { task with activity := .calling logical } := by
      rw [getElem?_setTask he, if_pos rfl]
    have hname := hnamed e _ (.owning slot (.running timer)) htask hjob
    exact h.nested he hp hactivity hjob hcall hname hn
  | forward he hactivity hq hforward hb => exact h.forward hc.jobs he hactivity hq hforward hb
  | reject he hactivity => exact h.reject hc.jobs he hactivity
  | answer he hactivity hcall hover => exact h.answer hc.jobs he hactivity hcall hover
  | finish he hp hactivity hjob hs => exact h.setScheduler hc.jobs hbooks hp hs rfl rfl
  | unwind => cases hunwinds
  | settle he hp hstage hjob hb => exact ⟨[], s, rfl, h.settle he hp hstage hjob hb⟩
  | @panicked e error task p slot counted garage he hp hjob hb =>
    obtain ⟨job, -, hat⟩ := job?_eq_some.mp hjob
    exact absurd rfl (hc.kept _ _ _ hat)

theorem Named.of_step (h : d.Named names) (hstep : Change ids library sha256 c a d) :
    c.Named names := by
  intro e task call he hcall
  obtain ⟨job, hjob, hat⟩ := job?_eq_some.mp hcall
  obtain ⟨task', he', hgarage, hjob'⟩ := hstep.exists_task he hjob
  obtain ⟨call', hcall', hid⟩ := hstep.exists_job hat
  rw [← hid]
  exact h e task' call' he' (job?_eq_some.mpr ⟨job, hjob', hgarage ▸ hcall'⟩)

/-- The schedulers are ones that were new once, and no lookup has failed. -/
structure Served (c : Cluster) : Prop where
  reachable : ∀ p ∈ c.processes, ∃ n now, Scheduler.State.Reachable n now p.scheduler
  found : ∀ task ∈ c.tasks, task.stage ≠ .missed

theorem Served.step (h : c.Served) (hsim : Simulates names c s) (hc : c.Sound) (hbooks : s.Books)
    (hstep : Change ids library sha256 c a d) : d.Served where
  reachable q hq := by
    rcases hstep.processes with
      hsame | ⟨x, p, hp, ⟨garage, b, hb, hset⟩ | ⟨scheduler, b, hs, hset, -⟩⟩
    · exact h.reachable q (hsame ▸ hq)
    · rcases List.mem_or_eq_of_mem_set (hset ▸ hq) with hq | rfl
      · exact h.reachable q hq
      · exact h.reachable p (List.mem_of_getElem? hp)
    · rcases List.mem_or_eq_of_mem_set (hset ▸ hq) with hq | rfl
      · exact h.reachable q hq
      · obtain ⟨n, now, hreach⟩ := h.reachable p (List.mem_of_getElem? hp)
        exact ⟨n, now, hreach.after hs⟩
  found := by
    have hset {x : ℕ} {task : DispatchTask} (htask : task.stage ≠ .missed) :
        ∀ y ∈ c.tasks.set x task, y.stage ≠ .missed := by
      intro y hy
      rcases List.mem_or_eq_of_mem_set hy with hy | rfl
      · exact h.found y hy
      · exact htask
    cases hstep with
    | dispatch =>
      intro y hy
      rcases List.mem_append.mp hy with hy | hy
      · exact h.found y hy
      · obtain rfl := List.mem_singleton.mp hy
        simp
    | missed he hp hstage hcall hmissing hb =>
      have hprepared := hc.prepared _ (List.mem_of_getElem? hp)
      exact absurd (hsim.mem_prepared hbooks he hp hprepared hcall) hmissing
    | receive | found | submit => exact hset (by simp)
    | nested he | forward he | reject he | answer he =>
      have hstage := h.found _ (List.mem_of_getElem? he)
      exact hset hstage
    | _ => exact h.found

def laneCounts (garages : List (GarageAgent × UInt64)) : List (GarageAgent × ℕ) :=
  garages.map fun (agent, laneCount) => (agent, laneCount.toNat)

theorem sound_fresh {garages : List (GarageAgent × UInt64)} (h : Fleet.Unused (laneCounts garages))
    (maxInvocationDepth : ℕ) (now : Scheduler.Instant) :
    (fresh garages maxInvocationDepth now).Sound where
  jobs := jobs_fresh garages maxInvocationDepth now
  kept g job call hcall := by
    obtain ⟨p, hp, hjob⟩ := jobAt_eq_some.mp hcall
    obtain ⟨q, -, rfl⟩ := List.mem_map.mp (List.mem_of_getElem? hp)
    simp [Scheduler.State.fresh] at hjob
  prepared p hp := by
    obtain ⟨q, hq, rfl⟩ := List.mem_map.mp hp
    obtain ⟨-, id, protocolVersion, maxPending, maxPreparations, hagent⟩ :=
      h _ (List.mem_map_of_mem hq)
    have hagent : q.1 = .new id protocolVersion maxPending maxPreparations := hagent
    change State.Prepared (.initial q.1)
    rw [hagent]
    exact State.prepared_initial id protocolVersion maxPending maxPreparations

theorem served_fresh (garages : List (GarageAgent × UInt64)) (maxInvocationDepth : ℕ)
    (now : Scheduler.Instant) : (fresh garages maxInvocationDepth now).Served where
  reachable p hp := by
    obtain ⟨q, -, rfl⟩ := List.mem_map.mp hp
    exact ⟨q.2, now, [], rfl⟩
  found := by simp [fresh]

theorem simulates_fresh (garages : List (GarageAgent × UInt64)) (maxInvocationDepth : ℕ)
    (now : Scheduler.Instant) : Simulates names (fresh garages maxInvocationDepth now)
      (Fleet.fresh (laneCounts garages) maxInvocationDepth) where
  nodes := by
    unfold fresh Fleet.fresh laneCounts
    induction garages with
    | nil => exact .nil
    | cons p garages ih =>
      refine .cons ⟨⟨rfl, .nil⟩, rfl, rfl, ?_⟩ ih
      simp [Scheduler.State.fresh, Scheduler.PitScheduler.withLanes]
  guests e := by simp [fresh, Fleet.fresh]
  ended e task _ _ _ _ _ _ he := by simp [fresh] at he

def executionIds (c : Cluster) (e : ℕ) : String :=
  ((c.tasks[e]?).bind c.job?).elim "" fun call => executionIdText call.executionId

theorem named_executionIds (c : Cluster) : c.Named c.executionIds := by
  intro e task call he hcall
  rw [executionIds, he, Option.bind_some, hcall, Option.elim_some]

/-- A run of a cluster with the run of its fleet and the books of both. -/
theorem exec_related {garages : List (GarageAgent × UInt64)} {maxInvocationDepth : ℕ}
    {now : Scheduler.Instant} {as : List ClusterAction}
    (hnew : Fleet.Unused (laneCounts garages)) (hunwinds : ∀ a ∈ as, a.unwinds = false)
    (h : exec ids library sha256 (fresh garages maxInvocationDepth now) as = some c) :
    ∃ bs s, Fleet.exec ids library sha256
      (Fleet.fresh (laneCounts garages) maxInvocationDepth) bs = some s ∧
        s.Books ∧ c.Sound ∧ c.Served ∧ Simulates c.executionIds c s := by
  refine exec_matched (F := Named c.executionIds)
    (R := fun d s => s.Books ∧ d.Sound ∧ d.Served ∧ Simulates c.executionIds d s)
    (fun d a u hu hnamed => hnamed.of_step (step_change hu)) ?_ hunwinds h (named_executionIds c)
    ⟨Fleet.books_fresh hnew maxInvocationDepth, sound_fresh hnew maxInvocationDepth now,
      served_fresh garages maxInvocationDepth now, simulates_fresh garages maxInvocationDepth now⟩
  rintro d a u s ha hnamed ⟨hbooks, hsound, hserved, hsim⟩ hu
  obtain ⟨bs, t, ht, hsim'⟩ := hsim.step hsound hbooks hnamed (step_change hu) ha
  have hbooks' : t.Books :=
    exec_invariant_of_step (fun _ _ _ hs hstep => hs.step hstep) hbooks ht
  exact ⟨bs, t, ht, hbooks', hsound.step (step_change hu) ha,
    hserved.step hsim hsound hbooks (step_change hu), hsim'⟩

/-- Every run of Garages on their schedulers in which no closure unwinds is a run
of the fleet of these Garages. A guest has the execution id that the scheduler
gave its task, a lane exactly while the call of its task holds that slot, and has
finished with what the scheduler reports. -/
theorem exec_simulates {garages : List (GarageAgent × UInt64)} {maxInvocationDepth : ℕ}
    {now : Scheduler.Instant} {as : List ClusterAction}
    (hnew : Fleet.Unused (laneCounts garages)) (hunwinds : ∀ a ∈ as, a.unwinds = false)
    (h : exec ids library sha256 (fresh garages maxInvocationDepth now) as = some c) :
    ∃ bs s, Fleet.exec ids library sha256
      (Fleet.fresh (laneCounts garages) maxInvocationDepth) bs = some s ∧
        Simulates c.executionIds c s := by
  obtain ⟨bs, s, hs, -, -, -, hsim⟩ := exec_related hnew hunwinds h
  exact ⟨bs, s, hs, hsim⟩

section Demo

def twoGarages : List (GarageAgent × UInt64) :=
  [(.new "garage-1" 1 2 1, 1), (.new "garage-2" 1 2 1, 1)]

theorem unused_twoGarages : Fleet.Unused (laneCounts twoGarages) := by
  intro p hp
  simp only [laneCounts, twoGarages, List.map_cons, List.map_nil, List.mem_cons,
    List.not_mem_nil, or_false] at hp
  rcases hp with rfl | rfl <;> exact ⟨by decide, _, _, _, _, rfl⟩

def go (n job : ℕ) : List ClusterAction :=
  List.replicate n (.scheduler 0 (.call job .go))

/-- A guest of the first Garage gets the lane, makes a nested call that nobody
takes, and returns. -/
def servedCall : List ClusterAction :=
  [[.arrive 0 (State.requestFor "sha256:a")], List.replicate 5 (.garage 0 0 .go),
    [.garage 0 0 (.opened (.ok ())),
      .garage 0 0 (.registrationEnds (.ok (.ok ⟨.cold, .coldCompiled⟩))), .garage 0 0 .go,
      .dispatch 0 0 Fleet.emptyPayload, .receive 0, .lookUp 0, .submit 0 0], go 8 0,
    [.scheduler 0 (.call 0 (.start 0)),
      .nested 0 (.sendRequest ⟨some "svc", none, "GET", [], .ok []⟩) "1", .reject 0,
      .finish 0 (.ok ⟨200, [], []⟩)], go 4 0,
    [.scheduler 0 (.notifyOne 0 none), .scheduler 0 (.call 0 .go)]].flatten

theorem exec_simulates_servedCall :
    ∃ c bs s, exec GuestExecution.plainIds GuestExecution.plainLibrary GuestExecution.plainSha256
        (fresh twoGarages 16 0) servedCall = some c ∧ c.executionIds 0 = "0001" ∧
      Fleet.exec GuestExecution.plainIds GuestExecution.plainLibrary GuestExecution.plainSha256
        (Fleet.fresh (laneCounts twoGarages) 16) bs = some s ∧ Simulates c.executionIds c s := by
  have hrun : (exec GuestExecution.plainIds GuestExecution.plainLibrary GuestExecution.plainSha256
      (fresh twoGarages 16 0) servedCall).map (fun c => c.executionIds 0) = some "0001" := by
    decide +kernel
  obtain ⟨c, hc, hid⟩ := Option.map_eq_some_iff.mp hrun
  obtain ⟨bs, s, hs, hsim⟩ := exec_simulates unused_twoGarages (by decide) hc
  exact ⟨c, bs, s, hc, hid, hs, hsim⟩

end Demo

end Cluster

end PitBox.Garage
