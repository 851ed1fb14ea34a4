import PitBox.Foundations.Simulation
import PitBox.Garage.ClusterSteps
import PitBox.Garage.FleetBooks

/-!
# The fleet of a cluster

A blocking task with its call of the scheduler is a guest, which has a lane
while that call holds a slot. A guest gets its lane in the step in which the
call takes the slot, and has finished when the call clears it. The Garage learns
of this only later, so a fleet may be ahead of its cluster: it may know that a
task has ended when the Garage still waits for it.
-/

namespace PitBox.Garage

open PitBox.Runtime Table Transition
open PitBox.Scheduler (LaneId RunOneObserved Standing)

/-! ### Garages that are told later -/

namespace Execute

variable {g g' : GarageAgent} {r r' x : Execute} {e : Choice}

/-- The same call, or the call with its task ended. -/
def Ahead (r r' : Execute) : Prop :=
  r' = r ∨ r.dispatch = .running ∧ ∃ outcome, r' = { r with dispatch := .finished outcome }

theorem Ahead.stage_eq (h : r.Ahead r') : r'.stage = r.stage := by
  obtain rfl | ⟨-, outcome, rfl⟩ := h <;> rfl

theorem Ahead.request_eq (h : r.Ahead r') : r'.request = r.request := by
  obtain rfl | ⟨-, outcome, rfl⟩ := h <;> rfl

theorem step_of_running (h : r.step g e = some (g', x)) (he : e.isDispatchEnds = false)
    (hruns : r.dispatch = .running) (outcome : Except String (Except String HttpDispatchResult)) :
    ∃ x', Execute.step g { r with dispatch := .finished outcome } e = some (g', x') ∧
      x.Ahead x' := by
  revert h he hruns
  fun_cases step g r e <;> intro h he hruns <;> cases h
  case case4 => exact ⟨_, rfl, .inr ⟨hruns, outcome, rfl⟩⟩
  case case16 => exact ⟨_, rfl, .inl rfl⟩
  case case17 => cases hruns
  case case19 => cases he
  all_goals exact ⟨_, by simp [Execute.step, *], .inr ⟨hruns, outcome, rfl⟩⟩

theorem step_of_dispatches (g : GarageAgent) (hruns : r.dispatch = .running)
    (outcome : Except String (Except String HttpDispatchResult)) :
    r.step g (.dispatchEnds outcome) = some (g, { r with dispatch := .finished outcome }) := by
  obtain ⟨q, stage, registration, dispatch⟩ := r
  cases hruns
  simp [Execute.step]

theorem Ahead.step (h : r.Ahead r') (hstep : r.step g e = some (g', x))
    (he : e.isDispatchEnds = false) : ∃ x', r'.step g e = some (g', x') ∧ x.Ahead x' := by
  obtain rfl | ⟨hruns, outcome, rfl⟩ := h
  · exact ⟨x, hstep, .inl rfl⟩
  · exact step_of_running hstep he hruns outcome

end Execute

namespace State

variable {s s' t : State}

/-- The same Garage, but for tasks that have ended already. -/
structure Ahead (s s' : State) : Prop where
  agent : s'.agent = s.agent
  calls : List.Forall₂ Execute.Ahead s.calls s'.calls

theorem Ahead.arrive (h : s.Ahead s') {request : RemoteExecutionRequest}
    (hstep : s.step (.arrive request) = some t) :
    ∃ t', s'.step (.arrive request) = some t' ∧ t.Ahead t' := by
  obtain rfl := Option.some.inj hstep
  exact ⟨_, rfl, h.agent, related_concat h.calls (.inl rfl)⟩

theorem Ahead.call (h : s.Ahead s') {i : ℕ} {choice : Choice}
    (hstep : s.step (.call i choice) = some t) (hends : choice.isDispatchEnds = false) :
    ∃ t', s'.step (.call i choice) = some t' ∧ t.Ahead t' := by
  cases step_cases hstep with
  | @call _ _ r g' x hi hr =>
    obtain ⟨r', hi', hahead⟩ := exists_related h.calls hi
    obtain ⟨x', hx', hafter⟩ := hahead.step hr hends
    rw [← h.agent] at hx'
    refine ⟨⟨g', s'.calls.set i x'⟩, ?_, rfl, related_set h.calls hafter i⟩
    simp [State.step, hi', hx']

theorem Ahead.finish (h : s.Ahead s') {i : ℕ} {r : Execute} (hi : s'.calls[i]? = some r)
    (hruns : r.dispatch = .running) (outcome : Except String (Except String HttpDispatchResult)) :
    ∃ t', s'.step (.call i (.dispatchEnds outcome)) = some t' ∧ s.Ahead t' := by
  obtain ⟨r₀, hi₀, hahead⟩ := exists_related' h.calls hi
  obtain rfl | ⟨-, outcome', rfl⟩ := hahead
  · have hstep := Execute.step_of_dispatches s'.agent hruns outcome
    refine ⟨⟨s'.agent, s'.calls.set i { r with dispatch := .finished outcome }⟩, ?_, h.agent, ?_⟩
    · rw [State.step, hi, Option.bind_some, hstep, Option.map_some]
    · exact related_set_right h.calls hi₀ (.inr ⟨hruns, outcome, rfl⟩)
  · cases hruns

theorem Ahead.settle (h : s.Ahead s') {i : ℕ} {r : Execute}
    {outcome : Except String (Except String HttpDispatchResult)} (hi : s'.calls[i]? = some r)
    (hfinished : r.dispatch = .finished outcome)
    (hstep : s.step (.call i (.dispatchEnds outcome)) = some t) : t.Ahead s' := by
  cases step_cases hstep with
  | call hi₀ hr =>
    obtain ⟨r', hi', hahead⟩ := exists_related h.calls hi₀
    obtain rfl := Option.some.inj (hi.symm.trans hi')
    obtain ⟨hruns, rfl⟩ := Execute.step_dispatchEnds hr rfl
    have hagent := Execute.step_dispatchEnds_agent hr rfl
    obtain rfl | ⟨-, outcome', rfl⟩ := hahead
    · cases hruns.symm.trans hfinished
    · cases hfinished
      exact ⟨by rw [hagent, h.agent], related_set_left h.calls hi (.inl rfl)⟩

end State

/-! ### The fleet of a cluster -/

/-- Where a guest is, by what its task does and how its call stands. -/
def GuestStage.ofStanding (activity : Activity) : Option (Standing HttpResponse) → GuestStage
  | none | some .queued => .waiting
  | some (.onLane lane) =>
    match activity with
    | .computing => .running lane
    | .calling logical => .calling lane logical
    | .forwarded g i => .forwarded lane g i
  | some (.released _ _) | some .lost => .finished

/-- The nodes of a fleet know which lanes are free, not who has the others. -/
structure Process.Simulates (p : Process) (node : Node) : Prop where
  garage : p.garage.Ahead node.garage
  maxInvocationDepth : node.maxInvocationDepth = p.maxInvocationDepth
  grants : node.grants = p.grants
  sharedLanes : node.sharedLanes.map Option.isNone =
    p.scheduler.scheduler.sharedLanes.map Option.isNone

namespace Cluster

variable {ids : GarageIds} {library : ServiceLibrary} {sha256 : Bytes → Sha256}
  {c d : Cluster} {a : ClusterAction} {names : ℕ → String} {s t : Fleet}

/-- The guest of a task. -/
def guest (c : Cluster) (name : String) (task : DispatchTask) : Guest where
  garage := task.garage
  call := task.call
  payload := task.payload
  executionId := name
  stage := .ofStanding task.activity ((c.job? task).map RunOneObserved.standing)

/-- The fleet of a cluster, when `names` are the execution ids of its guests. -/
structure Simulates (names : ℕ → String) (c : Cluster) (s : Fleet) : Prop where
  nodes : List.Forall₂ Process.Simulates c.processes s.nodes
  guests : ∀ e, s.guests[e]? = (c.tasks[e]?).map (c.guest (names e))
  ended : ∀ (e : ℕ) (task : DispatchTask) (at₀ : Scheduler.Instant) (clocks : TaskClocks)
    (job : ℕ) (call : RunOneObserved HttpResponse) (slot : Scheduler.Assignment)
    (result : Scheduler.ExecutionResult HttpResponse), c.tasks[e]? = some task →
      task.stage = .submitted at₀ clocks job → c.jobAt task.garage job = some call →
      call.standing = .released slot result → s.task? task.garage task.call =
        some (.finished (.ok (.ok (dispatchResult at₀ clocks slot result))))

theorem guest_congr {name : String} {task : DispatchTask}
    (h : (d.job? task).map RunOneObserved.standing = (c.job? task).map RunOneObserved.standing) :
    d.guest name task = c.guest name task := by
  rw [guest, guest, h]

/-- A Garage takes a step. -/
theorem Simulates.setGarage (h : Simulates names c s) {g : ℕ} {p : Process} {node : Node}
    {garage garage' : State} (hp : c.processes[g]? = some p) (hnode : s.nodes[g]? = some node)
    (hgarage : garage.Ahead garage')
    (htasks : ∀ x i outcome, s.task? x i = some (.finished outcome) →
      (s.setNode g { node with garage := garage' }).task? x i = some (.finished outcome)) :
    Simulates names (c.setProcess g { p with garage })
      (s.setNode g { node with garage := garage' }) := by
  obtain ⟨node', hnode', hsim⟩ := exists_related h.nodes hp
  obtain rfl := Option.some.inj (hnode.symm.trans hnode')
  have hnew : Process.Simulates { p with garage } { node with garage := garage' } :=
    ⟨hgarage, hsim.maxInvocationDepth, hsim.grants, hsim.sharedLanes⟩
  constructor
  · exact related_set h.nodes hnew g
  · intro e
    refine (h.guests e).trans (congrArg (Option.map · _) (funext fun task => ?_))
    exact (guest_congr (by rw [job?_setGarage hp])).symm
  · intro e task at₀ clocks job call slot result he hstage hcall hreleased
    rw [jobAt_setGarage hp] at hcall
    exact htasks _ _ _ (h.ended e task at₀ clocks job call slot result he hstage hcall hreleased)

/-- A task goes on without its scheduler. -/
theorem Simulates.setTask (h : Simulates names c s) {e : ℕ} {task task' : DispatchTask}
    (he : c.tasks[e]? = some task) (hgarage : task'.garage = task.garage)
    (hcall : task'.call = task.call)
    (hstage : task'.stage.job? = none ∨ task'.stage = task.stage) (hnodes : t.nodes = s.nodes)
    (hguests : ∀ x, t.guests[x]? = if x = e then some (c.guest (names e) task') else s.guests[x]?) :
    Simulates names (c.setTask e task') t := by
  constructor
  · rw [hnodes]
    exact h.nodes
  · intro x
    rw [hguests, getElem?_setTask he]
    split_ifs with hx
    · rw [hx]
      rfl
    · exact h.guests x
  · intro x y at₀ clocks job call slot result hy hsubmitted hjob hreleased
    have htask (g i : ℕ) : t.task? g i = s.task? g i := by
      rw [Fleet.task?, Fleet.call?, hnodes]
      rfl
    rw [htask]
    rw [getElem?_setTask he] at hy
    split_ifs at hy with hx
    · cases hy
      rcases hstage with hnone | hsame
      · rw [hsubmitted] at hnone
        cases hnone
      · rw [hgarage] at hjob ⊢
        rw [hcall]
        exact h.ended e task at₀ clocks job call slot result he (hsame ▸ hsubmitted) hjob hreleased
    · exact h.ended x y at₀ clocks job call slot result hy hsubmitted hjob hreleased

/-- The call of one task in its scheduler takes a step that shows. -/
theorem Simulates.setJob (h : Simulates names c s) (hjobs : c.Jobs) {g j e : ℕ} {p : Process}
    {scheduler : Scheduler.State HttpResponse} {call call' : RunOneObserved HttpResponse}
    {task : DispatchTask} (hp : c.processes[g]? = some p)
    (hj : p.scheduler.calls[j]? = some call)
    (hcalls : scheduler.calls = p.scheduler.calls.set j call')
    (he : c.tasks[e]? = some task) (hgarage : task.garage = g) (hjob : task.stage.job? = some j)
    (hnodes : List.Forall₂ Process.Simulates (c.processes.set g { p with scheduler }) t.nodes)
    (hguests : ∀ x, t.guests[x]? = if x = e then
      some { c.guest (names e) task with stage := .ofStanding task.activity (some call'.standing) }
        else s.guests[x]?)
    (htasks : ∀ x i outcome, s.task? x i = some (.finished outcome) →
      t.task? x i = some (.finished outcome))
    (hended : ∀ at₀ clocks slot result, task.stage = .submitted at₀ clocks j →
      call'.standing = .released slot result → t.task? task.garage task.call =
        some (.finished (.ok (.ok (dispatchResult at₀ clocks slot result))))) :
    Simulates names (c.setProcess g { p with scheduler }) t := by
  have hat (x job : ℕ) : (c.setProcess g { p with scheduler }).jobAt x job =
      if x = g ∧ job = j then some call' else c.jobAt x job := by
    rw [jobAt_setProcess hp, hcalls]
    rcases eq_or_ne x g with rfl | hne
    · rw [if_pos rfl, getElem?_set_of_some hj, jobAt, hp, Option.bind_some]
      simp
    · rw [if_neg hne, if_neg fun h => hne h.1]
  -- the other tasks have other jobs
  have hother {x job : ℕ} {y : DispatchTask} (hx : x ≠ e) (hy : c.tasks[x]? = some y)
      (hyjob : y.stage.job? = some job) :
      (c.setProcess g { p with scheduler }).jobAt y.garage job = c.jobAt y.garage job := by
    rw [hat, if_neg]
    rintro ⟨hg, rfl⟩
    exact hx (hjobs.single x e y task job hy he (hg.trans hgarage.symm) hyjob hjob)
  constructor
  · exact hnodes
  · intro x
    rw [hguests]
    split_ifs with hx
    · subst hx
      have hsome : (c.setProcess g { p with scheduler }).job? task = some call' := by
        rw [job?, hjob, Option.bind_some, hat, if_pos ⟨hgarage, rfl⟩]
      rw [tasks_setProcess, he, Option.map_some, guest, guest, hsome, Option.map_some]
    · rw [h.guests, tasks_setProcess]
      cases hy : c.tasks[x]? with
      | none => rfl
      | some y =>
        rw [Option.map_some, Option.map_some]
        refine congrArg some (guest_congr (congrArg _ ?_)).symm
        exact job?_congr fun job hyjob => hother hx hy hyjob
  · intro x y at₀ clocks job r slot result hy hsubmitted hr hreleased
    have hyjob : y.stage.job? = some job := by
      rw [hsubmitted]
      rfl
    rcases eq_or_ne x e with rfl | hx
    · obtain rfl := Option.some.inj (he.symm.trans hy)
      obtain rfl := Option.some.inj (hjob.symm.trans hyjob)
      rw [hat, if_pos ⟨hgarage, rfl⟩] at hr
      cases hr
      exact hended at₀ clocks slot result hsubmitted hreleased
    · rw [hother hx hy hyjob] at hr
      exact htasks _ _ _ (h.ended x y at₀ clocks job r slot result hy hsubmitted hr hreleased)

/-- A scheduler takes a step that does not show. -/
theorem Simulates.of_standing (h : Simulates names c s) {g : ℕ} {p : Process}
    {scheduler : Scheduler.State HttpResponse} (hp : c.processes[g]? = some p)
    (hstanding : scheduler.calls.map RunOneObserved.standing =
      p.scheduler.calls.map RunOneObserved.standing)
    (hlanes : scheduler.scheduler.sharedLanes = p.scheduler.scheduler.sharedLanes) :
    Simulates names (c.setProcess g { p with scheduler }) s := by
  have hat (x job : ℕ) : ((c.setProcess g { p with scheduler }).jobAt x job).map
      RunOneObserved.standing = (c.jobAt x job).map RunOneObserved.standing := by
    rw [jobAt_setProcess hp]
    split_ifs with hx
    · rw [hx, jobAt, hp, Option.bind_some, ← List.getElem?_map, hstanding, List.getElem?_map]
    · rfl
  constructor
  · obtain ⟨node, hnode, hsim⟩ := exists_related h.nodes hp
    have hnew : Process.Simulates { p with scheduler } node :=
      ⟨hsim.garage, hsim.maxInvocationDepth, hsim.grants, hlanes ▸ hsim.sharedLanes⟩
    exact related_set_left h.nodes hnode hnew
  · intro e
    refine (h.guests e).trans (congrArg (Option.map · _) (funext fun task => ?_))
    refine (guest_congr ?_).symm
    rw [job?, job?, Option.map_bind, Option.map_bind]
    exact congrArg _ (funext fun job => hat _ job)
  · intro e task at₀ clocks job call slot result he hstage hcall hreleased
    have hold := (hat task.garage job).symm
    rw [hcall, Option.map_some, Option.map_eq_some_iff] at hold
    obtain ⟨call', hcall', hsame⟩ := hold
    exact h.ended e task at₀ clocks job call' slot result he hstage hcall' (hsame.trans hreleased)

/-! ### Steps that do not show -/

theorem Simulates.setTask_same (h : Simulates names c s) {e : ℕ} {task task' : DispatchTask}
    (he : c.tasks[e]? = some task) (hgarage : task'.garage = task.garage)
    (hcall : task'.call = task.call) (hstage : task'.stage.job? = none ∨ task'.stage = task.stage)
    (hguest : c.guest (names e) task' = c.guest (names e) task) :
    Simulates names (c.setTask e task') s := by
  refine h.setTask he hgarage hcall hstage rfl fun x => ?_
  split_ifs with hx
  · rw [hguest, hx, h.guests, he, Option.map_some]
  · rfl

/-- A task queues for a lane. -/
theorem Simulates.submit (h : Simulates names c s) (hjobs : c.Jobs) {e : ℕ} {task : DispatchTask}
    {p : Process} {scheduler : Scheduler.State HttpResponse} {at₀ : Scheduler.Instant}
    {clocks : TaskClocks} (he : c.tasks[e]? = some task)
    (hp : c.processes[task.garage]? = some p) (hjobless : task.stage.job? = none)
    (hs : p.scheduler.step .runOneObserved = some scheduler) :
    Simulates names ((c.setProcess task.garage { p with scheduler }).setTask e
      { task with stage := .submitted at₀ clocks p.scheduler.calls.length }) s := by
  obtain rfl := Option.some.inj hs
  set p' : Process := { p with scheduler := _ } with hp'
  have hat (x job : ℕ) : (c.setProcess task.garage p').jobAt x job =
      if x = task.garage then p'.scheduler.calls[job]? else c.jobAt x job := jobAt_setProcess hp
  have hkept {x job : ℕ} {call : RunOneObserved HttpResponse} (hc : c.jobAt x job = some call) :
      (c.setProcess task.garage p').jobAt x job = some call := by
    rw [hat]
    split_ifs with hx
    · rw [hx, jobAt, hp, Option.bind_some] at hc
      exact getElem?_append_of_some hc
    · exact hc
  have hnew : (c.setProcess task.garage p').jobAt task.garage p.scheduler.calls.length =
      some (.waiting ⟨p.scheduler.scheduler.nextId, p.scheduler.now⟩ .numbered) := by
    rw [hat, if_pos rfl]
    exact List.getElem?_concat_length
  constructor
  · obtain ⟨node, hnode, hsim⟩ := exists_related h.nodes hp
    have hsim' : p'.Simulates node :=
      ⟨hsim.garage, hsim.maxInvocationDepth, hsim.grants, hsim.sharedLanes⟩
    exact related_set_left h.nodes hnode hsim'
  · intro x
    rw [getElem?_setTask (c := c.setProcess task.garage p') he]
    split_ifs with hx
    · rw [hx, h.guests, he, Option.map_some, Option.map_some, guest, guest, job?, hjobless]
      have hjob : Cluster.job? ((c.setProcess task.garage p').setTask e
          { task with stage := .submitted at₀ clocks p.scheduler.calls.length })
            { task with stage := .submitted at₀ clocks p.scheduler.calls.length } =
              some (.waiting ⟨p.scheduler.scheduler.nextId, p.scheduler.now⟩ .numbered) := hnew
      rw [hjob]
      rfl
    · rw [h.guests, tasks_setProcess]
      cases hy : c.tasks[x]? with
      | none => rfl
      | some y =>
        rw [Option.map_some, Option.map_some]
        refine congrArg some (guest_congr (congrArg _ (job?_congr fun job hyjob => ?_))).symm
        obtain ⟨call, hcall⟩ := Option.isSome_iff_exists.mp (hjobs.known x y job hy hyjob)
        rw [hcall]
        exact hkept hcall
  · intro x y at₁ clocks₁ job call slot result hy hsubmitted hjob hreleased
    rw [getElem?_setTask (c := c.setProcess task.garage p') he] at hy
    split_ifs at hy with hx
    · cases hy
      cases hsubmitted
      cases hnew.symm.trans hjob
      cases hreleased
    · have hyjob : y.stage.job? = some job := by
        rw [hsubmitted]
        rfl
      obtain ⟨call', hcall'⟩ := Option.isSome_iff_exists.mp (hjobs.known x y job hy hyjob)
      cases (hkept hcall').symm.trans hjob
      exact h.ended x y at₁ clocks₁ job call slot result hy hsubmitted hcall' hreleased

end Cluster

end PitBox.Garage
