import PitBox.Garage.Cluster
import PitBox.Garage.Readiness
import PitBox.Scheduler.Standing

/-!
# What one step of a cluster does

The steps of a cluster taken apart, and the books that tie the blocking tasks to
the calls of the schedulers: every call of a scheduler is that of one task, and
a guest is in a nested call only while the scheduler runs its task.
-/

namespace PitBox.Garage

open PitBox.Runtime Table Transition
open PitBox.Scheduler (RunOneObserved)

/-- The task of the step unwinds. -/
def ClusterAction.unwinds : ClusterAction → Bool
  | .unwind _ => true
  | _ => false

theorem unwindsCall_of_isSchedulerStep {a : Scheduler.Action HttpResponse}
    (h : isSchedulerStep a = true) : a.ofCall = true ∧ a.unwindsCall = false ∧
      ∀ j outcome, a ≠ .call j (.finish outcome) := by
  revert h
  fun_cases isSchedulerStep a <;>
    simp [Scheduler.Action.ofCall, Scheduler.Action.unwindsCall, Scheduler.Choice.unwinds]

theorem TaskStage.job?_eq_some {stage : TaskStage} {job : ℕ} :
    stage.job? = some job ↔ ∃ at₀ clocks, stage = .submitted at₀ clocks job := by
  cases stage <;> simp [TaskStage.job?]

namespace Cluster

variable {ids : GarageIds} {library : ServiceLibrary} {sha256 : Bytes → Sha256}
  {c d : Cluster} {a : ClusterAction}

/-- The steps of a cluster with what they ask for. -/
inductive Change (ids : GarageIds) (library : ServiceLibrary) (sha256 : Bytes → Sha256)
    (c : Cluster) : ClusterAction → Cluster → Prop
  | arrive {g : ℕ} {request : RemoteExecutionRequest} {p : Process} {garage : State}
      (hp : c.processes[g]? = some p) (hb : p.garage.step (.arrive request) = some garage) :
    Change ids library sha256 c (.arrive g request) (c.setProcess g { p with garage })
  | garage {g i : ℕ} {choice : Choice} {p : Process} {call : Execute} {garage : State}
      (hp : c.processes[g]? = some p) (hcall : p.garage.calls[i]? = some call)
      (hwarm : call.stage.isWarm = false) (hends : choice.isDispatchEnds = false)
      (hb : p.garage.step (.call i choice) = some garage) :
    Change ids library sha256 c (.garage g i choice) (c.setProcess g { p with garage })
  | dispatch {g i : ℕ} {payload : RemotePayload} {p : Process} {call : Execute} {garage : State}
      (hp : c.processes[g]? = some p) (hcall : p.garage.calls[i]? = some call)
      (hwarm : call.stage.isWarm = true) (hb : p.garage.step (.call i .go) = some garage) :
    Change ids library sha256 c (.dispatch g i payload)
      { c.setProcess g { p with garage } with
        tasks := c.tasks ++ [⟨g, i, payload, .spawned, .computing⟩] }
  | scheduler {g : ℕ} {b : Scheduler.Action HttpResponse} {p : Process}
      {scheduler : Scheduler.State HttpResponse} (hp : c.processes[g]? = some p)
      (hb : isSchedulerStep b = true) (hs : p.scheduler.step b = some scheduler) :
    Change ids library sha256 c (.scheduler g b) (c.setProcess g { p with scheduler })
  | receive {e : ℕ} {task : DispatchTask} {p : Process} (he : c.tasks[e]? = some task)
      (hp : c.processes[task.garage]? = some p) (hstage : task.stage = .spawned) :
    Change ids library sha256 c (.receive e)
      (c.setTask e { task with stage := .received p.scheduler.now })
  | found {e : ℕ} {task : DispatchTask} {p : Process} {at₀ : Scheduler.Instant}
      (he : c.tasks[e]? = some task) (hp : c.processes[task.garage]? = some p)
      (hstage : task.stage = .received at₀) :
    Change ids library sha256 c (.lookUp e)
      (c.setTask e { task with stage := .found at₀ (p.scheduler.now - at₀) })
  | missed {e : ℕ} {task : DispatchTask} {p : Process} {call : Execute} {garage : State}
      {at₀ : Scheduler.Instant} {outcome : Except String (Except String HttpDispatchResult)}
      (he : c.tasks[e]? = some task) (hp : c.processes[task.garage]? = some p)
      (hstage : task.stage = .received at₀)
      (hcall : p.garage.calls[task.call]? = some call)
      (hmissing : call.digest ∉ p.garage.agent.prepared)
      (hb : p.garage.step (.call task.call (.dispatchEnds outcome)) = some garage) :
    Change ids library sha256 c (.lookUp e)
      ((c.setProcess task.garage { p with garage }).setTask e { task with stage := .missed })
  | submit {e : ℕ} {task : DispatchTask} {p : Process} {at₀ : Scheduler.Instant}
      {lookup guestDelay : Scheduler.Duration} {scheduler : Scheduler.State HttpResponse}
      (he : c.tasks[e]? = some task)
      (hp : c.processes[task.garage]? = some p) (hstage : task.stage = .found at₀ lookup)
      (hs : p.scheduler.step .runOneObserved = some scheduler) :
    Change ids library sha256 c (.submit e guestDelay)
      ((c.setProcess task.garage { p with scheduler }).setTask e
        { task with stage := .submitted at₀ ⟨lookup, guestDelay⟩ p.scheduler.calls.length })
  | nested {e : ℕ} {nestedCall : HttpHostState.NestedCall} {requestId : String}
      {task : DispatchTask} {p : Process} {slot : Scheduler.Assignment}
      {timer : Scheduler.TaskTimer} {call : Execute} {logical : LogicalInvocationRequest}
      (he : c.tasks[e]? = some task) (hp : c.processes[task.garage]? = some p)
      (hactivity : task.activity = .computing)
      (hjob : c.job? task = some (.owning slot (.running timer)))
      (hcall : p.garage.calls[task.call]? = some call)
      (hnested : (execution p call task slot.executionId).nested ids library sha256 nestedCall
        requestId = some logical) :
    Change ids library sha256 c (.nested e nestedCall requestId)
      (c.setTask e { task with activity := .calling logical })
  | forward {e g : ℕ} {request : RemoteExecutionRequest} {task : DispatchTask} {q : Process}
      {logical : LogicalInvocationRequest} {garage : State} (he : c.tasks[e]? = some task)
      (hactivity : task.activity = .calling logical) (hq : c.processes[g]? = some q)
      (hforward : request.invocationDepth = logical.invocationDepth ∧
        request.visitedGarages = logical.visitedGarages ∧
        q.garage.agent.id ∉ logical.visitedGarages)
      (hb : q.garage.step (.arrive request) = some garage) :
    Change ids library sha256 c (.forward e g request)
      ((c.setProcess g { q with garage }).setTask e
        { task with activity := .forwarded g q.garage.calls.length })
  | reject {e : ℕ} {task : DispatchTask} {logical : LogicalInvocationRequest}
      (he : c.tasks[e]? = some task) (hactivity : task.activity = .calling logical) :
    Change ids library sha256 c (.reject e) (c.setTask e { task with activity := .computing })
  | answer {e g i : ℕ} {task : DispatchTask} {call : Execute} (he : c.tasks[e]? = some task)
      (hactivity : task.activity = .forwarded g i) (hcall : c.call? g i = some call)
      (hover : call.stage.isOver = true) :
    Change ids library sha256 c (.answer e) (c.setTask e { task with activity := .computing })
  | finish {e job : ℕ} {outcome : Except String HttpResponse} {task : DispatchTask} {p : Process}
      {scheduler : Scheduler.State HttpResponse} (he : c.tasks[e]? = some task)
      (hp : c.processes[task.garage]? = some p) (hactivity : task.activity = .computing)
      (hjob : task.stage.job? = some job)
      (hs : p.scheduler.step (.call job (.finish outcome)) = some scheduler) :
    Change ids library sha256 c (.finish e outcome)
      (c.setProcess task.garage { p with scheduler })
  | unwind {e job : ℕ} {task : DispatchTask} {p : Process}
      {scheduler : Scheduler.State HttpResponse} (he : c.tasks[e]? = some task)
      (hp : c.processes[task.garage]? = some p) (hactivity : task.activity = .computing)
      (hjob : task.stage.job? = some job)
      (hs : p.scheduler.step (.call job .unwind) = some scheduler) :
    Change ids library sha256 c (.unwind e) (c.setProcess task.garage { p with scheduler })
  | settle {e job : ℕ} {task : DispatchTask} {p : Process} {at₀ : Scheduler.Instant}
      {clocks : TaskClocks} {slot : Scheduler.Assignment}
      {scheduled : Scheduler.ExecutionResult HttpResponse}
      {garage : State} (he : c.tasks[e]? = some task)
      (hp : c.processes[task.garage]? = some p)
      (hstage : task.stage = .submitted at₀ clocks job)
      (hjob : c.job? task = some (.returned slot scheduled))
      (hb : p.garage.step (.call task.call (.dispatchEnds (.ok (.ok
        (dispatchResult at₀ clocks slot scheduled))))) = some garage) :
    Change ids library sha256 c (.settle e) (c.setProcess task.garage { p with garage })
  | panicked {e : ℕ} {error : String} {task : DispatchTask} {p : Process}
      {slot : Scheduler.Assignment} {counted : Bool} {garage : State}
      (he : c.tasks[e]? = some task) (hp : c.processes[task.garage]? = some p)
      (hjob : c.job? task = some (.unwound slot counted))
      (hb : p.garage.step (.call task.call (.dispatchEnds (.error error))) = some garage) :
    Change ids library sha256 c (.panicked e error) (c.setProcess task.garage { p with garage })

theorem stepGarage_eq_some {g : ℕ} {b : Action} : c.stepGarage g b = some d ↔
    ∃ p garage, c.processes[g]? = some p ∧ p.garage.step b = some garage ∧
      c.setProcess g { p with garage } = d := by
  simp [stepGarage, Option.bind_eq_some_iff]

theorem stepScheduler_eq_some {g : ℕ} {b : Scheduler.Action HttpResponse} :
    c.stepScheduler g b = some d ↔ ∃ p scheduler, c.processes[g]? = some p ∧
      p.scheduler.step b = some scheduler ∧ c.setProcess g { p with scheduler } = d := by
  simp [stepScheduler, Option.bind_eq_some_iff]

theorem call?_eq_some {g i : ℕ} {call : Execute} : c.call? g i = some call ↔
    ∃ p, c.processes[g]? = some p ∧ p.garage.calls[i]? = some call := by
  rw [call?, Option.bind_eq_some_iff]

theorem stepTask_change {e : ℕ} {task : DispatchTask} {p : Process}
    (he : c.tasks[e]? = some task) (hp : c.processes[task.garage]? = some p)
    (ha : a.task? = some e) (h : c.stepTask ids library sha256 e task p a = some d) :
    Change ids library sha256 c a d := by
  have hends {outcome : Except String (Except String HttpDispatchResult)} {u : Cluster}
      (hu : c.endTask task outcome = some u) : ∃ garage,
        p.garage.step (.call task.call (.dispatchEnds outcome)) = some garage ∧
          c.setProcess task.garage { p with garage } = u := by
    obtain ⟨q, garage, hq, hb, rfl⟩ := stepGarage_eq_some.mp hu
    obtain rfl := Option.some.inj (hp.symm.trans hq)
    exact ⟨garage, hb, rfl⟩
  have hruns {b : Scheduler.Action HttpResponse} {u : Cluster}
      (hu : c.stepScheduler task.garage b = some u) : ∃ scheduler,
        p.scheduler.step b = some scheduler ∧
          c.setProcess task.garage { p with scheduler } = u := by
    obtain ⟨q, scheduler, hq, hb, rfl⟩ := stepScheduler_eq_some.mp hu
    obtain rfl := Option.some.inj (hp.symm.trans hq)
    exact ⟨scheduler, hb, rfl⟩
  revert h ha
  fun_cases stepTask ids library sha256 c e task p a <;> intro ha h
  all_goals try cases h
  all_goals cases ha
  case case1 hstage => exact .receive he hp hstage
  case case3 hcall hstage hmem => exact .found he hp hstage
  case case4 hcall hstage hmissing =>
    obtain ⟨u, hu, rfl⟩ := Option.map_eq_some_iff.mp h
    obtain ⟨garage, hb, rfl⟩ := hends hu
    exact .missed he hp hstage hcall hmissing hb
  case case6 hstage =>
    obtain ⟨u, hu, rfl⟩ := Option.map_eq_some_iff.mp h
    obtain ⟨scheduler, hs, rfl⟩ := hruns hu
    exact .submit he hp hstage hs
  case case8 hjob hactivity =>
    obtain ⟨call, hcall, h⟩ := Option.bind_eq_some_iff.mp h
    obtain ⟨logical, hnested, rfl⟩ := Option.map_eq_some_iff.mp h
    exact .nested he hp hactivity hjob hcall hnested
  case case10 hq hactivity hforward =>
    obtain ⟨u, hu, rfl⟩ := Option.map_eq_some_iff.mp h
    obtain ⟨q', garage, hq', hb, rfl⟩ := stepGarage_eq_some.mp hu
    obtain rfl := Option.some.inj (hq.symm.trans hq')
    exact .forward he hactivity hq hforward hb
  case case13 hactivity => exact .reject he hactivity
  case case15 hactivity call hcall hover => exact .answer he hactivity hcall hover
  case case19 hstage hactivity =>
    obtain ⟨scheduler, hs, rfl⟩ := hruns h
    exact .finish he hp hactivity (by rw [hstage]; rfl) hs
  case case21 hjob hstage hactivity =>
    obtain ⟨scheduler, hs, rfl⟩ := hruns h
    exact .unwind he hp hactivity (by rw [hstage]; rfl) hs
  case case23 hjob hstage =>
    obtain ⟨garage, hb, rfl⟩ := hends h
    exact .settle he hp hstage hjob hb
  case case25 hjob =>
    obtain ⟨garage, hb, rfl⟩ := hends h
    exact .panicked he hp hjob hb

theorem step_change (h : c.step ids library sha256 a = some d) :
    Change ids library sha256 c a d := by
  revert h
  fun_cases step ids library sha256 c a <;> intro h
  all_goals try cases h
  case case1 =>
    obtain ⟨p, garage, hp, hb, rfl⟩ := stepGarage_eq_some.mp h
    exact .arrive hp hb
  case case3 hcall hguard =>
    obtain ⟨p, garage, hp, hb, rfl⟩ := stepGarage_eq_some.mp h
    obtain ⟨q, hq, hcall⟩ := call?_eq_some.mp hcall
    obtain rfl := Option.some.inj (hp.symm.trans hq)
    rw [Bool.or_eq_true, not_or, Bool.not_eq_true, Bool.not_eq_true] at hguard
    exact .garage hp hcall hguard.1 hguard.2 hb
  case case5 hcall hwarm =>
    obtain ⟨u, hu, rfl⟩ := Option.map_eq_some_iff.mp h
    obtain ⟨p, garage, hp, hb, rfl⟩ := stepGarage_eq_some.mp hu
    obtain ⟨q, hq, hcall⟩ := call?_eq_some.mp hcall
    obtain rfl := Option.some.inj (hp.symm.trans hq)
    exact .dispatch hp hcall hwarm hb
  case case8 hb =>
    obtain ⟨p, scheduler, hp, hs, rfl⟩ := stepScheduler_eq_some.mp h
    exact .scheduler hp hb hs
  case case10 e task he p hp ha _ _ _ _ =>
    simp only [ha, he, hp] at h
    exact stepTask_change he hp ha h
  all_goals simp_all

/-! ### Which call of a scheduler is whose -/

theorem getElem?_setTask {e x : ℕ} {task task' : DispatchTask} (he : c.tasks[e]? = some task) :
    (c.setTask e task').tasks[x]? = if x = e then some task' else c.tasks[x]? :=
  getElem?_set_of_some he task' x

theorem jobAt_eq_some {g job : ℕ} {call : RunOneObserved HttpResponse} :
    c.jobAt g job = some call ↔
      ∃ p, c.processes[g]? = some p ∧ p.scheduler.calls[job]? = some call := by
  rw [jobAt, Option.bind_eq_some_iff]

theorem jobAt_setProcess {g x job : ℕ} {p p' : Process} (hp : c.processes[g]? = some p) :
    (c.setProcess g p').jobAt x job =
      if x = g then p'.scheduler.calls[job]? else c.jobAt x job := by
  unfold jobAt setProcess
  rcases eq_or_ne x g with rfl | hne
  · rw [if_pos rfl, List.getElem?_set_self (List.getElem?_eq_some_iff.mp hp).1, Option.bind_some]
  · rw [if_neg hne, List.getElem?_set_ne hne.symm]

@[simp] theorem tasks_setProcess (g : ℕ) (p : Process) : (c.setProcess g p).tasks = c.tasks := rfl

theorem jobAt_setProcess_same {g : ℕ} {p p' : Process} (hp : c.processes[g]? = some p)
    (h : p'.scheduler = p.scheduler) (x job : ℕ) :
    (c.setProcess g p').jobAt x job = c.jobAt x job := by
  rw [jobAt_setProcess hp, h]
  split_ifs with hx
  · rw [hx, jobAt, hp, Option.bind_some]
  · rfl

theorem jobAt_setGarage {g : ℕ} {p : Process} (hp : c.processes[g]? = some p) (garage : State)
    (x job : ℕ) : (c.setProcess g { p with garage }).jobAt x job = c.jobAt x job := by
  refine jobAt_setProcess_same hp ?_ x job
  rfl

theorem job?_congr {task : DispatchTask} (h : ∀ job, task.stage.job? = some job →
    d.jobAt task.garage job = c.jobAt task.garage job) : d.job? task = c.job? task := by
  unfold job?
  cases hjob : task.stage.job? with
  | none => rfl
  | some job => exact h job hjob

theorem job?_eq_none {task : DispatchTask} (h : task.stage.job? = none) : c.job? task = none := by
  rw [job?, h, Option.bind_none]

theorem job?_setGarage {g : ℕ} {p : Process} (hp : c.processes[g]? = some p) (garage : State)
    (task : DispatchTask) : (c.setProcess g { p with garage }).job? task = c.job? task :=
  job?_congr fun job _ => jobAt_setGarage hp garage _ job

theorem job?_eq_some {task : DispatchTask} {call : RunOneObserved HttpResponse} :
    c.job? task = some call ↔
      ∃ job, task.stage.job? = some job ∧ c.jobAt task.garage job = some call := by
  rw [job?, Option.bind_eq_some_iff]

/-- Every call of a scheduler is that of one task, and a guest in a nested call
is on its lane. -/
structure Jobs (c : Cluster) : Prop where
  known : ∀ (e : ℕ) (task : DispatchTask) (job : ℕ), c.tasks[e]? = some task →
    task.stage.job? = some job → (c.jobAt task.garage job).isSome = true
  served : ∀ g job, (c.jobAt g job).isSome = true → ∃ (e : ℕ) (task : DispatchTask),
    c.tasks[e]? = some task ∧ task.garage = g ∧ task.stage.job? = some job
  single : ∀ (e e' : ℕ) (task task' : DispatchTask) (job : ℕ), c.tasks[e]? = some task →
    c.tasks[e']? = some task' → task.garage = task'.garage → task.stage.job? = some job →
    task'.stage.job? = some job → e = e'
  busy : ∀ (e : ℕ) (task : DispatchTask), c.tasks[e]? = some task → task.activity ≠ .computing →
    ∃ call, c.job? task = some call ∧ call.runs = true

theorem jobs_fresh (garages : List (GarageAgent × UInt64)) (maxInvocationDepth : ℕ)
    (now : Scheduler.Instant) : (fresh garages maxInvocationDepth now).Jobs where
  known := by simp [fresh]
  served g job h := by
    obtain ⟨call, hcall⟩ := Option.isSome_iff_exists.mp h
    obtain ⟨p, hp, hjob⟩ := jobAt_eq_some.mp hcall
    obtain ⟨q, -, rfl⟩ := List.mem_map.mp (List.mem_of_getElem? hp)
    simp [Scheduler.State.fresh] at hjob
  single := by simp [fresh]
  busy := by simp [fresh]

/-- The schedulers stay as they are, and one task goes on without them. -/
theorem Jobs.of_task (h : c.Jobs) (hjobs : ∀ g job, d.jobAt g job = c.jobAt g job) {e : ℕ}
    {task task' : DispatchTask} (he : c.tasks[e]? = some task)
    (htasks : d.tasks = (c.setTask e task').tasks) (hgarage : task'.garage = task.garage)
    (hstage : task'.stage.job? = task.stage.job?)
    (hbusy : task'.activity ≠ .computing → ∃ call, c.job? task = some call ∧ call.runs = true) :
    d.Jobs := by
  -- every task has the place and the job it had
  have hold {x : ℕ} {y : DispatchTask} (hy : d.tasks[x]? = some y) : ∃ z, c.tasks[x]? = some z ∧
      y.garage = z.garage ∧ y.stage.job? = z.stage.job? ∧ (x = e ∧ y = task' ∨ y = z) := by
    rw [htasks, getElem?_setTask he] at hy
    split_ifs at hy with hx
    · cases hy
      exact ⟨task, hx ▸ he, hgarage, hstage, .inl ⟨hx, rfl⟩⟩
    · exact ⟨y, hy, rfl, rfl, .inr rfl⟩
  have hsame {y z : DispatchTask} (hg : y.garage = z.garage) (hj : y.stage.job? = z.stage.job?) :
      d.job? y = c.job? z := by
    rw [job?, job?, hj, hg]
    exact congrArg _ (funext fun job => hjobs _ job)
  constructor
  · intro x y job hy hjob
    obtain ⟨z, hz, hg, hj, -⟩ := hold hy
    rw [hjobs, hg]
    exact h.known x z job hz (hj ▸ hjob)
  · intro g job hsome
    rw [hjobs] at hsome
    obtain ⟨x, z, hz, hg, hj⟩ := h.served g job hsome
    rcases eq_or_ne x e with rfl | hne
    · obtain rfl := Option.some.inj (he.symm.trans hz)
      refine ⟨x, task', ?_, hgarage.trans hg, hstage.trans hj⟩
      rw [htasks, getElem?_setTask he, if_pos rfl]
    · refine ⟨x, z, ?_, hg, hj⟩
      rw [htasks, getElem?_setTask he, if_neg hne, hz]
  · intro x x' y y' job hy hy' hgarage' hjob hjob'
    obtain ⟨z, hz, hg, hj, -⟩ := hold hy
    obtain ⟨z', hz', hg', hj', -⟩ := hold hy'
    exact h.single x x' z z' job hz hz' (by rw [← hg, ← hg', hgarage']) (hj ▸ hjob) (hj' ▸ hjob')
  · intro x y hy hactivity
    obtain ⟨z, hz, hg, hj, ⟨rfl, rfl⟩ | rfl⟩ := hold hy
    · obtain rfl := Option.some.inj (he.symm.trans hz)
      rw [hsame hg hj]
      exact hbusy hactivity
    · rw [hsame rfl rfl]
      exact h.busy x y hz hactivity

/-- Nothing changes but the Garages. -/
theorem Jobs.of_same (h : c.Jobs) (hjobs : ∀ g job, d.jobAt g job = c.jobAt g job)
    (htasks : d.tasks = c.tasks) : d.Jobs := by
  have hsame (task : DispatchTask) : d.job? task = c.job? task :=
    job?_congr fun job _ => hjobs _ job
  constructor
  · intro e task job he hjob
    rw [hjobs]
    exact h.known e task job (htasks ▸ he) hjob
  · intro g job hsome
    rw [hjobs] at hsome
    rw [htasks]
    exact h.served g job hsome
  · intro e e' task task' job he he'
    exact h.single e e' task task' job (htasks ▸ he) (htasks ▸ he')
  · intro e task he hactivity
    rw [hsame]
    exact h.busy e task (htasks ▸ he) hactivity

/-- A call that has been handed over gets a task. -/
theorem Jobs.push (h : c.Jobs) (hjobs : ∀ g job, d.jobAt g job = c.jobAt g job)
    {task : DispatchTask} (hstage : task.stage.job? = none) (hactivity : task.activity = .computing)
    (htasks : d.tasks = c.tasks ++ [task]) : d.Jobs := by
  have hold {x : ℕ} {y : DispatchTask} (hy : d.tasks[x]? = some y) :
      c.tasks[x]? = some y ∨ y = task := by
    rw [htasks] at hy
    exact (getElem?_concat_eq_some hy).imp_right And.right
  have hjobless {y : DispatchTask} {job : ℕ} (hy : y = task) (hjob : y.stage.job? = some job) :
      False := by
    rw [hy, hstage] at hjob
    cases hjob
  constructor
  · intro x y job hy hjob
    rw [hjobs]
    exact h.known x y job ((hold hy).resolve_right fun hy => hjobless hy hjob) hjob
  · intro g job hsome
    rw [hjobs] at hsome
    obtain ⟨x, y, hy, hg, hj⟩ := h.served g job hsome
    exact ⟨x, y, htasks ▸ getElem?_append_of_some hy, hg, hj⟩
  · intro x x' y y' job hy hy' hg hjob hjob'
    exact h.single x x' y y' job ((hold hy).resolve_right fun hy => hjobless hy hjob)
      ((hold hy').resolve_right fun hy' => hjobless hy' hjob') hg hjob hjob'
  · intro x y hy hbusy
    rcases hold hy with hy | rfl
    · obtain ⟨call, hcall, hruns⟩ := h.busy x y hy hbusy
      obtain ⟨job, hjob, hat⟩ := job?_eq_some.mp hcall
      exact ⟨call, job?_eq_some.mpr ⟨job, hjob, (hjobs _ _).trans hat⟩, hruns⟩
    · exact absurd hactivity hbusy

/-- A scheduler takes a step of the calls it has. -/
theorem Jobs.of_scheduler (h : c.Jobs) {g : ℕ} {p : Process}
    {scheduler : Scheduler.State HttpResponse} {b : Scheduler.Action HttpResponse}
    (hp : c.processes[g]? = some p) (hs : p.scheduler.step b = some scheduler)
    (hb : b.ofCall = true) (hunwinds : b.unwindsCall = false)
    (hfinish : ∀ job outcome, b = .call job (.finish outcome) → ∀ (e : ℕ) (task : DispatchTask),
      c.tasks[e]? = some task → task.garage = g → task.stage.job? = some job →
        task.activity = .computing) :
    (c.setProcess g { p with scheduler }).Jobs := by
  have hjobs (x job : ℕ) : (c.setProcess g { p with scheduler }).jobAt x job =
      if x = g then scheduler.calls[job]? else c.jobAt x job := jobAt_setProcess hp
  have hlength := Scheduler.State.step_length hs hb
  have hold (job : ℕ) : c.jobAt g job = p.scheduler.calls[job]? := by
    rw [jobAt, hp, Option.bind_some]
  have hsome (x job : ℕ) : ((c.setProcess g { p with scheduler }).jobAt x job).isSome = true ↔
      (c.jobAt x job).isSome = true := by
    rw [hjobs]
    split_ifs with hx
    · rw [hx, hold, Option.isSome_iff_ne_none, Option.isSome_iff_ne_none, ne_eq, ne_eq,
        List.getElem?_eq_none_iff, List.getElem?_eq_none_iff, hlength]
    · rfl
  constructor
  · intro e task job he hjob
    exact (hsome _ _).mpr (h.known e task job he hjob)
  · intro x job hx
    exact h.served x job ((hsome _ _).mp hx)
  · exact h.single
  · intro e task he hactivity
    obtain ⟨call, hcall, hruns⟩ := h.busy e task he hactivity
    obtain ⟨job, hjob, hat⟩ := job?_eq_some.mp hcall
    refine ⟨call, job?_eq_some.mpr ⟨job, hjob, ?_⟩, hruns⟩
    rw [hjobs]
    split_ifs with hg
    · rw [hg, hold] at hat
      obtain ⟨call', hcall', -, hkeeps⟩ := Scheduler.State.step_keeps hs hat
      rcases hkeeps hruns with (hu | ⟨outcome, rfl⟩) | rfl
      · exact absurd hu (by simp [hunwinds])
      · exact absurd (hfinish job outcome rfl e task he hg hjob) hactivity
      · exact hcall'
    · exact hat

/-- A task queues with its scheduler as a new call. -/
theorem Jobs.submit (h : c.Jobs) {e : ℕ} {task task' : DispatchTask} {p p' : Process}
    {call : RunOneObserved HttpResponse} (he : c.tasks[e]? = some task)
    (hp : c.processes[task.garage]? = some p) (hjobless : task.stage.job? = none)
    (hgarage : task'.garage = task.garage)
    (hstage : task'.stage.job? = some p.scheduler.calls.length)
    (hactivity : task'.activity = task.activity)
    (hcalls : p'.scheduler.calls = p.scheduler.calls ++ [call]) :
    ((c.setProcess task.garage p').setTask e task').Jobs := by
  have hjobs (x job : ℕ) : (c.setProcess task.garage p').jobAt x job =
      if x = task.garage then p'.scheduler.calls[job]? else c.jobAt x job := jobAt_setProcess hp
  have hat (job : ℕ) : c.jobAt task.garage job = p.scheduler.calls[job]? := by
    rw [jobAt, hp, Option.bind_some]
  -- the calls there were stay
  have hkept {x job : ℕ} {y : RunOneObserved HttpResponse} (hy : c.jobAt x job = some y) :
      (c.setProcess task.garage p').jobAt x job = some y := by
    rw [hjobs]
    split_ifs with hx
    · rw [hx, hat] at hy
      rw [hcalls, getElem?_append_of_some hy]
    · exact hy
  have hnew (x : DispatchTask) (job : ℕ) (hx : x.garage = task.garage)
      (hjob : x.stage.job? = some job) (hlt : (c.jobAt x.garage job).isSome = true) :
      job ≠ p.scheduler.calls.length := by
    rintro rfl
    rw [hx, hat, List.getElem?_eq_none le_rfl] at hlt
    cases hlt
  have hold {x : ℕ} {y : DispatchTask}
      (hy : ((c.setProcess task.garage p').setTask e task').tasks[x]? = some y) :
      x = e ∧ y = task' ∨ x ≠ e ∧ c.tasks[x]? = some y := by
    rw [getElem?_setTask (c := c.setProcess task.garage p') he] at hy
    split_ifs at hy with hx
    · cases hy
      exact .inl ⟨hx, rfl⟩
    · exact .inr ⟨hx, hy⟩
  constructor
  · intro x y job hy hjob
    change ((c.setProcess task.garage p').jobAt y.garage job).isSome = true
    rcases hold hy with ⟨-, rfl⟩ | ⟨-, hy⟩
    · obtain rfl := Option.some.inj (hstage.symm.trans hjob)
      rw [hjobs, if_pos hgarage, hcalls, List.getElem?_concat_length]
      rfl
    · obtain ⟨z, hz⟩ := Option.isSome_iff_exists.mp (h.known x y job hy hjob)
      rw [hkept hz]
      rfl
  · intro g job hsome
    change ((c.setProcess task.garage p').jobAt g job).isSome = true at hsome
    have hset (x : ℕ) : ((c.setProcess task.garage p').setTask e task').tasks[x]? =
        if x = e then some task' else c.tasks[x]? := getElem?_setTask he
    have hother (hc : (c.jobAt g job).isSome = true) : ∃ (x : ℕ) (y : DispatchTask),
        ((c.setProcess task.garage p').setTask e task').tasks[x]? = some y ∧ y.garage = g ∧
          y.stage.job? = some job := by
      obtain ⟨x, y, hy, hg, hj⟩ := h.served g job hc
      have hne : x ≠ e := by
        rintro rfl
        obtain rfl := Option.some.inj (he.symm.trans hy)
        cases hjobless.symm.trans hj
      exact ⟨x, y, by rw [hset, if_neg hne]; exact hy, hg, hj⟩
    rw [hjobs] at hsome
    split_ifs at hsome with hg
    · obtain ⟨y, hy⟩ := Option.isSome_iff_exists.mp hsome
      rw [hcalls] at hy
      rcases getElem?_concat_eq_some hy with hy | ⟨rfl, -⟩
      · exact hother (by rw [hg, hat, hy]; rfl)
      · exact ⟨e, task', by rw [hset, if_pos rfl], hgarage.trans hg.symm, hstage⟩
    · exact hother hsome
  · intro x x' y y' job hy hy' hg hjob hjob'
    rcases hold hy with ⟨rfl, rfl⟩ | ⟨-, hz⟩ <;> rcases hold hy' with ⟨rfl, rfl⟩ | ⟨-, hz'⟩
    · rfl
    · obtain rfl := Option.some.inj (hstage.symm.trans hjob)
      exact absurd rfl (hnew y' _ (hg.symm.trans hgarage) hjob' (h.known _ _ _ hz' hjob'))
    · obtain rfl := Option.some.inj (hstage.symm.trans hjob')
      exact absurd rfl (hnew y _ (hg.trans hgarage) hjob (h.known _ _ _ hz hjob))
    · exact h.single x x' y y' job hz hz' hg hjob hjob'
  · intro x y hy hbusy
    rcases hold hy with ⟨rfl, rfl⟩ | ⟨-, hy⟩
    · rw [hactivity] at hbusy
      obtain ⟨call, hcall, -⟩ := h.busy x task he hbusy
      obtain ⟨job, hjob, -⟩ := job?_eq_some.mp hcall
      cases hjobless.symm.trans hjob
    · obtain ⟨call, hcall, hruns⟩ := h.busy x y hy hbusy
      obtain ⟨job, hjob, hat'⟩ := job?_eq_some.mp hcall
      exact ⟨call, job?_eq_some.mpr ⟨job, hjob, hkept hat'⟩, hruns⟩

theorem Jobs.step (h : c.Jobs) (hstep : Change ids library sha256 c a d)
    (hunwinds : a.unwinds = false) : d.Jobs := by
  have hstay {e : ℕ} {task task' : DispatchTask} (he : c.tasks[e]? = some task)
      (hgarage : task'.garage = task.garage) (hstage : task'.stage.job? = task.stage.job?)
      (hactivity : task'.activity = .computing ∨ task'.activity = task.activity ∨
        ∃ call, c.job? task = some call ∧ call.runs = true) : (c.setTask e task').Jobs := by
    refine h.of_task (fun _ _ => rfl) he rfl hgarage hstage fun hbusy => ?_
    rcases hactivity with hcomputing | hsame | hruns
    · exact absurd hcomputing hbusy
    · exact h.busy e task he (hsame ▸ hbusy)
    · exact hruns
  cases hstep with
  | arrive hp hb => exact h.of_same (jobAt_setProcess_same hp rfl) rfl
  | garage hp hcall hwarm hends hb => exact h.of_same (jobAt_setProcess_same hp rfl) rfl
  | dispatch hp hcall hwarm hb => exact h.push (jobAt_setProcess_same hp rfl) rfl rfl rfl
  | scheduler hp hb hs =>
    obtain ⟨hof, hu, hnot⟩ := unwindsCall_of_isSchedulerStep hb
    exact h.of_scheduler hp hs hof hu fun job outcome hb' => absurd hb' (hnot job outcome)
  | receive he hp hstage => exact hstay he rfl (by rw [hstage]; rfl) (.inr (.inl rfl))
  | found he hp hstage => exact hstay he rfl (by rw [hstage]; rfl) (.inr (.inl rfl))
  | missed he hp hstage hcall hmissing hb =>
    refine h.of_task (jobAt_setProcess_same hp rfl) he rfl rfl (by rw [hstage]; rfl) fun hbusy => ?_
    exact h.busy _ _ he hbusy
  | submit he hp hstage hs =>
    cases hs
    exact h.submit he hp (by rw [hstage]; rfl) rfl rfl rfl rfl
  | nested he hp hactivity hjob hcall hnested =>
    exact hstay he rfl rfl (.inr (.inr ⟨_, hjob, rfl⟩))
  | @forward e g request task q logical garage he hactivity hq hforward hb =>
    have hbusy := h.busy e task he (by simp [hactivity])
    exact h.of_task (jobAt_setProcess_same hq rfl) he rfl rfl rfl fun _ => hbusy
  | reject he hactivity => exact hstay he rfl rfl (.inl rfl)
  | answer he hactivity hcall hover => exact hstay he rfl rfl (.inl rfl)
  | @finish e job outcome task p scheduler he hp hactivity hjob hs =>
    refine h.of_scheduler hp hs rfl rfl fun job' outcome' heq e' task' he' hgarage hjob' => ?_
    cases heq
    obtain rfl := h.single e e' task task' job he he' hgarage.symm hjob hjob'
    obtain rfl := Option.some.inj (he.symm.trans he')
    exact hactivity
  | unwind => cases hunwinds
  | settle he hp hstage hjob hb => exact h.of_same (jobAt_setProcess_same hp rfl) rfl
  | panicked he hp hjob hb => exact h.of_same (jobAt_setProcess_same hp rfl) rfl

theorem Jobs.computing (h : c.Jobs) {e j : ℕ} {task : DispatchTask}
    {call : RunOneObserved HttpResponse} (he : c.tasks[e]? = some task)
    (hjob : task.stage.job? = some j) (hcall : c.jobAt task.garage j = some call)
    (hruns : call.runs = false) : task.activity = .computing := by
  by_contra hbusy
  obtain ⟨call', hcall', hruns'⟩ := h.busy e task he hbusy
  rw [job?, hjob, Option.bind_some, hcall] at hcall'
  cases hcall'
  rw [hruns] at hruns'
  cases hruns'

theorem Jobs.exists_lane (h : c.Jobs) {e : ℕ} {task : DispatchTask} (he : c.tasks[e]? = some task)
    (hbusy : task.activity ≠ .computing) :
    ∃ lane, (c.job? task).map RunOneObserved.standing = some (.onLane lane) := by
  obtain ⟨call, hcall, hruns⟩ := h.busy e task he hbusy
  obtain ⟨slot, timer, rfl⟩ := RunOneObserved.timer_of_runs hruns
  exact ⟨slot.lane, by rw [hcall]; rfl⟩

/-! ### What stays -/

/-- What a step does to the Garages and the schedulers. -/
theorem Change.processes (h : Change ids library sha256 c a d) : d.processes = c.processes ∨
    ∃ g p, c.processes[g]? = some p ∧
      ((∃ garage b, p.garage.step b = some garage ∧
        d.processes = c.processes.set g { p with garage }) ∨
      ∃ scheduler b, p.scheduler.step b = some scheduler ∧
        d.processes = c.processes.set g { p with scheduler } ∧
          (a.unwinds = false → b = .runOneObserved ∨ b.ofCall = true ∧ b.unwindsCall = false)) := by
  cases h with
  | arrive hp hb | garage hp _ _ _ hb | dispatch hp _ _ hb | missed _ hp _ _ _ hb
  | forward _ _ hp _ hb | settle _ hp _ _ hb | panicked _ hp _ hb =>
    exact .inr ⟨_, _, hp, .inl ⟨_, _, hb, rfl⟩⟩
  | scheduler hp hb hs =>
    obtain ⟨hof, hu, -⟩ := unwindsCall_of_isSchedulerStep hb
    exact .inr ⟨_, _, hp, .inr ⟨_, _, hs, rfl, fun _ => .inr ⟨hof, hu⟩⟩⟩
  | submit _ hp _ hs => exact .inr ⟨_, _, hp, .inr ⟨_, _, hs, rfl, fun _ => .inl rfl⟩⟩
  | finish _ hp _ _ hs => exact .inr ⟨_, _, hp, .inr ⟨_, _, hs, rfl, fun _ => .inr ⟨rfl, rfl⟩⟩⟩
  | unwind _ hp _ _ hs =>
    exact .inr ⟨_, _, hp, .inr ⟨_, _, hs, rfl, fun h => by cases h⟩⟩
  | _ => exact .inl rfl

theorem jobAt_eq_of_processes (h : d.processes = c.processes) (g job : ℕ) :
    d.jobAt g job = c.jobAt g job := by
  rw [jobAt, jobAt, h]

theorem Change.exists_job (h : Change ids library sha256 c a d) {g job : ℕ}
    {call : RunOneObserved HttpResponse} (hcall : c.jobAt g job = some call) :
    ∃ call', d.jobAt g job = some call' ∧ call'.executionId = call.executionId := by
  rcases h.processes with hsame | ⟨x, p, hp, ⟨garage, b, hb, hset⟩ | ⟨scheduler, b, hs, hset, -⟩⟩
  · exact ⟨call, by rw [jobAt_eq_of_processes hsame, hcall], rfl⟩
  · refine ⟨call, ?_, rfl⟩
    rw [jobAt_eq_of_processes (c := c.setProcess x { p with garage }) hset, jobAt_setGarage hp,
      hcall]
  · rw [jobAt_eq_of_processes (c := c.setProcess x { p with scheduler }) hset, jobAt_setProcess hp]
    split_ifs with hx
    · rw [hx, jobAt, hp, Option.bind_some] at hcall
      obtain ⟨call', hcall', hid, -⟩ := Scheduler.State.step_keeps hs hcall
      exact ⟨call', hcall', hid⟩
    · exact ⟨call, hcall, rfl⟩

/-- The tasks stay, each with its call of the scheduler. -/
theorem Change.exists_task (h : Change ids library sha256 c a d) {e job : ℕ} {task : DispatchTask}
    (he : c.tasks[e]? = some task) (hjob : task.stage.job? = some job) :
    ∃ task', d.tasks[e]? = some task' ∧ task'.garage = task.garage ∧
      task'.stage.job? = some job := by
  have hset {x : ℕ} {y y' : DispatchTask} {u : Cluster} (hu : u.tasks = c.tasks)
      (hx : c.tasks[x]? = some y) (hgarage : y'.garage = y.garage)
      (hkept : ∀ j, y.stage.job? = some j → y'.stage.job? = some j) :
      ∃ task', (u.setTask x y').tasks[e]? = some task' ∧ task'.garage = task.garage ∧
        task'.stage.job? = some job := by
    rw [getElem?_setTask (hu ▸ hx), hu]
    split_ifs with hxe
    · rw [hxe, hx] at he
      cases he
      exact ⟨y', rfl, hgarage, hkept job hjob⟩
    · exact ⟨task, he, rfl, hjob⟩
  cases h with
  | dispatch => exact ⟨task, getElem?_append_of_some he, rfl, hjob⟩
  | receive hx hp hstage => exact hset rfl hx rfl (by simp [hstage, TaskStage.job?])
  | found hx hp hstage => exact hset rfl hx rfl (by simp [hstage, TaskStage.job?])
  | missed hx hp hstage => exact hset rfl hx rfl (by simp [hstage, TaskStage.job?])
  | submit hx hp hstage => exact hset rfl hx rfl (by simp [hstage, TaskStage.job?])
  | nested hx => exact hset rfl hx rfl fun _ => id
  | forward hx => exact hset rfl hx rfl fun _ => id
  | reject hx => exact hset rfl hx rfl fun _ => id
  | answer hx => exact hset rfl hx rfl fun _ => id
  | _ => exact ⟨task, he, rfl, hjob⟩

/-- The books of the tasks, no call has unwound, and the Garages hand over only
what is prepared. -/
structure Sound (c : Cluster) : Prop where
  jobs : c.Jobs
  kept : ∀ g job call, c.jobAt g job = some call → call.standing ≠ .lost
  prepared : ∀ p ∈ c.processes, p.garage.Prepared

theorem Sound.step (h : c.Sound) (hstep : Change ids library sha256 c a d)
    (hunwinds : a.unwinds = false) : d.Sound where
  jobs := h.jobs.step hstep hunwinds
  kept g job call hcall := by
    rcases hstep.processes with
      hsame | ⟨x, p, hp, ⟨garage, b, hb, hset⟩ | ⟨scheduler, b, hs, hset, hb⟩⟩
    · exact h.kept g job call ((jobAt_eq_of_processes hsame g job).symm.trans hcall)
    · rw [jobAt_eq_of_processes (c := c.setProcess x { p with garage }) hset,
        jobAt_setGarage hp] at hcall
      exact h.kept g job call hcall
    · rw [jobAt_eq_of_processes (c := c.setProcess x { p with scheduler }) hset,
        jobAt_setProcess hp] at hcall
      have hold {call : RunOneObserved HttpResponse} {j : ℕ}
          (hj : p.scheduler.calls[j]? = some call) : call.standing ≠ .lost :=
        h.kept x j call (by rw [jobAt, hp, Option.bind_some, hj])
      split_ifs at hcall with hx
      · rcases hb hunwinds with rfl | ⟨hof, hu⟩
        · obtain rfl := Option.some.inj hs
          rcases getElem?_concat_eq_some hcall with hcall | ⟨-, rfl⟩
          · exact hold hcall
          · simp [RunOneObserved.standing]
        · cases Scheduler.State.step_shows hs hof hu with
          | nothing hstanding hlanes =>
            have hsame := congrArg (·[job]?) hstanding
            simp only [List.getElem?_map, hcall, Option.map_some] at hsame
            obtain ⟨call', hcall', heq⟩ := Option.map_eq_some_iff.mp hsame.symm
            rw [← heq]
            exact hold hcall'
          | assigned hj hfree hcalls hlanes | cleared hj hcalls hlanes =>
            rw [hcalls, getElem?_set_of_some hj] at hcall
            split_ifs at hcall with hx
            · cases hcall
              simp [RunOneObserved.standing]
            · exact hold hcall
      · exact h.kept g job call hcall
  prepared q hq := by
    rcases hstep.processes with
      hsame | ⟨x, p, hp, ⟨garage, b, hb, hset⟩ | ⟨scheduler, b, hs, hset, -⟩⟩
    · exact h.prepared q (hsame ▸ hq)
    · rcases List.mem_or_eq_of_mem_set (hset ▸ hq) with hq | rfl
      · exact h.prepared q hq
      · exact (h.prepared p (List.mem_of_getElem? hp)).step hb
    · rcases List.mem_or_eq_of_mem_set (hset ▸ hq) with hq | rfl
      · exact h.prepared q hq
      · exact h.prepared p (List.mem_of_getElem? hp)

end Cluster

end PitBox.Garage
