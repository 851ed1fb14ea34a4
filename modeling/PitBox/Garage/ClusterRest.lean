import PitBox.Garage.ClusterRefinement
import PitBox.Garage.Entanglement

/-!
# What is left of a cluster at rest

Where no thread of any Garage or scheduler can move on its own, no guest of the
fleet can either. So the waiting that remains is that of the fleet: on lanes
held by guests that wait for lanes themselves. The condition variables of the
schedulers add nothing to it, because a call sleeps only while all slots are
taken.
-/

namespace PitBox.Garage

open PitBox.Runtime Table Transition
open PitBox.Scheduler (LaneId RunOneObserved Standing)

namespace GuestStage

variable {activity : Activity} {standing : Option (Standing HttpResponse)}

theorem activity_of_running {lane : ℕ} (h : ofStanding activity standing = .running lane) :
    activity = .computing := by
  revert h
  fun_cases ofStanding activity standing <;> intro h <;> cases h
  rfl

theorem activity_of_calling {lane : ℕ} {logical : LogicalInvocationRequest}
    (h : ofStanding activity standing = .calling lane logical) : activity = .calling logical := by
  revert h
  fun_cases ofStanding activity standing <;> intro h <;> cases h
  rfl

theorem activity_of_forwarded {lane g i : ℕ}
    (h : ofStanding activity standing = .forwarded lane g i) : activity = .forwarded g i := by
  revert h
  fun_cases ofStanding activity standing <;> intro h <;> cases h
  rfl

theorem ofStanding_onLane (activity : Activity) (lane : ℕ) :
    (ofStanding activity (some (.onLane lane))).lane? = some lane := by
  cases activity <;> rfl

end GuestStage

/-- The steps of a cluster that are not made by new requests, departing clients,
the clock, spurious wakeups or panics. -/
def ClusterAction.advances : ClusterAction → Bool
  | .arrive _ _ | .unwind _ => false
  | .garage _ _ choice => !choice.isDrop
  | .scheduler _ b => b.advancesJob
  | _ => true

namespace Cluster

variable {ids : GarageIds} {library : ServiceLibrary} {sha256 : Bytes → Sha256}
  {c d : Cluster} {a : ClusterAction} {names : ℕ → String} {s t : Fleet}

variable (ids library sha256) in
/-- Some thread can move. -/
def Ready (c : Cluster) : Prop :=
  ∃ a : ClusterAction, a.advances = true ∧ (c.step ids library sha256 a).isSome = true

/-- Every request was answered, every task has ended and every lane is free. -/
structure Quiet (c : Cluster) : Prop where
  calls : ∀ p ∈ c.processes, ∀ call ∈ p.garage.calls,
    call.stage.isOver = true ∧ call.registers = false ∧ call.dispatches = false
  jobs : ∀ p ∈ c.processes, ∀ call ∈ p.scheduler.calls,
    ∃ slot result, call = RunOneObserved.returned slot result
  lanes : ∀ p ∈ c.processes, ∀ slot ∈ p.scheduler.scheduler.sharedLanes, slot = none

/-! ### Where nothing can move -/

section AtRest

variable (hready : ¬ c.Ready ids library sha256)

include hready

theorem not_jobReady {g : ℕ} {p : Process} (hp : c.processes[g]? = some p) :
    ¬ p.scheduler.JobReady := by
  rintro ⟨b, hb, hstep⟩
  have hscheduler : isSchedulerStep b = true := by
    revert hb
    fun_cases Scheduler.Action.advancesJob b <;> simp [isSchedulerStep]
  refine hready ⟨.scheduler g b, hb, ?_⟩
  simpa [step, hscheduler, stepScheduler, hp] using hstep

theorem Served.resting (h : c.Served) {g job : ℕ} {call : RunOneObserved HttpResponse}
    (hcall : c.jobAt g job = some call) :
    call.isOver = true ∨ call.asleep = true ∨ call.runs = true := by
  obtain ⟨p, hp, hj⟩ := jobAt_eq_some.mp hcall
  obtain ⟨n, now, hreach⟩ := h.reachable p (List.mem_of_getElem? hp)
  exact (hreach.bookkeeping.all_resting (not_jobReady hready hp)).2 call (List.mem_of_getElem? hj)

/-- Every task has queued with its scheduler. -/
theorem Served.submitted (h : c.Served) (hsim : Simulates names c s) (hbooks : s.Books)
    (hc : c.Sound) {e : ℕ} {task : DispatchTask} (he : c.tasks[e]? = some task) :
    ∃ at₀ clocks job call, task.stage = .submitted at₀ clocks job ∧
      c.jobAt task.garage job = some call := by
  obtain ⟨blocking, hblocking, -, -⟩ := hbooks.tasksAgree.handed e _ (hsim.guest_eq he)
  obtain ⟨call', hcall', -⟩ := Option.map_eq_some_iff.mp hblocking
  obtain ⟨node, hnode, hi⟩ := Fleet.call?_eq_some.mp hcall'
  obtain ⟨p, hp, hsim'⟩ := exists_related' hsim.nodes hnode
  obtain ⟨r, hr, -⟩ := exists_related' hsim'.garage.calls hi
  have hp : c.processes[task.garage]? = some p := hp
  have hr : p.garage.calls[task.call]? = some r := hr
  cases hstage : task.stage with
  | spawned =>
    exact (hready ⟨.receive e, rfl, by
      simp [Cluster.step, ClusterAction.task?, he, hp, stepTask, hstage]⟩).elim
  | received at₀ =>
    have hmem := hsim.mem_prepared hbooks he hp (hc.prepared _ (List.mem_of_getElem? hp)) hr
    exact (hready ⟨.lookUp e, rfl, by
      simp [Cluster.step, ClusterAction.task?, he, hp, stepTask, hstage, hr, hmem]⟩).elim
  | found at₀ lookup =>
    exact (hready ⟨.submit e 0, rfl, by
      simp [Cluster.step, ClusterAction.task?, he, hp, stepTask, hstage, stepScheduler,
        Scheduler.State.step]⟩).elim
  | submitted at₀ clocks job =>
    obtain ⟨call, hcall⟩ := Option.isSome_iff_exists.mp
      (hc.jobs.known e task job he (by rw [hstage]; rfl))
    exact ⟨at₀, clocks, job, call, rfl, hcall⟩
  | missed => exact absurd hstage (h.found task (List.mem_of_getElem? he))

/-- A guest that has finished has given its lane back, and its call returned. -/
theorem Served.returned (h : c.Served) (hc : c.Sound) {name : String} {g job : ℕ}
    {task : DispatchTask} {call : RunOneObserved HttpResponse} (hgarage : task.garage = g)
    (hjob : task.stage.job? = some job) (hcall : c.jobAt g job = some call)
    (hfinished : (c.guest name task).stage = .finished) :
    ∃ slot result, call = .returned slot result := by
  subst hgarage
  rw [guest_stage_of_jobAt hjob hcall] at hfinished
  have hkept := hc.kept _ _ _ hcall
  have hrest := h.resting hready hcall
  cases call with
  | waiting k stage => cases hfinished
  | owning k stage =>
    have hlane := GuestStage.ofStanding_onLane task.activity k.lane
    rw [RunOneObserved.standing] at hfinished
    rw [hfinished] at hlane
    cases hlane
  | releasing k r stage =>
    rcases hrest with hover | hasleep | hruns
    · cases hover
    · cases stage <;> cases hasleep
    · cases hruns
  | returned k r => exact ⟨k, r, rfl⟩
  | unwound k counted => exact absurd rfl hkept

/-- Every Garage has been told of the tasks that have ended. -/
theorem Served.told (h : c.Served) (hsim : Simulates names c s) (hbooks : s.Books)
    (hc : c.Sound) {g i : ℕ} {p : Process} {node : Node} {r r' : Execute}
    (hp : c.processes[g]? = some p) (hnode : s.nodes[g]? = some node)
    (hr : p.garage.calls[i]? = some r) (hr' : node.garage.calls[i]? = some r')
    (hahead : r.Ahead r') : r' = r := by
  obtain rfl | ⟨hruns, outcome, rfl⟩ := hahead
  · rfl
  · have htask : s.task? g i = some (.finished outcome) := by
      rw [Fleet.task?, Fleet.call?, hnode, Option.bind_some, hr', Option.map_some]
    obtain ⟨e, guest, he, rfl, rfl⟩ := hbooks.tasksAgree.served g i _ htask rfl
    obtain ⟨blocking, hblocking, -, hfinished⟩ := hbooks.tasksAgree.handed e guest he
    obtain rfl := Option.some.inj (htask.symm.trans hblocking)
    have hstage : guest.stage = .finished := by
      by_contra hlive
      cases hfinished.mpr hlive
    rw [hsim.guests] at he
    obtain ⟨task, htask', rfl⟩ := Option.map_eq_some_iff.mp he
    obtain ⟨at₀, clocks, job, call, hsubmitted, hcall⟩ := h.submitted hready hsim hbooks hc htask'
    have hjob : task.stage.job? = some job := by
      rw [hsubmitted]
      rfl
    obtain ⟨slot, result, rfl⟩ := h.returned hready hc rfl hjob hcall hstage
    have hreturned : c.job? task = some (.returned slot result) := by
      rw [job?, hjob, Option.bind_some, hcall]
    have hp : c.processes[task.garage]? = some p := hp
    have hr : p.garage.calls[task.call]? = some r := hr
    refine (hready ⟨.settle e, rfl, ?_⟩).elim
    simp [Cluster.step, ClusterAction.task?, htask', hp, stepTask, hsubmitted, hreturned, endTask,
      stepGarage, State.step, hr, Execute.step_of_dispatches _ hruns]

/-- A guest that is on its lane and makes no nested call could return. -/
theorem Served.stage_ne_running (h : c.Served) (hsim : Simulates names c s) (hbooks : s.Books)
    (hc : c.Sound) {e lane : ℕ} {task : DispatchTask} (he : c.tasks[e]? = some task) :
    (c.guest (names e) task).stage ≠ .running lane := by
  intro hstage
  obtain ⟨at₀, clocks, job, call, hsubmitted, hcall⟩ := h.submitted hready hsim hbooks hc he
  rw [guest_stage_of_jobAt (by rw [hsubmitted]; rfl) hcall] at hstage
  have hrest := h.resting hready hcall
  obtain ⟨p, hp, hj⟩ := jobAt_eq_some.mp hcall
  cases call with
  | owning k stage =>
    rcases hrest with hover | hasleep | hruns
    · cases hover
    · cases hasleep
    · obtain ⟨slot, timer, heq⟩ := RunOneObserved.timer_of_runs hruns
      cases heq
      have hactivity := GuestStage.activity_of_running hstage
      refine hready ⟨.finish e (.error ""), rfl, ?_⟩
      simp [Cluster.step, ClusterAction.task?, he, hp, stepTask, hactivity, hsubmitted,
        stepScheduler, Scheduler.State.step, hj, RunOneObserved.step]
  | _ => cases hstage

/-- A guest waits only while no lane is free. -/
theorem Served.full (h : c.Served) (hsim : Simulates names c s) (hbooks : s.Books)
    (hc : c.Sound) {e : ℕ} {task : DispatchTask} {node : Node} (he : c.tasks[e]? = some task)
    (hwaiting : (c.guest (names e) task).stage = .waiting)
    (hnode : s.nodes[task.garage]? = some node) :
    node.sharedLanes.findIdx? Option.isNone = none := by
  obtain ⟨at₀, clocks, job, call, hsubmitted, hcall⟩ := h.submitted hready hsim hbooks hc he
  rw [guest_stage_of_jobAt (by rw [hsubmitted]; rfl) hcall] at hwaiting
  have hrest := h.resting hready hcall
  obtain ⟨p, hp, hj⟩ := jobAt_eq_some.mp hcall
  obtain ⟨node', hnode', hsim'⟩ := exists_related hsim.nodes hp
  obtain rfl := Option.some.inj (hnode.symm.trans hnode')
  have hasleep : call.asleep = true := by
    cases call with
    | waiting k stage =>
      rcases hrest with hover | hasleep | hruns
      · cases hover
      · exact hasleep
      · cases hruns
    | owning k stage =>
      have hlane := GuestStage.ofStanding_onLane task.activity k.lane
      rw [RunOneObserved.standing] at hwaiting
      rw [hwaiting] at hlane
      cases hlane
    | _ => cases hwaiting
  obtain ⟨n, now, hreach⟩ := h.reachable p (List.mem_of_getElem? hp)
  rw [findIdx?_eq_of_map hsim'.sharedLanes]
  exact Scheduler.PitScheduler.freeLane_none.mpr
    (hreach.full_of_resting (not_jobReady hready hp) ⟨call, List.mem_of_getElem? hj, hasleep⟩)

/-- Where no thread can move, no guest can. -/
theorem Served.not_ready (h : c.Served) (hsim : Simulates names c s) (hbooks : s.Books)
    (hc : c.Sound) : ¬ s.Ready ids library sha256 := by
  rintro ⟨a, ha, hstep⟩
  obtain ⟨t, ht⟩ := Option.isSome_iff_exists.mp hstep
  have htask {e : ℕ} {guest : Guest} (he : s.guests[e]? = some guest) :
      ∃ task, c.tasks[e]? = some task ∧ c.guest (names e) task = guest := by
    rw [hsim.guests] at he
    exact Option.map_eq_some_iff.mp he
  have hcall {g i : ℕ} {node : Node} {r' : Execute} (hnode : s.nodes[g]? = some node)
      (hr' : node.garage.calls[i]? = some r') : ∃ p, c.processes[g]? = some p ∧
        p.garage.agent = node.garage.agent ∧ p.garage.calls[i]? = some r' := by
    obtain ⟨p, hp, hsim'⟩ := exists_related' hsim.nodes hnode
    obtain ⟨r, hr, hahead⟩ := exists_related' hsim'.garage.calls hr'
    obtain rfl := h.told hready hsim hbooks hc hp hnode hr hr' hahead
    exact ⟨p, hp, hsim'.garage.agent.symm, hr⟩
  have hprocess {e : ℕ} {task : DispatchTask} (he : c.tasks[e]? = some task) :
      ∃ p, c.processes[task.garage]? = some p := by
    obtain ⟨-, -, job, call, -, hcall⟩ := h.submitted hready hsim hbooks hc he
    obtain ⟨p, hp, -⟩ := jobAt_eq_some.mp hcall
    exact ⟨p, hp⟩
  have hcomputing {e lane : ℕ} {guest : Guest} (he : s.guests[e]? = some guest) :
      guest.stage ≠ .running lane := by
    obtain ⟨task, he', rfl⟩ := htask he
    exact h.stage_ne_running hready hsim hbooks hc he'
  have hcalling {e lane : ℕ} {guest : Guest} {logical : LogicalInvocationRequest}
      (he : s.guests[e]? = some guest) : guest.stage ≠ .calling lane logical := by
    intro hstage
    obtain ⟨task, he', rfl⟩ := htask he
    obtain ⟨p, hp⟩ := hprocess he'
    refine hready ⟨.reject e, rfl, ?_⟩
    have hactivity := GuestStage.activity_of_calling hstage
    simp [Cluster.step, ClusterAction.task?, he', hp, stepTask, hactivity]
  cases Fleet.step_change ht with
  | arrive => cases ha
  | @garage g i choice node call garage hnode hi hwarm hends hb =>
    obtain ⟨p, hp, hagent, hr⟩ := hcall hnode hi
    refine hready ⟨.garage g i choice, ha, ?_⟩
    cases State.step_cases hb with
    | @call _ _ r g' r' hj hr' =>
      obtain rfl := Option.some.inj (hi.symm.trans hj)
      rw [← hagent] at hr'
      simp [Cluster.step, call?, hp, hr, hwarm, hends, stepGarage, State.step, hr']
  | @dispatch g i payload id node call garage hnode hi hwarm hb =>
    obtain ⟨p, hp, hagent, hr⟩ := hcall hnode hi
    refine hready ⟨.dispatch g i payload, rfl, ?_⟩
    cases State.step_cases hb with
    | @call _ _ r g' r' hj hr' =>
      obtain rfl := Option.some.inj (hi.symm.trans hj)
      rw [← hagent] at hr'
      simp [Cluster.step, call?, hp, hr, hwarm, stepGarage, State.step, hr']
  | @assign e guest node lane he hstage hnode hlane =>
    obtain ⟨task, he', rfl⟩ := htask he
    cases (h.full hready hsim hbooks hc he' hstage hnode).symm.trans hlane
  | nested he hstage | finish he hstage => exact hcomputing he hstage
  | forward he hstage | reject he hstage => exact hcalling he hstage
  | @answer e guest lane g i call he hstage hi hover =>
    obtain ⟨task, he', rfl⟩ := htask he
    obtain ⟨node, hnode, hi⟩ := Fleet.call?_eq_some.mp hi
    obtain ⟨q, hq, -, hr⟩ := hcall hnode hi
    obtain ⟨p, hp⟩ := hprocess he'
    have hactivity := GuestStage.activity_of_forwarded hstage
    refine hready ⟨.answer e, rfl, ?_⟩
    simp [Cluster.step, ClusterAction.task?, he', hp, stepTask, hactivity, call?, hq, hr, hover]

/-- Everything is given back where the fleet is quiet. -/
theorem Served.quiet (h : c.Served) (hsim : Simulates names c s) (hbooks : s.Books)
    (hc : c.Sound) (hquiet : s.Quiet) : c.Quiet where
  calls p hp call hcall := by
    obtain ⟨g, hg⟩ := List.mem_iff_getElem?.mp hp
    obtain ⟨i, hi⟩ := List.mem_iff_getElem?.mp hcall
    obtain ⟨node, hnode, hsim'⟩ := exists_related hsim.nodes hg
    obtain ⟨r', hr', hahead⟩ := exists_related hsim'.garage.calls hi
    obtain rfl := h.told hready hsim hbooks hc hg hnode hi hr' hahead
    exact hquiet.calls node (List.mem_of_getElem? hnode) _ (List.mem_of_getElem? hr')
  jobs p hp call hcall := by
    obtain ⟨g, hg⟩ := List.mem_iff_getElem?.mp hp
    obtain ⟨job, hj⟩ := List.mem_iff_getElem?.mp hcall
    have hat : c.jobAt g job = some call := by
      rw [jobAt, hg, Option.bind_some, hj]
    obtain ⟨e, task, he, hgarage, hjob⟩ := hc.jobs.served g job (by rw [hat]; rfl)
    exact h.returned hready hc hgarage hjob hat
      (hquiet.guests _ (List.mem_of_getElem? (hsim.guest_eq he)))
  lanes p hp slot hslot := by
    obtain ⟨g, hg⟩ := List.mem_iff_getElem?.mp hp
    obtain ⟨node, hnode, hsim'⟩ := exists_related hsim.nodes hg
    have hmem := List.mem_map_of_mem (f := Option.isNone) hslot
    rw [← hsim'.sharedLanes] at hmem
    obtain ⟨holder, hholder, hsame⟩ := List.mem_map.mp hmem
    rw [hquiet.lanes node (List.mem_of_getElem? hnode) holder hholder] at hsame
    exact Option.isNone_iff_eq_none.mp hsame.symm

end AtRest

/-- No thread can move, as one sees it on the calls and the tasks. -/
def halted (c : Cluster) : Bool :=
  (c.processes.all fun p =>
    (p.garage.calls.all fun call => (call.stage.isOver || call.parked) && !call.registers) &&
    p.scheduler.calls.all fun call => call.isOver || call.asleep || call.runs) &&
  c.tasks.all fun task =>
    match c.job? task, task.activity with
    | some (.waiting _ _), .computing => true
    | some (.returned _ _), .computing =>
      (c.call? task.garage task.call).all fun call => !call.dispatches
    | some (.owning _ _), .forwarded g i => (c.call? g i).all fun call => !call.stage.isOver
    | _, _ => false

theorem not_ready_of_halted (h : c.halted = true) : ¬ c.Ready ids library sha256 := by
  rw [halted, Bool.and_eq_true, List.all_eq_true, List.all_eq_true] at h
  obtain ⟨hprocesses, htasks⟩ := h
  have hcall {g i : ℕ} {p : Process} {call : Execute} (hp : c.processes[g]? = some p)
      (hi : p.garage.calls[i]? = some call) :
      (call.stage.isOver || call.parked) = true ∧ call.registers = false := by
    have hall := (Bool.and_eq_true _ _ ▸ hprocesses p (List.mem_of_getElem? hp)).1
    simpa using List.all_eq_true.mp hall call (List.mem_of_getElem? hi)
  have hjobs {g : ℕ} {p : Process} (hp : c.processes[g]? = some p) :
      ∀ call ∈ p.scheduler.calls, (call.isOver || call.asleep || call.runs) = true :=
    List.all_eq_true.mp (Bool.and_eq_true _ _ ▸ hprocesses p (List.mem_of_getElem? hp)).2
  have htask {e : ℕ} {task : DispatchTask} (he : c.tasks[e]? = some task) :=
    htasks task (List.mem_of_getElem? he)
  have hjobless {e : ℕ} {task : DispatchTask} (he : c.tasks[e]? = some task) :
      task.stage.job? ≠ none := by
    intro hnone
    have hidle := htask he
    simp [job?, hnone] at hidle
  have hcalling {e : ℕ} {task : DispatchTask} {logical : LogicalInvocationRequest}
      (he : c.tasks[e]? = some task) : task.activity ≠ .calling logical := by
    intro hactivity
    have hidle := htask he
    cases hjob : c.job? task with
    | none => simp [hjob] at hidle
    | some r => cases r <;> simp [hjob, hactivity] at hidle
  rintro ⟨a, hadvances, hstep⟩
  obtain ⟨d, hd⟩ := Option.isSome_iff_exists.mp hstep
  cases step_change hd with
  | arrive => cases hadvances
  | @garage g i choice p call garage hp hi hwarm hends hb =>
    obtain ⟨hover, hregisters⟩ := hcall hp hi
    have halone : choice.alone = true := by
      rw [Choice.alone, hends, Bool.and_eq_true]
      exact ⟨hadvances, rfl⟩
    cases State.step_cases hb with
    | call hj hr =>
      obtain rfl := Option.some.inj (hi.symm.trans hj)
      rw [Execute.step_eq_none_of_halted hover hregisters halone] at hr
      cases hr
  | @dispatch g i payload p call garage hp hi hwarm hb =>
    obtain ⟨hover, -⟩ := hcall hp hi
    revert hover hwarm
    unfold Execute.parked
    cases call.stage <;> simp [ExecuteStage.isWarm, ExecuteStage.isOver]
  | @scheduler g b p scheduler hp hb hs =>
    have hrest := hjobs hp
    have hjob : b.advancesJob = true := hadvances
    cases Scheduler.State.step_cases hs with
    | @call i e r p' r' hi hr =>
      have hne : e ≠ .spurious := by
        rintro rfl
        cases hjob
      obtain ⟨hover, hasleep⟩ := RunOneObserved.live_of_step hne hr
      have hruns : r.runs = true := by
        simpa [hover, hasleep] using hrest r (List.mem_of_getElem? hi)
      rcases RunOneObserved.step_runs hr hruns with hu | ⟨outcome, rfl⟩
      · revert hu hjob
        cases e <;> simp [Scheduler.Choice.unwinds, Scheduler.Action.advancesJob]
      · cases hjob
    | notifyNobody hi hnone =>
      cases hrest _ (List.mem_of_getElem? hi)
    | notify hij hi hj hj' => cases hrest _ (List.mem_of_getElem? hi)
    | _ => cases hjob
  | receive he hp hstage => exact hjobless he (by rw [hstage]; rfl)
  | found he hp hstage => exact hjobless he (by rw [hstage]; rfl)
  | missed he hp hstage => exact hjobless he (by rw [hstage]; rfl)
  | submit he hp hstage => exact hjobless he (by rw [hstage]; rfl)
  | nested he hp hactivity hjob =>
    have hidle := htask he
    simp [hactivity, hjob] at hidle
  | forward he hactivity => exact hcalling he hactivity
  | reject he hactivity => exact hcalling he hactivity
  | @answer e g i task call he hactivity hi hover =>
    have hidle := htask he
    cases hjob : c.job? task with
    | none => simp [hjob] at hidle
    | some r => cases r <;> simp [hjob, hactivity, hi, hover] at hidle
  | @finish e job outcome task p scheduler he hp hactivity hjob hs =>
    have hidle := htask he
    cases Scheduler.State.step_cases hs with
    | call hi hr =>
      obtain ⟨slot, timer, rfl⟩ := RunOneObserved.timer_of_runs (RunOneObserved.runs_of_finish hr)
      have hrunning : c.job? task = some (.owning slot (.running timer)) :=
        job?_eq_some.mpr ⟨job, hjob, jobAt_eq_some.mpr ⟨p, hp, hi⟩⟩
      simp [hactivity, hrunning] at hidle
  | unwind => cases hadvances
  | @settle e job task p at₀ clocks slot scheduled garage he hp hstage hjob hb =>
    have hidle := htask he
    cases State.step_cases hb with
    | call hi hr =>
      have hruns := (Execute.step_dispatchEnds hr rfl).1
      have hcall : c.call? task.garage task.call = some _ := call?_eq_some.mpr ⟨p, hp, hi⟩
      simp only [hjob, hcall] at hidle
      cases hactivity : task.activity <;>
        simp [hactivity, Execute.dispatches, hruns, BlockingTask.isRunning] at hidle
  | panicked he hp hjob hb =>
    have hidle := htask he
    simp [hjob] at hidle

section Demo

/-- A task of Garage `g` queues with its scheduler. -/
def queue (e : ℕ) : List ClusterAction := [.receive e, .lookUp e, .submit e 0]

/-- The first call of a Garage, up to its guest on the lane, which then calls a
service that PitLane finds on Garage `g'`. -/
def callsOver (g g' : ℕ) (id : GarageId) : List ClusterAction :=
  List.replicate 5 (.garage g 0 .go) ++
    [.garage g 0 (.opened (.ok ())),
      .garage g 0 (.registrationEnds (.ok (.ok ⟨.cold, .coldCompiled⟩))), .garage g 0 .go,
      .dispatch g 0 Fleet.emptyPayload] ++ queue g ++
    List.replicate 8 (.scheduler g (.call 0 .go)) ++
    [.scheduler g (.call 0 (.start 0)),
      .nested g (.sendRequest ⟨some "svc", none, "GET", [], .ok []⟩) "1",
      .forward g g' { State.requestFor "sha256:a" with
        invocationDepth := 1, visitedGarages := [id] }]

/-- The call that was forwarded to a Garage queues for its lane as task `e`. -/
def sleeps (g e : ℕ) : List ClusterAction :=
  List.replicate 3 (.garage g 1 .go) ++ [.dispatch g 1 Fleet.emptyPayload] ++ queue e ++
    List.replicate 3 (.scheduler g (.call 1 .go))

def crossedCalls : List ClusterAction :=
  [.arrive 0 (State.requestFor "sha256:a"), .arrive 1 (State.requestFor "sha256:a")] ++
    callsOver 0 1 "garage-1" ++ callsOver 1 0 "garage-2" ++ sleeps 1 2 ++ sleeps 0 3

end Demo

end Cluster

end PitBox.Garage
