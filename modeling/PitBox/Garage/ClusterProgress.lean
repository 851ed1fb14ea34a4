import PitBox.Garage.ClusterRest
import PitBox.Garage.Progress

/-!
# A cluster comes to rest

Every thread of a cluster has a bounded number of steps before it: a request, its
dispatch task and the scheduler call of the task pass each point at most once, a
notification apart that another caller makes useless. Only guests may go on for
ever, with one nested call after the other. So the steps of a run are bounded by
the requests, the nested calls and the spurious wakeups in it.
-/

namespace PitBox.Garage

open PitBox.Runtime Table Transition
open PitBox.Scheduler (RunOneObserved)

/-- The steps before a task until it has queued. -/
def TaskStage.rank : TaskStage → ℕ
  | .spawned => 21
  | .received _ => 20
  | .found _ _ => 19
  | .submitted _ _ _ | .missed => 0

/-- The steps that a nested call makes room for, those of the request that PitLane
may forward with them. -/
def Activity.rank : Activity → ℕ
  | .computing => 0
  | .calling _ => 244
  | .forwarded _ _ => 1

def DispatchTask.rank (task : DispatchTask) : ℕ := task.stage.rank + task.activity.rank

/-- A step of a call of `execute` pays for a dispatch task. -/
def Process.rank (p : Process) : ℕ := 22 * p.garage.rank + p.scheduler.callRank

/-- The steps of the threads: all but new requests, the clock and spurious wakeups. -/
def ClusterAction.own : ClusterAction → Bool
  | .arrive _ _ => false
  | .scheduler _ b => b.advancesCall
  | _ => true

/-- The steps that a request, a nested call and a spurious wakeup make room for. -/
def ClusterAction.income : ClusterAction → ℕ
  | .arrive _ _ => 242
  | .nested _ _ _ => 245
  | .scheduler _ b => b.callSteps
  | _ => 0

namespace Cluster

variable {ids : GarageIds} {library : ServiceLibrary} {sha256 : Bytes → Sha256}
  {c d : Cluster} {a : ClusterAction}

def rank (c : Cluster) : ℕ :=
  total Process.rank c.processes + total DispatchTask.rank c.tasks

theorem rank_setProcess {g : ℕ} {p : Process} (hp : c.processes[g]? = some p) (p' : Process) :
    (c.setProcess g p').rank + p.rank = c.rank + p'.rank := by
  have htotal := total_set Process.rank (b := p') hp
  simp only [rank, setProcess]
  omega

theorem rank_setTask {e : ℕ} {task : DispatchTask} (he : c.tasks[e]? = some task)
    (task' : DispatchTask) : (c.setTask e task').rank + task.rank = c.rank + task'.rank := by
  have htotal := total_set DispatchTask.rank (b := task') he
  simp only [rank, setTask]
  omega

theorem rank_setGarage {g i : ℕ} {p : Process} {choice : Choice} {garage : State}
    (hp : c.processes[g]? = some p) (hb : p.garage.step (.call i choice) = some garage) :
    (c.setProcess g { p with garage }).rank + 22 ≤ c.rank := by
  have hset := rank_setProcess hp { p with garage }
  have hrank := State.step_rank hb
  simp only [Process.rank, Action.isCall, Action.callSteps, Bool.toNat_true] at hset hrank
  omega

theorem rank_setGarage_arrive {g : ℕ} {p : Process} {request : RemoteExecutionRequest}
    {garage : State} (hp : c.processes[g]? = some p)
    (hb : p.garage.step (.arrive request) = some garage) :
    (c.setProcess g { p with garage }).rank ≤ c.rank + 242 := by
  have hset := rank_setProcess hp { p with garage }
  have hrank := State.step_rank hb
  simp only [Process.rank, Action.isCall, Action.callSteps, Bool.toNat_false] at hset hrank
  omega

theorem rank_setScheduler {g : ℕ} {p : Process} {b : Scheduler.Action HttpResponse}
    {scheduler : Scheduler.State HttpResponse} (hp : c.processes[g]? = some p)
    (hs : p.scheduler.step b = some scheduler) :
    (c.setProcess g { p with scheduler }).rank + b.advancesCall.toNat ≤ c.rank + b.callSteps := by
  have hset := rank_setProcess hp { p with scheduler }
  have hrank := Scheduler.State.step_callRank hs
  simp only [Process.rank] at hset
  omega

theorem step_rank (h : c.step ids library sha256 a = some d) :
    d.rank + a.own.toNat ≤ c.rank + a.income := by
  cases step_change h with
  | arrive hp hb =>
    have hgarage := rank_setGarage_arrive hp hb
    simpa [ClusterAction.own, ClusterAction.income] using hgarage
  | garage hp hcall hwarm hends hb =>
    have hgarage := rank_setGarage hp hb
    simp only [ClusterAction.own, ClusterAction.income, Bool.toNat_true]
    omega
  | @dispatch g i payload p call garage hp hcall hwarm hb =>
    have hgarage := rank_setGarage hp hb
    simp only [rank, setProcess, total_append, total_cons, total_nil, DispatchTask.rank,
      TaskStage.rank, Activity.rank, ClusterAction.own, ClusterAction.income,
      Bool.toNat_true] at hgarage ⊢
    omega
  | scheduler hp hb hs => exact rank_setScheduler hp hs
  | @receive e task p he hp hstage =>
    have htask := rank_setTask he { task with stage := .received p.scheduler.now }
    simp only [DispatchTask.rank, hstage, TaskStage.rank] at htask
    simp only [ClusterAction.own, ClusterAction.income, Bool.toNat_true]
    omega
  | @found e task p at₀ he hp hstage =>
    have htask := rank_setTask he { task with stage := .found at₀ (p.scheduler.now - at₀) }
    simp only [DispatchTask.rank, hstage, TaskStage.rank] at htask
    simp only [ClusterAction.own, ClusterAction.income, Bool.toNat_true]
    omega
  | @missed e task p call garage at₀ outcome he hp hstage hcall hmissing hb =>
    have hgarage := rank_setGarage hp hb
    have htask := rank_setTask (c := c.setProcess task.garage { p with garage }) he
      { task with stage := .missed }
    simp only [DispatchTask.rank, hstage, TaskStage.rank] at htask
    simp only [ClusterAction.own, ClusterAction.income, Bool.toNat_true]
    omega
  | @submit e task p at₀ lookup guestDelay scheduler he hp hstage hs =>
    have hscheduler := rank_setScheduler hp hs
    have htask := rank_setTask (c := c.setProcess task.garage { p with scheduler }) he
      { task with stage := .submitted at₀ ⟨lookup, guestDelay⟩ p.scheduler.calls.length }
    simp only [DispatchTask.rank, hstage, TaskStage.rank] at htask
    simp only [Scheduler.Action.advancesCall, Scheduler.Action.callSteps,
      Bool.toNat_false] at hscheduler
    simp only [ClusterAction.own, ClusterAction.income, Bool.toNat_true]
    omega
  | @nested e nestedCall requestId task p slot timer call logical he hp hactivity =>
    have htask := rank_setTask he { task with activity := .calling logical }
    simp only [DispatchTask.rank, hactivity, Activity.rank] at htask
    simp only [ClusterAction.own, ClusterAction.income, Bool.toNat_true]
    omega
  | @forward e g request task q logical garage he hactivity hq hforward hb =>
    have hgarage := rank_setGarage_arrive hq hb
    have htask := rank_setTask (c := c.setProcess g { q with garage }) he
      { task with activity := .forwarded g q.garage.calls.length }
    simp only [DispatchTask.rank, hactivity, Activity.rank] at htask
    simp only [ClusterAction.own, ClusterAction.income, Bool.toNat_true]
    omega
  | @reject e task logical he hactivity =>
    have htask := rank_setTask he { task with activity := .computing }
    simp only [DispatchTask.rank, hactivity, Activity.rank] at htask
    simp only [ClusterAction.own, ClusterAction.income, Bool.toNat_true]
    omega
  | @answer e g i task call he hactivity =>
    have htask := rank_setTask he { task with activity := .computing }
    simp only [DispatchTask.rank, hactivity, Activity.rank] at htask
    simp only [ClusterAction.own, ClusterAction.income, Bool.toNat_true]
    omega
  | finish he hp hactivity hjob hs => exact rank_setScheduler hp hs
  | unwind he hp hactivity hjob hs => exact rank_setScheduler hp hs
  | settle he hp hstage hjob hb =>
    have hgarage := rank_setGarage hp hb
    simp only [ClusterAction.own, ClusterAction.income, Bool.toNat_true]
    omega
  | panicked he hp hjob hb =>
    have hgarage := rank_setGarage hp hb
    simp only [ClusterAction.own, ClusterAction.income, Bool.toNat_true]
    omega

theorem rank_fresh (garages : List (GarageAgent × UInt64)) (maxInvocationDepth : ℕ)
    (now : Scheduler.Instant) : (fresh garages maxInvocationDepth now).rank = 0 := by
  have hprocesses : total Process.rank (fresh garages maxInvocationDepth now).processes = 0 := by
    refine total_eq_zero.mpr fun p hp => ?_
    obtain ⟨q, -, rfl⟩ := List.mem_map.mp hp
    rfl
  rw [rank, hprocesses]
  rfl

/-- In every run of Garages on their schedulers, whatever unwinds and whoever goes
away, the threads take at most 242 steps for each request of a client, 245 for
each nested call and two for each spurious wakeup. So a run that goes on for ever
has guests that make nested calls for ever, clients that send requests for ever,
or spurious wakeups for ever. -/
theorem exec_ownSteps {garages : List (GarageAgent × UInt64)} {maxInvocationDepth : ℕ}
    {now : Scheduler.Instant} {as : List ClusterAction}
    (h : exec ids library sha256 (fresh garages maxInvocationDepth now) as = some c) :
    tally ClusterAction.own as ≤ (as.map ClusterAction.income).sum := by
  have hbudget := exec_budget (f := rank) (w := fun a : ClusterAction => a.own.toNat)
    (fun _ => True) (fun _ _ _ _ _ => trivial) (fun _ _ _ _ => step_rank) trivial h
  rw [rank_fresh, Nat.zero_add] at hbudget
  exact le_trans (Nat.le_add_left _ _) hbudget

theorem exec_ownSteps_crossedCalls :
    ∃ c, exec GuestExecution.plainIds GuestExecution.plainLibrary GuestExecution.plainSha256
        (fresh twoGarages 16 0) crossedCalls = some c ∧
      tally ClusterAction.own crossedCalls ≤ (crossedCalls.map ClusterAction.income).sum := by
  have hrun : (exec GuestExecution.plainIds GuestExecution.plainLibrary GuestExecution.plainSha256
      (fresh twoGarages 16 0) crossedCalls).isSome = true := by
    decide +kernel
  obtain ⟨c, hc⟩ := Option.isSome_iff_exists.mp hrun
  exact ⟨c, hc, exec_ownSteps hc⟩

end Cluster

end PitBox.Garage
