import PitBox.Scheduler.Makespan
import PitBox.Scheduler.Utilization

/-!
# What the busy counter counts

Calls and workers add to one counter from many threads. Every execution that
has ended adds its duration, clamped to 64 bits, once, and nothing else is
added; executions that unwind add nothing. So in every state the counter is
the sum of the durations in the reports made so far, modulo `2^64`.
-/

namespace PitBox.Scheduler

open Table Ledger

variable {T : Type}

def PitScheduler.busyTime (p : PitScheduler) : Duration := p.busyNanos.toNat

def ExecutionResult.busyNanos (r : ExecutionResult T) : ℕ :=
  min r.report.duration (2 ^ 64 - 1)

def Counts (word : UInt64) (k : ℕ) (word' : UInt64) (k' : ℕ) : Prop :=
  ∃ d, word' = word + UInt64.ofNat d ∧ k' = k + d

theorem Counts.of_eq {word word' : UInt64} {k k' : ℕ} (hword : word' = word) (hk : k' = k) :
    Counts word k word' k' := ⟨0, by rw [hword]; exact (UInt64.add_zero _).symm, hk⟩

namespace RunOneObserved

/-- What a call has added to the busy counter. -/
def busyNanos : RunOneObserved T → ℕ
  | .owning _ (.reported r) | .owning _ (.relocked r) => r.busyNanos
  | .releasing _ r _ | .returned _ r => r.busyNanos
  | _ => 0

theorem step_counts {now : Instant} {p p' : PitScheduler} {e : Choice T}
    {c c' : RunOneObserved T} (h : c.step now p e = some (p', c')) :
    Counts p.busyNanos c.busyNanos p'.busyNanos c'.busyNanos := by
  revert h
  fun_cases step now p c e <;> intro h <;> cases h
  all_goals first
    | exact .of_eq rfl rfl
    | exact ⟨_, rfl, (Nat.zero_add _).symm⟩

end RunOneObserved

namespace LaneWorker

def busyNanos : LaneWorker T → ℕ
  | .classified r | .tallied r | .logged r | .quieted r | .freed r => r.busyNanos
  | _ => 0

theorem step_counts {now : Instant} {p p' : PitScheduler} {e : Choice T} {count : ℕ}
    {classify : T → Option String} {lane : LaneId} {m m' : BatchMemory T} {w w' : LaneWorker T}
    (h : w.step now count classify lane p m e = some (p', m', w')) :
    Counts p.busyNanos ((m.results.map (·.busyNanos)).sum + w.busyNanos)
      p'.busyNanos ((m'.results.map (·.busyNanos)).sum + w'.busyNanos) := by
  revert h
  fun_cases step now count classify lane p m w e <;> intro h <;> cases h
  all_goals first
    | exact .of_eq rfl rfl
    | exact ⟨_, rfl, rfl⟩
    | exact .of_eq rfl (by simp [busyNanos])

end LaneWorker

namespace BatchStage

/-- What a batch has added: for the results it will return, and for those its
workers hold. -/
def busyNanos : BatchStage T → ℕ
  | .numbering m | .stamping m | .announcing m => (m.results.map (·.busyNanos)).sum
  | .working m workers => (m.results.map (·.busyNanos)).sum + total LaneWorker.busyNanos workers
  | .returned _ run => (run.results.map (·.busyNanos)).sum
  | .unwound m => (m.results.map (·.busyNanos)).sum
  | .locking | .rejected _ => 0

variable {now : Instant} {p p' : PitScheduler} {e : Choice T} {count : UInt64}
  {classify : T → Option String} {w : ℕ} {b b' : BatchStage T}

theorem total_busyNanos_of_isDone {ws : List (LaneWorker T)}
    (h : ws.all LaneWorker.isDone = true) : total LaneWorker.busyNanos ws = 0 := by
  refine total_eq_zero.mpr fun w hw => ?_
  have := List.all_eq_true.mp h w hw
  revert this
  cases w <;> simp [LaneWorker.isDone, LaneWorker.busyNanos]

/-- The thread of a batch adds nothing, and sorting loses nothing. -/
theorem step_busyNanos (h : b.step now count p = some (p', b')) :
    p'.busyNanos = p.busyNanos ∧ b'.busyNanos = b.busyNanos := by
  revert h
  fun_cases step now count p b <;> intro h <;> cases h
  all_goals first
    | exact ⟨rfl, rfl⟩
    | skip
  · refine ⟨rfl, ?_⟩
    simp [busyNanos, total, LaneWorker.busyNanos]
  · rename_i m ws hdone hunwound
    refine ⟨rfl, ?_⟩
    simp only [busyNanos, total_busyNanos_of_isDone hdone, Nat.add_zero]
  · rename_i m ws hdone hunwound
    have hperm := (perm_sortResults m.results).map (·.busyNanos)
    refine ⟨rfl, ?_⟩
    simp only [busyNanos, total_busyNanos_of_isDone hdone, Nat.add_zero]
    exact hperm.sum_eq

theorem workerStep_counts (h : b.workerStep now count classify p w e = some (p', b')) :
    Counts p.busyNanos b.busyNanos p'.busyNanos b'.busyNanos := by
  obtain ⟨m, ws, x, m', x', rfl, hx, hs, rfl⟩ := workerStep_cases h
  obtain ⟨d, hword, hd⟩ := LaneWorker.step_counts hs
  have htotal := total_set LaneWorker.busyNanos (b := x') hx
  refine ⟨d, hword, ?_⟩
  simp only [busyNanos]
  omega

end BatchStage

namespace State

def countedNanos (s : State T) : ℕ :=
  total RunOneObserved.busyNanos s.calls + total (·.stage.busyNanos) s.batches

theorem step_counts {s t : State T} {a : Action T} (h : s.step a = some t) :
    Counts s.scheduler.busyNanos s.countedNanos t.scheduler.busyNanos t.countedNanos := by
  cases step_cases h with
  | tick d => exact .of_eq rfl rfl
  | runOneObserved => exact .of_eq rfl (by simp [countedNanos, RunOneObserved.busyNanos])
  | @call i e c p c' hi hc =>
    obtain ⟨d, hword, hd⟩ := RunOneObserved.step_counts hc
    have htotal := total_set RunOneObserved.busyNanos (b := c') hi
    refine ⟨d, hword, ?_⟩
    simp only [countedNanos]
    omega
  | @notifyNobody i k r hi hnone =>
    have htotal := total_set_eq RunOneObserved.busyNanos (b := .releasing k r .notified) hi rfl
    exact .of_eq rfl (by simp only [countedNanos, htotal])
  | @notify i j k r t hij hi hj hj' =>
    have h₁ := total_set_eq RunOneObserved.busyNanos (b := .releasing k r .notified) hi rfl
    have h₂ := total_set_eq RunOneObserved.busyNanos (b := .waiting t (.woken true)) hj' rfl
    exact .of_eq rfl (by simp only [countedNanos, h₂, h₁])
  | runManyClassified count classify =>
    have hzero : (RunManyClassified.enter count classify).stage.busyNanos = 0 := by
      unfold RunManyClassified.enter
      split_ifs <;> rfl
    exact .of_eq rfl (by simp [countedNanos, hzero])
  | @batch i b p stage hi hb =>
    obtain ⟨hword, hstage⟩ := BatchStage.step_busyNanos hb
    have htotal := total_set_eq (fun b : RunManyClassified T => b.stage.busyNanos)
      (b := { b with stage }) hi hstage
    exact .of_eq hword (by simp only [countedNanos, htotal])
  | @worker i w e b p stage hi hw =>
    obtain ⟨d, hword, hd⟩ := BatchStage.workerStep_counts hw
    have htotal := total_set (fun b : RunManyClassified T => b.stage.busyNanos)
      (b := { b with stage }) hi
    refine ⟨d, hword, ?_⟩
    dsimp only [countedNanos] at htotal ⊢
    omega

/-- The busy time is the sum of the durations of all executions that have
ended, each clamped to 64 bits, modulo `2^64`. -/
theorem Reachable.busyTime {n : UInt64} {now : Instant} {s : State T} (h : Reachable n now s) :
    s.scheduler.busyTime = s.countedNanos % 2 ^ 64 := by
  have htracks : Tracks s.scheduler.busyNanos s.countedNanos := by
    refine Transition.Reachable.invariant
      (I := fun s : State T => Tracks s.scheduler.busyNanos s.countedNanos) h rfl ?_
    intro s a t hs hstep
    obtain ⟨d, hword, hd⟩ := step_counts hstep
    unfold Tracks at hs ⊢
    rw [hword, hs, hd, UInt64.ofNat_add]
  rw [PitScheduler.busyTime, show s.scheduler.busyNanos = _ from htracks, UInt64.toNat_ofNat']

/-- A call and a batch of three jobs, all over: four nanoseconds and two. -/
def bothApisRun : List (Action Unit) :=
  [spawnRun, listRun, [.runOneObserved], List.replicate 8 (.call 0 .go),
    [.call 0 (.start 0), .tick 2, .call 0 (.finish (.error ""))],
    List.replicate 3 (.call 0 .go)].flatten

theorem busyTime_bothApisRun : ∃ s : State Unit, exec (fresh 2 0) bothApisRun = some s ∧
    s.countedNanos = 6 ∧ s.scheduler.busyTime = 6 := by
  have heval : (exec (fresh 2 0) bothApisRun).map countedNanos = some 6 := by decide +kernel
  obtain ⟨s, hs, hcounted⟩ := Option.map_eq_some_iff.mp heval
  have hbusy := Reachable.busyTime ⟨bothApisRun, hs⟩
  rw [hcounted] at hbusy
  exact ⟨s, hs, hcounted, hbusy⟩

end State

end PitBox.Scheduler
