import PitBox.Scheduler.BatchProgress
import PitBox.Scheduler.ExactlyOnce

/-!
# The makespan of a batch

A batch hands its queue out by list scheduling: a lane takes the next job the
moment it has delivered the last one, and leaves only when the queue is empty.
So while time passes only in task closures, no lane idles before the queue is
empty, and what is left from then on is one job on each lane. The time of a
batch is at most the mean work of a lane and a fraction of the longest job.
Whatever else takes time, it is at least the mean work of a lane.
-/

namespace PitBox.Scheduler

open Table Ledger

variable {T : Type}

namespace LaneWorker

/-- The time a worker has given to the job it holds. -/
def spent (now : Instant) : LaneWorker T → ℕ
  | .executing _ t => now - t.timer
  | .ended _ _ duration _ => duration
  | .classified r | .tallied r | .logged r | .quieted r | .freed r => r.report.duration
  | _ => 0

def since? : LaneWorker T → Option Instant
  | .executing _ t => some t.timer
  | _ => none

/-- A worker to whom time may pass: in its closure, or gone. -/
def mayWait (w : LaneWorker T) : Bool := w.isDone || w.executing?

variable {now : Instant} {p p' : PitScheduler} {e : Choice T} {count : ℕ}
  {classify : T → Option String} {lane : LaneId} {m m' : BatchMemory T} {w w' : LaneWorker T}

theorem step_spent (h : w.step now count classify lane p m e = some (p', m', w')) :
    (w'.spent now = w.spent now ∧ m'.results = m.results) ∨
      (w'.spent now = 0 ∧ ∃ r, w.spent now = r.report.duration ∧ m'.results = m.results ++ [r]) ∨
        (e = .unwind ∧ w'.spent now = 0 ∧ m'.results = m.results) := by
  revert h
  fun_cases step now count classify lane p m w e <;> intro h <;> cases h
  all_goals first
    | exact .inl ⟨rfl, rfl⟩
    | exact .inl ⟨Nat.sub_self now, rfl⟩
    | exact .inr (.inl ⟨rfl, _, rfl, rfl⟩)
    | exact .inr (.inr ⟨rfl, rfl, rfl⟩)

theorem step_since (h : w.step now count classify lane p m e = some (p', m', w')) {t : Instant}
    (ht : w'.since? = some t) : w.since? = some t ∨ (t = now ∧ w.unbegun?.isSome = true) := by
  revert h ht
  fun_cases step now count classify lane p m w e <;> intro h ht <;> cases h <;> cases ht
  exact .inr ⟨rfl, rfl⟩

theorem step_takes (h : w.step now count classify lane p m e = some (p', m', w'))
    (hw : w'.unbegun?.isSome = true) : w.unbegun?.isSome = true ∨ m.nextExecution < count := by
  revert h hw
  fun_cases step now count classify lane p m w e <;> intro h hw <;> cases h
  all_goals first
    | exact .inl rfl
    | exact .inr (not_le.mp ‹_›)
    | cases hw

theorem step_isDone (he : e ≠ .unwind)
    (h : w.step now count classify lane p m e = some (p', m', w')) (hw : w'.isDone = true) :
    count ≤ m.nextExecution := by
  revert he h hw
  fun_cases step now count classify lane p m w e <;> intro he h hw <;> cases h
  all_goals first
    | assumption
    | exact (he rfl).elim
    | cases hw

theorem spent_add (w : LaneWorker T) (hw : ∀ t, w.since? = some t → t ≤ now) (d : Duration) :
    w.spent (now + d) = w.spent now + d * w.executing?.toNat := by
  cases w with
  | executing j t =>
    simp only [spent, executing?, Bool.toNat_true, mul_one]
    exact Nat.sub_add_comm (hw t.timer rfl)
  | _ => simp [spent, executing?]

end LaneWorker

namespace BatchStage

/-- The results a batch has so far. -/
def delivered : BatchStage T → List (ExecutionResult T)
  | .working m _ => m.results
  | .returned _ run => run.results
  | _ => []

def spans (now : Instant) (b : BatchStage T) : List ℕ :=
  b.delivered.map (·.report.duration) ++ b.workers.map (LaneWorker.spent now)

def work (now : Instant) (b : BatchStage T) : ℕ := (b.spans now).sum

/-- How far the queue has been handed out. -/
def cursor : BatchStage T → ℕ
  | .working m _ => m.nextExecution
  | .returned m _ => m.nextExecution
  | _ => 0

variable {now start exit : Instant} {p p' : PitScheduler} {e : Choice T} {count : UInt64}
  {classify : T → Option String} {lanes w : ℕ} {b b' : BatchStage T}

theorem work_eq (now : Instant) (b : BatchStage T) :
    b.work now = (b.delivered.map (·.report.duration)).sum +
      total (LaneWorker.spent now) b.workers := by
  simp [work, spans, total]

/-- The queue is not yet handed out, and no lane has been idle. -/
structure Full (lanes : ℕ) (start now : Instant) (b : BatchStage T) : Prop where
  none_done : ∀ w ∈ b.workers, w.isDone = false
  length : b.workers.length = lanes
  paid : lanes * (now - start) ≤ b.work now

/-- The first worker left at `exit`, and from then on no job is taken up: what
is left has been in progress since then at the latest. -/
structure Retiring (lanes count : ℕ) (start exit now : Instant) (b : BatchStage T) : Prop where
  start_le : start ≤ exit
  exit_le : exit ≤ now
  empty : count ≤ b.cursor
  paid : lanes * (exit - start) + (now - exit) ≤ b.work now
  begun : ∀ w ∈ b.workers, ∀ t, w.since? = some t → t ≤ exit
  unbegun : ∀ w ∈ b.workers, w.unbegun?.isSome = true → now = exit
  longest : ∀ d, (∀ x ∈ b.spans now, x ≤ d) → now - exit ≤ d

def Started : BatchStage T → Prop
  | .working _ _ | .returned _ _ | .unwound _ => True
  | _ => False

/-- The work of a batch that started at `start` fits on its lanes. -/
structure Fits (lanes : ℕ) (start now : Instant) (b : BatchStage T) : Prop where
  started : b.Started
  start_le : start ≤ now
  lanes_le : b.workers.length ≤ lanes
  timers : ∀ w ∈ b.workers, ∀ t, w.since? = some t → t ≤ now
  work_le : b.work now ≤ lanes * (now - start)

/-- What list scheduling keeps of a batch that started at `start`. -/
structure ListScheduled (lanes count : ℕ) (start now : Instant) (b : BatchStage T) : Prop
    extends Fits lanes start now b where
  phase : b.Full lanes start now ∨ ∃ exit, b.Retiring lanes count start exit now

/-- Time may pass: every worker is in its closure or gone, and one is in it. -/
def MayWait (b : BatchStage T) : Prop :=
  (∀ w ∈ b.workers, w.mayWait = true) ∧ ∃ w ∈ b.workers, w.executing? = true

instance (b : BatchStage T) : Decidable b.MayWait :=
  inferInstanceAs (Decidable ((∀ w ∈ b.workers, w.mayWait = true) ∧
    ∃ w ∈ b.workers, w.executing? = true))

theorem work_add (h : ∀ w ∈ b.workers, ∀ t, w.since? = some t → t ≤ now) (d : Duration) :
    b.work (now + d) = b.work now + d * tally LaneWorker.executing? b.workers := by
  rw [work_eq, work_eq, tally, ← total_mul, add_assoc, ← total_add]
  congr 1
  exact total_congr fun w hw => w.spent_add (h w hw) d

theorem lane_time_add (lanes : ℕ) (h : start ≤ now) (d : Duration) :
    lanes * (now + d - start) = lanes * (now - start) + d * lanes := by
  rw [Nat.sub_add_comm h, mul_add, mul_comm d]

theorem Fits.tick (h : b.Fits lanes start now) (d : Duration) : b.Fits lanes start (now + d) where
  started := h.started
  start_le := Nat.le_add_right_of_le h.start_le
  lanes_le := h.lanes_le
  timers w hw t ht := Nat.le_add_right_of_le (h.timers w hw t ht)
  work_le := by
    have hbusy : tally LaneWorker.executing? b.workers ≤ lanes := by
      rw [tally_eq_countP]
      exact List.countP_le_length.trans h.lanes_le
    rw [work_add h.timers, lane_time_add lanes h.start_le]
    exact Nat.add_le_add h.work_le (Nat.mul_le_mul_left d hbusy)

/-- Time that may pass keeps the batch list-scheduled. -/
theorem ListScheduled.tick (h : b.ListScheduled lanes count.toNat start now) (hb : b.MayWait)
    (d : Duration) : b.ListScheduled lanes count.toNat start (now + d) := by
  obtain ⟨hall, w, hw, hexecuting⟩ := hb
  have hwork := work_add h.timers d
  refine ⟨h.toFits.tick d, ?_⟩
  rcases h.phase with hfull | ⟨exit, hretiring⟩
  · -- no worker has left, so all of them are in their closures
    left
    have hevery : tally LaneWorker.executing? b.workers = lanes := by
      rw [tally_eq_countP, List.countP_eq_length.mpr, hfull.length]
      intro x hx
      simpa [LaneWorker.mayWait, hfull.none_done x hx] using hall x hx
    refine ⟨hfull.none_done, hfull.length, ?_⟩
    rw [hwork, lane_time_add lanes h.start_le, hevery]
    exact Nat.add_le_add_right hfull.paid _
  · right
    refine ⟨exit, hretiring.start_le, Nat.le_add_right_of_le hretiring.exit_le,
      hretiring.empty, ?_, hretiring.begun, ?_, ?_⟩
    · have hone : 1 ≤ tally LaneWorker.executing? b.workers := tally_pos hw hexecuting
      have := Nat.mul_le_mul_left d hone
      have := hretiring.paid
      have := Nat.sub_add_comm (m := d) hretiring.exit_le
      rw [hwork]
      omega
    · intro x hx hunbegun
      have := hall x hx
      revert this hunbegun
      cases x <;> simp [LaneWorker.mayWait, LaneWorker.unbegun?, LaneWorker.isDone,
        LaneWorker.executing?]
    · intro c hc
      refine le_trans ?_ (hc _ (List.mem_append_right _ (List.mem_map_of_mem hw)))
      cases w with
      | executing j t => exact Nat.sub_le_sub_left (hretiring.begun _ hw _ rfl) _
      | _ => cases hexecuting

/-- Between two ticks no lane time is gained, and none is lost unless a closure
unwinds. -/
theorem workerStep_work (h : b.workerStep now count classify p w e = some (p', b')) :
    b'.work now = b.work now ∨ e = .unwind ∧ b'.work now ≤ b.work now := by
  obtain ⟨m, ws, x, m', x', rfl, hx, hs, rfl⟩ := workerStep_cases h
  have htotal := total_set (LaneWorker.spent now) (b := x') hx
  rcases LaneWorker.step_spent hs with ⟨hspent, hresults⟩ | ⟨hspent, r, hr, hresults⟩ |
    ⟨hunwind, hspent, hresults⟩
  · left
    simp only [work_eq, delivered, workers, hresults]
    omega
  · left
    simp only [work_eq, delivered, workers, hresults, List.map_append, List.sum_append,
      List.map_cons, List.map_nil, List.sum_cons, List.sum_nil]
    omega
  · right
    refine ⟨hunwind, ?_⟩
    simp only [work_eq, delivered, workers, hresults]
    omega

theorem workerStep_work_le (h : b.workerStep now count classify p w e = some (p', b')) :
    b'.work now ≤ b.work now := by
  rcases workerStep_work h with heq | ⟨-, hle⟩
  · exact heq.le
  · exact hle

/-- A duration that has been taken up stays, in the worker or in its result. -/
theorem workerStep_spans (he : e ≠ .unwind)
    (h : b.workerStep now count classify p w e = some (p', b')) :
    b.spans now ⊆ b'.spans now ∪ [0] := by
  obtain ⟨m, ws, x, m', x', rfl, hx, hs, rfl⟩ := workerStep_cases h
  have hother : ∀ u ∈ ws, u = x ∨ u.spent now ∈ (ws.set w x').map (LaneWorker.spent now) := by
    intro u hu
    obtain ⟨k, hk⟩ := List.mem_iff_getElem?.mp hu
    rcases eq_or_ne w k with rfl | hwk
    · exact .inl (Option.some.inj (hk.symm.trans hx))
    · right
      rw [← List.getElem?_set_ne hwk (a := x')] at hk
      exact List.mem_map_of_mem (List.mem_of_getElem? hk)
  have hself : x'.spent now ∈ (ws.set w x').map (LaneWorker.spent now) := by
    refine List.mem_map_of_mem (List.mem_of_getElem? (i := w) ?_)
    exact List.getElem?_set_self (List.getElem?_eq_some_iff.mp hx).1
  intro y hy
  simp only [spans, delivered, workers, List.mem_append, List.mem_union_iff] at hy ⊢
  rcases LaneWorker.step_spent hs with ⟨hspent, hresults⟩ | ⟨hspent, r, hr, hresults⟩ | hunwind
  · rw [hresults]
    rcases hy with hy | hy
    · exact .inl (.inl hy)
    · obtain ⟨u, hu, rfl⟩ := List.mem_map.mp hy
      rcases hother u hu with rfl | hmem
      · exact .inl (.inr (hspent ▸ hself))
      · exact .inl (.inr hmem)
  · rw [hresults, List.map_append, List.mem_append]
    rcases hy with hy | hy
    · exact .inl (.inl (.inl hy))
    · obtain ⟨u, hu, rfl⟩ := List.mem_map.mp hy
      rcases hother u hu with rfl | hmem
      · exact .inl (.inl (.inr (by simp [hr])))
      · exact .inl (.inr hmem)
  · exact absurd hunwind.1 he

theorem workerStep_since (h : b.workerStep now count classify p w e = some (p', b')) :
    ∀ u ∈ b'.workers, ∀ t, u.since? = some t →
      (∃ v ∈ b.workers, v.since? = some t) ∨
        (t = now ∧ ∃ v ∈ b.workers, v.unbegun?.isSome = true) := by
  obtain ⟨m, ws, x, m', x', rfl, hx, hstep, rfl⟩ := workerStep_cases h
  have hmem := List.mem_of_getElem? hx
  intro u hu t ht
  rcases List.mem_or_eq_of_mem_set hu with hu | rfl
  · exact .inl ⟨u, hu, ht⟩
  · rcases LaneWorker.step_since hstep ht with ht | ⟨rfl, hunbegun⟩
    · exact .inl ⟨x, hmem, ht⟩
    · exact .inr ⟨rfl, x, hmem, hunbegun⟩

theorem Fits.workerStep (h : b.Fits lanes start now)
    (hs : b.workerStep now count classify p w e = some (p', b')) : b'.Fits lanes start now := by
  have hwork := workerStep_work_le hs
  have hsince := workerStep_since hs
  obtain ⟨m, ws, x, m', x', rfl, hx, hstep, rfl⟩ := workerStep_cases hs
  refine ⟨trivial, h.start_le, by simpa [workers] using h.lanes_le, ?_, hwork.trans h.work_le⟩
  intro u hu t ht
  rcases hsince u hu t ht with ⟨v, hv, ht⟩ | ⟨rfl, -⟩
  · exact h.timers v hv t ht
  · exact le_rfl

theorem workerStep_cursor (h : b.workerStep now count classify p w e = some (p', b')) :
    b.cursor ≤ b'.cursor := by
  obtain ⟨m, ws, x, m', x', rfl, -, hs, rfl⟩ := workerStep_cases h
  exact (LaneWorker.step_frame hs).2.1

theorem longest_of_subset {d : ℕ} (h : b.spans now ⊆ b'.spans now ∪ [0])
    (hd : ∀ x ∈ b'.spans now, x ≤ d) : ∀ x ∈ b.spans now, x ≤ d := by
  intro x hx
  rcases List.mem_union_iff.mp (h hx) with hx | hx
  · exact hd x hx
  · rw [List.mem_singleton.mp hx]
    exact Nat.zero_le d

/-- A step of a worker keeps the batch list-scheduled. -/
theorem ListScheduled.workerStep (h : b.ListScheduled lanes count.toNat start now)
    (he : e ≠ .unwind) (hs : b.workerStep now count classify p w e = some (p', b')) :
    b'.ListScheduled lanes count.toNat start now := by
  have hwork := (workerStep_work hs).resolve_right fun hunwind => he hunwind.1
  have hspans := workerStep_spans he hs
  have hcursor := workerStep_cursor hs
  have hsince := workerStep_since hs
  have hfits := h.toFits.workerStep hs
  obtain ⟨m, ws, x, m', x', rfl, hx, hstep, rfl⟩ := workerStep_cases hs
  refine ⟨hfits, ?_⟩
  rcases h.phase with hfull | ⟨exit, hretiring⟩
  · by_cases hdone : x'.isDone = true
    · -- the first worker to leave finds the queue empty
      right
      refine ⟨now, h.start_le, le_rfl, ?_, ?_, hfits.timers, fun _ _ _ => rfl,
        fun _ _ => by simp⟩
      · exact (LaneWorker.step_isDone he hstep hdone).trans hcursor
      · rw [hwork, Nat.sub_self]
        exact hfull.paid
    · left
      refine ⟨fun u hu => ?_, by simpa [workers] using hfull.length, hwork ▸ hfull.paid⟩
      rcases List.mem_or_eq_of_mem_set hu with hu | rfl
      · exact hfull.none_done u hu
      · simpa using hdone
  · right
    refine ⟨exit, hretiring.start_le, hretiring.exit_le, hretiring.empty.trans hcursor,
      hwork ▸ hretiring.paid, ?_, ?_, ?_⟩
    · intro u hu t ht
      rcases hsince u hu t ht with ⟨v, hv, ht⟩ | ⟨rfl, v, hv, hunbegun⟩
      · exact hretiring.begun v hv t ht
      · exact (hretiring.unbegun v hv hunbegun).le
    · intro u hu hunbegun
      rcases List.mem_or_eq_of_mem_set hu with hu | rfl
      · exact hretiring.unbegun u hu hunbegun
      · refine hretiring.unbegun x (List.mem_of_getElem? hx)
          ((LaneWorker.step_takes hstep hunbegun).resolve_right ?_)
        exact not_lt.mpr hretiring.empty
    · exact fun d hd => hretiring.longest d (longest_of_subset hspans hd)

/-- A batch whose workers have left has its work in its results. -/
theorem work_returned {m : BatchMemory T} {ws : List (LaneWorker T)} (laneCount : ℕ)
    (hdone : ws.all LaneWorker.isDone = true) :
    (returned m (collect laneCount m)).work now = (working m ws).work now ∧
      (working m ws).spans now ⊆ (returned m (collect laneCount m)).spans now ∪ [0] := by
  have hperm := (perm_sortResults m.results).map (·.report.duration)
  have hzero : ∀ w ∈ ws, w.spent now = 0 := by
    intro w hw
    have := List.all_eq_true.mp hdone w hw
    revert this
    cases w <;> simp [LaneWorker.isDone, LaneWorker.spent]
  constructor
  · rw [work_eq, work_eq, show total _ (working m ws).workers = 0 from total_eq_zero.mpr hzero]
    exact congrArg (· + 0) hperm.sum_eq
  · intro y hy
    simp only [spans, delivered, workers, collect, List.mem_append, List.mem_union_iff] at hy ⊢
    rcases hy with hy | hy
    · exact .inl (.inl (hperm.mem_iff.mpr hy))
    · obtain ⟨w, hw, rfl⟩ := List.mem_map.mp hy
      exact .inr (List.mem_singleton.mpr (hzero w hw))

theorem Fits.step (h : b.Fits lanes start now) (hs : b.step now count p = some (p', b')) :
    b'.Fits lanes start now := by
  have hstarted := h.started
  cases b with
  | working m ws =>
    simp only [BatchStage.step] at hs
    split_ifs at hs with hdone hany
    · obtain ⟨-, rfl⟩ := Prod.mk.inj (Option.some.inj hs)
      exact ⟨trivial, h.start_le, Nat.zero_le _, by simp [workers], Nat.zero_le _⟩
    · obtain ⟨-, rfl⟩ := Prod.mk.inj (Option.some.inj hs)
      obtain ⟨hwork, -⟩ := work_returned (m := m) p.laneCount hdone
      exact ⟨trivial, h.start_le, Nat.zero_le _, by simp [workers], hwork ▸ h.work_le⟩
  | returned m run => cases hs
  | unwound m => cases hs
  | _ => exact hstarted.elim

/-- The step that ends the batch keeps it list-scheduled. -/
theorem ListScheduled.step (h : b.ListScheduled lanes count.toNat start now)
    (hlanes : 0 < lanes) (hb : b.Orderly) (hs : b.step now count p = some (p', b')) :
    b'.ListScheduled lanes count.toNat start now := by
  have hstarted := h.started
  have hfits := h.toFits.step hs
  cases b with
  | working m ws =>
    simp only [BatchStage.step] at hs
    split_ifs at hs with hdone hany
    · obtain ⟨w, hw, hwu⟩ := List.any_eq_true.mp hany
      rw [hb w hw] at hwu
      cases hwu
    · obtain ⟨-, rfl⟩ := Prod.mk.inj (Option.some.inj hs)
      obtain ⟨hwork, hspans⟩ := work_returned (m := m) p.laneCount hdone
      refine ⟨hfits, .inr ?_⟩
      rcases h.phase with hfull | ⟨exit, hretiring⟩
      · have hpos : 0 < ws.length := hfull.length ▸ hlanes
        have hlive := hfull.none_done ws[0] (List.getElem_mem hpos)
        rw [List.all_eq_true.mp hdone _ (List.getElem_mem hpos)] at hlive
        cases hlive
      · exact ⟨exit, hretiring.start_le, hretiring.exit_le, hretiring.empty,
          hwork ▸ hretiring.paid, by simp [workers], by simp [workers],
          fun d hd => hretiring.longest d (longest_of_subset hspans hd)⟩
  | returned m run => cases hs
  | unwound m => cases hs
  | _ => exact hstarted.elim

theorem listScheduled_replicate {m : BatchMemory T} (lanes count : ℕ) (now : Instant)
    (hm : m.results = []) :
    (working m (List.replicate lanes .claiming)).ListScheduled lanes count now now := by
  have hworkers : ∀ w ∈ (working m (List.replicate lanes .claiming)).workers, w = .claiming :=
    fun w hw => List.eq_of_mem_replicate hw
  have hwork : (working m (List.replicate lanes .claiming)).work now = 0 := by
    simp [work_eq, delivered, hm, workers, total, LaneWorker.spent]
  refine ⟨⟨trivial, le_rfl, by simp [workers], ?_, by simp [hwork]⟩, .inl ⟨?_, ?_, by simp⟩⟩
  · intro w hw t ht
    rw [hworkers w hw] at ht
    cases ht
  · intro w hw
    rw [hworkers w hw]
    rfl
  · simp [workers]

theorem work_of_returned {m : BatchMemory T} {run : SchedulerRun T} :
    (returned m run).work now = (run.results.map (·.report.duration)).sum := by
  simp [work, spans, delivered, workers]

/-- With no worker left, the time on all lanes is the work and what the lanes
lost while the last jobs ran, each at most as long as the longest job. -/
theorem ListScheduled.makespan {m : BatchMemory T} {run : SchedulerRun T}
    (h : (returned m run).ListScheduled lanes count.toNat start now) (hlanes : 0 < lanes)
    {longest : ℕ} (hlongest : ∀ r ∈ run.results, r.report.duration ≤ longest) :
    lanes * (now - start) ≤
      (run.results.map (·.report.duration)).sum + (lanes - 1) * longest := by
  rcases h.phase with hfull | ⟨exit, hretiring⟩
  · have hempty : 0 = lanes := hfull.length
    exact absurd hlanes (by omega)
  · have hpaid := hretiring.paid
    rw [work_of_returned] at hpaid
    have htail : now - exit ≤ longest := by
      refine hretiring.longest longest fun x hx => ?_
      obtain ⟨r, hr, rfl⟩ := List.mem_map.mp
        (show x ∈ run.results.map (·.report.duration) by simpa [spans, delivered, workers] using hx)
      exact hlongest r hr
    obtain ⟨k, rfl⟩ : ∃ k, lanes = k + 1 := ⟨lanes - 1, by omega⟩
    have hsplit : now - start = (now - exit) + (exit - start) :=
      (Nat.sub_add_sub_cancel hretiring.exit_le hretiring.start_le).symm
    calc (k + 1) * (now - start)
      _ = ((k + 1) * (exit - start) + (now - exit)) + k * (now - exit) := by rw [hsplit]; ring
      _ ≤ _ := Nat.add_le_add hpaid (Nat.mul_le_mul_left k htail)

end BatchStage

namespace State

variable {s t : State T} {as : List (Action T)} {i lanes : ℕ} {count : UInt64}
  {classify : T → Option String}

/-- Only the task closures of batch `i` take time, and none of its closures
unwinds. Everything else that happens on the scheduler may take any time. -/
def OnlyTasksTakeTime (i : ℕ) (s : State T) : Action T → Prop
  | .tick _ => ∀ b ∈ s.batches[i]?, b.stage.MayWait
  | a => a.unwindsWorker i = false

instance (i : ℕ) (s : State T) : ∀ a, Decidable (OnlyTasksTakeTime i s a)
  | .tick _ => inferInstanceAs (Decidable (∀ b ∈ s.batches[i]?, b.stage.MayWait))
  | .runOneObserved | .call _ _ | .notifyOne _ _ | .runManyClassified _ _ | .batch _
  | .worker _ _ _ => inferInstanceAs (Decidable (_ = false))

/-- The work of batch `i` has fitted on its lanes since `start`. -/
def BatchFits (i lanes : ℕ) (count : UInt64) (classify : T → Option String) (start : Instant)
    (s : State T) : Prop :=
  ∃ stage, s.batches[i]? = some ⟨count, classify, stage⟩ ∧ stage.Fits lanes start s.now

/-- Batch `i` is list-scheduled since `start`. -/
def BatchListScheduled (i lanes : ℕ) (count : UInt64) (classify : T → Option String)
    (start : Instant) (s : State T) : Prop :=
  ∃ stage, s.batches[i]? = some ⟨count, classify, stage⟩ ∧ stage.Orderly ∧
    stage.ListScheduled lanes count.toNat start s.now

theorem step_now {a : Action T} (h : s.step a = some t) :
    t.now = s.now ∨ ∃ d, a = .tick d ∧ t.now = s.now + d := by
  cases step_cases h with
  | tick d => exact .inr ⟨d, rfl, rfl⟩
  | _ => exact .inl rfl

theorem BatchFits.step {start : Instant} {a : Action T}
    (h : s.BatchFits i lanes count classify start) (hs : s.step a = some t) :
    t.BatchFits i lanes count classify start := by
  obtain ⟨stage, hi, hfits⟩ := h
  obtain ⟨stage', hi', hcases⟩ := step_batch hs hi
  refine ⟨stage', hi', ?_⟩
  rcases hcases with ⟨-, rfl⟩ | ⟨rfl, hb⟩ | ⟨w, e, rfl, hw⟩
  · rcases step_now hs with hnow | ⟨d, rfl, hnow⟩
    · exact hnow ▸ hfits
    · exact hnow ▸ hfits.tick d
  · rw [(step_now hs).resolve_right (by simp)]
    exact hfits.step hb
  · rw [(step_now hs).resolve_right (by simp)]
    exact hfits.workerStep hw

theorem BatchListScheduled.step {start : Instant} {a : Action T} (hlanes : 0 < lanes)
    (h : s.BatchListScheduled i lanes count classify start) (ha : OnlyTasksTakeTime i s a)
    (hs : s.step a = some t) : t.BatchListScheduled i lanes count classify start := by
  obtain ⟨stage, hi, horderly, hlist⟩ := h
  obtain ⟨stage', hi', hcases⟩ := step_batch hs hi
  refine ⟨stage', hi', ?_⟩
  rcases hcases with ⟨-, rfl⟩ | ⟨rfl, hb⟩ | ⟨w, e, rfl, hw⟩
  · rcases step_now hs with hnow | ⟨d, rfl, hnow⟩
    · rw [hnow]
      exact ⟨horderly, hlist⟩
    · rw [hnow]
      exact ⟨horderly, hlist.tick (ha _ hi) d⟩
  · rw [(step_now hs).resolve_right (by simp)]
    exact ⟨horderly.step hb, hlist.step hlanes horderly hb⟩
  · rw [(step_now hs).resolve_right (by simp)]
    have he : e.unwinds = false := by simpa [OnlyTasksTakeTime, Action.unwindsWorker] using ha
    exact ⟨horderly.workerStep he hw, hlist.workerStep (by rintro rfl; cases he) hw⟩

/-- Whatever happens on the scheduler, a batch that returns has taken at least
the mean work of a lane. If only its task closures took time, it has taken at
most the mean work and a fraction `(lanes - 1) / lanes` of the longest job. -/
theorem exec_makespan {m m' : BatchMemory T} {run : SchedulerRun T} (hlanes : 0 < lanes)
    (hi : s.batches[i]? = some ⟨count, classify, .working m (List.replicate lanes .claiming)⟩)
    (hm : m.results = []) (h : s.exec as = some t)
    (ht : t.batches[i]? = some ⟨count, classify, .returned m' run⟩) :
    (run.results.map (·.report.duration)).sum ≤ lanes * (t.now - s.now) ∧
      (Transition.Along step (OnlyTasksTakeTime i) s as →
        ∀ longest, (∀ r ∈ run.results, r.report.duration ≤ longest) →
          lanes * (t.now - s.now) ≤
            (run.results.map (·.report.duration)).sum + (lanes - 1) * longest) := by
  have hfresh := BatchStage.listScheduled_replicate lanes count.toNat s.now hm
  constructor
  · obtain ⟨stage, hi', hfits⟩ := Transition.exec_invariant_of_step
      (I := BatchFits i lanes count classify s.now) (fun _ _ _ hI => hI.step)
      ⟨_, hi, hfresh.toFits⟩ h
    cases hi'.symm.trans ht
    exact BatchStage.work_of_returned ▸ hfits.work_le
  · intro htime
    have horderly : BatchStage.Orderly (.working m (List.replicate lanes .claiming)) := by
      intro w hw
      rw [List.eq_of_mem_replicate hw]
      rfl
    obtain ⟨stage, hi', -, hlist⟩ := Transition.exec_invariant
      (I := BatchListScheduled i lanes count classify s.now)
      (fun _ _ _ hI hC => hI.step hlanes hC) ⟨_, hi, horderly, hfresh⟩ htime h
    cases hi'.symm.trans ht
    exact fun longest => hlist.makespan hlanes

/-- Three jobs of one, one and two nanoseconds on two lanes, from the call to
the spawning of the workers and from there to the return. -/
def spawnRun : List (Action Unit) :=
  .runManyClassified 3 (fun _ => none) :: List.replicate 13 (.batch 0)

def listRun : List (Action Unit) :=
  [List.replicate 6 (.worker 0 0 .go), List.replicate 6 (.worker 0 1 .go),
    [.worker 0 0 (.start 0), .worker 0 1 (.start 0), .tick 1, .worker 0 0 (.finish (.ok ())),
      .worker 0 1 (.finish (.ok ()))],
    List.replicate 12 (.worker 0 0 .go), List.replicate 7 (.worker 0 1 .go),
    [.worker 0 0 (.start 0), .tick 2, .worker 0 0 (.finish (.ok ()))],
    List.replicate 7 (.worker 0 0 .go), [.batch 0]].flatten

/-- In this order the bound is reached: both lanes together take six nanoseconds. -/
theorem exec_makespan_listRun :
    ∃ (s t : State Unit) (m' : BatchMemory Unit) (run : SchedulerRun Unit),
      exec (fresh 2 0) spawnRun = some s ∧ s.exec listRun = some t ∧
        t.batches[0]? = some ⟨3, fun _ => none, .returned m' run⟩ ∧
        2 * (t.now - s.now) = 6 ∧ 4 ≤ 2 * (t.now - s.now) ∧
          2 * (t.now - s.now) ≤ 4 + (2 - 1) * 2 := by
  have htime : Transition.Along step (OnlyTasksTakeTime 0)
      (Option.get (exec (fresh 2 0) spawnRun) rfl) listRun := by decide +kernel
  obtain ⟨hlower, hupper⟩ := exec_makespan (i := 0) Nat.two_pos rfl rfl
    (show (Option.get (exec (fresh 2 0) spawnRun) rfl).exec listRun = some _ from rfl) rfl
  exact ⟨_, _, _, _, rfl, rfl, rfl, rfl, hlower, hupper htime 2 (by decide)⟩

end State

end PitBox.Scheduler
