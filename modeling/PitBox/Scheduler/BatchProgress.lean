import PitBox.Scheduler.BatchMemory
import PitBox.Scheduler.Bookkeeping

/-!
# Progress of a batch

Every step of a thread of a batch lowers a measure that no other thread
changes, and while the batch has the lock one of its threads can move whatever
the task closures return. So a batch whose closures return is over after a
number of its own steps that is known when it starts.
-/

namespace PitBox.Scheduler

open Table Ledger

variable {T : Type}

/-- The steps left in the current round of a worker's loop. -/
def LaneWorker.rank : LaneWorker T → ℕ
  | .claiming => 1
  | .claimed _ _ => 16
  | .dequeued _ => 15
  | .marked _ => 14
  | .activated _ _ => 13
  | .peaked _ => 12
  | .announced _ _ => 11
  | .executing _ _ => 10
  | .ended _ _ _ _ => 9
  | .classified _ => 8
  | .tallied _ => 7
  | .logged _ => 6
  | .quieted _ => 5
  | .freed _ => 4
  | .exited | .unwound _ _ => 0

def roundSteps (laneCount count : ℕ) : ℕ := 20 * count + laneCount

/-- A bound on the steps the threads of a batch still take. -/
def BatchStage.remaining (laneCount count : ℕ) : BatchStage T → ℕ
  | .locking => roundSteps laneCount count + 3 * count + 5
  | .numbering m => roundSteps laneCount count + (count - m.executionIds.length) + 2 * count + 4
  | .stamping m => roundSteps laneCount count + (count - m.queuedAt.length) + count + 3
  | .announcing m =>
    roundSteps laneCount count + (m.executionIds.length - m.state.events.length) + 2
  | .working m workers => 20 * (count - m.nextExecution) + total LaneWorker.rank workers + 1
  | _ => 0

theorem LaneWorker.step_rank {now : Instant} {p p' : PitScheduler} {e : Choice T} {count : ℕ}
    {classify : T → Option String} {lane : LaneId} {m m' : BatchMemory T} {w w' : LaneWorker T}
    (h : w.step now count classify lane p m e = some (p', m', w')) :
    20 * (count - m'.nextExecution) + w'.rank < 20 * (count - m.nextExecution) + w.rank := by
  revert h
  fun_cases step now count classify lane p m w e <;> intro h <;> cases h <;>
    simp only [rank, BatchMemory.claim] <;> omega

/-- A worker that is not done can move, whatever its closures return. -/
theorem LaneWorker.exists_step {now : Instant} {p : PitScheduler} {count : ℕ}
    {classify : T → Option String} {lane : LaneId} {m : BatchMemory T} {w : LaneWorker T}
    (hlength : m.executionIds.length = count) (hw : w.isDone = false) :
    (w.step now count classify lane p m .go).isSome = true ∨
      (∀ wall, (w.step now count classify lane p m (.start wall)).isSome = true) ∨
      ∀ outcome, (w.step now count classify lane p m (.finish outcome)).isSome = true := by
  cases w with
  | claiming =>
    left
    by_cases hcursor : count ≤ m.nextExecution
    · simp [step, hcursor]
    · have hlt : m.nextExecution < m.executionIds.length := by omega
      simp [step, hcursor, List.getElem?_eq_getElem hlt]
  | announced j queuedFor => exact .inr (.inl fun wall => rfl)
  | executing j t => exact .inr (.inr fun outcome => rfl)
  | classified r =>
    left
    simp only [step]
    split_ifs <;> rfl
  | exited | unwound j ended => cases hw
  | _ => exact .inl rfl

namespace BatchStage

variable {now : Instant} {p p' : PitScheduler} {e : Choice T} {count : UInt64}
  {classify : T → Option String} {w : ℕ} {b b' : BatchStage T}

theorem step_remaining (hk : b.Kept p.laneCount count classify)
    (h : b.step now count p = some (p', b')) :
    b'.remaining p.laneCount count.toNat < b.remaining p.laneCount count.toNat := by
  revert hk h
  fun_cases step now count p b <;> intro hk h <;> cases h
  all_goals simp only [remaining, List.length_append, List.length_singleton, RunState.pushEvent]
  · simp; omega
  · omega
  · omega
  · omega
  · have := hk.2
    omega
  · have := (List.getElem?_eq_some_iff.mp ‹_›).1
    omega
  · have hw : total LaneWorker.rank (List.replicate p.laneCount (.claiming : LaneWorker T)) =
        p.laneCount := by simp [total, LaneWorker.rank]
    rw [hw, hk.1.nextExecution]
    unfold roundSteps
    omega
  · omega
  · omega

theorem workerStep_remaining (laneCount : ℕ)
    (h : b.workerStep now count classify p w e = some (p', b')) :
    b'.remaining laneCount count.toNat < b.remaining laneCount count.toNat := by
  obtain ⟨m, ws, x, m', x', rfl, hx, hs, rfl⟩ := workerStep_cases h
  have ht := total_set LaneWorker.rank (b := x') hx
  have hr := LaneWorker.step_rank hs
  simp only [remaining]
  omega

end BatchStage

namespace State

/-- A thread of batch `i` can move, whatever its closures return. -/
def Ready (s : State T) (i : ℕ) : Prop :=
  (s.step (.batch i)).isSome = true ∨ ∃ w, (s.step (.worker i w .go)).isSome = true ∨
    (∀ wall, (s.step (.worker i w (.start wall))).isSome = true) ∨
    ∀ outcome, (s.step (.worker i w (.finish outcome))).isSome = true

theorem step_batches_kept {s t : State T} {a : Action T}
    (h : ∀ b ∈ s.batches, b.stage.Kept s.scheduler.laneCount b.count b.classify)
    (hs : s.step a = some t) :
    ∀ b ∈ t.batches, b.stage.Kept t.scheduler.laneCount b.count b.classify := by
  rw [step_laneCount hs]
  cases step_cases hs with
  | runManyClassified count classify =>
    intro b hb
    rcases List.mem_append.mp hb with hb | hb
    · exact h b hb
    · obtain rfl := List.mem_singleton.mp hb
      unfold RunManyClassified.enter
      split_ifs <;> trivial
  | batch hi hb =>
    intro d hd
    rcases List.mem_or_eq_of_mem_set hd with hd | rfl
    · exact h d hd
    · have hcount := (BatchStage.step_sameLanes hb).1
      exact (h _ (List.mem_of_getElem? hi)).step hb
  | worker hi hw =>
    intro d hd
    rcases List.mem_or_eq_of_mem_set hd with hd | rfl
    · exact h d hd
    · exact (h _ (List.mem_of_getElem? hi)).workerStep hw
  | _ => exact h

theorem Reachable.batches_kept {n : UInt64} {now : Instant} {s : State T}
    (h : Reachable n now s) :
    ∀ b ∈ s.batches, b.stage.Kept s.scheduler.laneCount b.count b.classify :=
  Transition.Reachable.invariant
    (I := fun s => ∀ b ∈ s.batches, b.stage.Kept s.scheduler.laneCount b.count b.classify)
    h (by simp [fresh]) fun _ _ _ => step_batches_kept

/-- A batch that has the lock can always move. -/
theorem ready_of_holds {s : State T} {i : ℕ} {b : RunManyClassified T}
    (hi : s.batches[i]? = some b) (hk : b.stage.Kept s.scheduler.laneCount b.count b.classify)
    (hh : b.holdsRunLock = true) : s.Ready i := by
  obtain ⟨count, classify, stage⟩ := b
  have hthread : (stage.step s.now count s.scheduler).isSome = true → s.Ready i := by
    intro h
    left
    simpa [step, hi, RunManyClassified.step] using h
  cases stage with
  | numbering m =>
    refine hthread ?_
    simp only [BatchStage.step]
    split_ifs <;> rfl
  | stamping m =>
    refine hthread ?_
    simp only [BatchStage.step]
    split_ifs <;> rfl
  | announcing m =>
    refine hthread ?_
    simp only [BatchStage.step]
    split <;> rfl
  | working m workers =>
    by_cases hdone : workers.all LaneWorker.isDone = true
    · refine hthread ?_
      simp only [BatchStage.step, hdone, if_true]
      split_ifs <;> rfl
    · obtain ⟨x, hx, hxdone⟩ : ∃ x ∈ workers, x.isDone = false := by simpa using hdone
      obtain ⟨w, hw⟩ := List.mem_iff_getElem?.mp hx
      have hworker e : (s.step (.worker i w e)).isSome =
          (x.step s.now count.toNat classify w s.scheduler m e).isSome := by
        simp [step, hi, RunManyClassified.workerStep, BatchStage.workerStep, hw]
      refine .inr ⟨w, ?_⟩
      simpa only [hworker] using LaneWorker.exists_step hk.1 hxdone
  | _ => cases hh

/-- The measure of batch `i`. -/
def remaining (s : State T) (i : ℕ) : ℕ :=
  match s.batches[i]? with
  | some b => b.stage.remaining s.scheduler.laneCount b.count.toNat
  | none => 0

theorem remaining_of_locking {s : State T} {i : ℕ} {b : RunManyClassified T}
    (hi : s.batches[i]? = some b) (hstage : b.stage = .locking) :
    s.remaining i = 23 * b.count.toNat + s.scheduler.laneCount + 5 := by
  simp only [remaining, hi, hstage, BatchStage.remaining, roundSteps]
  omega

theorem step_remaining {n : UInt64} {now : Instant} {s t : State T} {a : Action T} {i : ℕ}
    {b : RunManyClassified T} (hr : Reachable n now s) (hi : s.batches[i]? = some b)
    (h : s.step a = some t) : t.remaining i + (a.ownedBy i).toNat ≤ s.remaining i := by
  have hk := hr.batches_kept b (List.mem_of_getElem? hi)
  obtain ⟨stage, hi', hstage⟩ := step_batch h hi
  simp only [remaining, hi, hi', step_laneCount h]
  rcases hstage with ⟨hother, rfl⟩ | ⟨rfl, hown⟩ | ⟨w, e, rfl, hown⟩
  · simp [hother]
  · have := BatchStage.step_remaining hk hown
    simp only [Action.ownedBy, beq_self_eq_true, Bool.toNat_true]
    omega
  · have := BatchStage.workerStep_remaining s.scheduler.laneCount hown
    simp only [Action.ownedBy, beq_self_eq_true, Bool.toNat_true]
    omega

theorem ownSteps_le_remaining {n : UInt64} {now : Instant} {s t : State T} {as : List (Action T)}
    {i : ℕ} {b : RunManyClassified T} (hr : Reachable n now s) (hi : s.batches[i]? = some b)
    (h : s.exec as = some t) : tally (Action.ownedBy i) as ≤ s.remaining i := by
  have hpay := Transition.exec_potential (f := fun s : State T => s.remaining i)
    (w := fun a => (Action.ownedBy i a).toNat)
    (fun s => Reachable n now s ∧ ∃ b, s.batches[i]? = some b) ?_ ?_ ⟨hr, b, hi⟩ h
  · exact (Nat.le_add_left _ _).trans hpay
  · rintro s a t ⟨hr, b, hi⟩ hs
    obtain ⟨stage, hi', -⟩ := step_batch hs hi
    exact ⟨Transition.Reachable.after hr hs, _, hi'⟩
  · rintro s a t ⟨hr, b, hi⟩ hs
    exact step_remaining hr hi hs

end State

end PitBox.Scheduler
