import PitBox.Foundations.Ledger
import PitBox.Scheduler.System

/-!
# What one step of a single-task call does

The step function of `run_one_observed` is taken apart here once: what it does
to the slots, to the mutex, to each counter and to the wait queue, and what it
leaves alone. Everything later is derived from these lemmas.
-/

namespace PitBox.Scheduler

open Table Ledger Foundations

variable {T : Type} {now : Instant} {p p' : PitScheduler} {e : Choice T}

namespace RunOneObserved

variable {c c' : RunOneObserved T}

theorem step_frame (h : c.step now p e = some (p', c')) :
    p'.laneCount = p.laneCount ∧ p'.nextExecutionId = p.nextExecutionId ∧
      p'.runLock = p.runLock ∧ c'.executionId = c.executionId := by
  revert h
  fun_cases step now p c e <;> intro h <;> cases h <;> simp [executionId]

theorem step_slots (h : c.step now p e = some (p', c')) :
    Slots.Move slot? p.sharedLanes c p'.sharedLanes c' := by
  revert h
  fun_cases step now p c e <;> intro h <;> cases h
  all_goals first
    | exact .keep rfl
    | exact .release _ rfl rfl
    | exact .assign _ _ (PitScheduler.freeLane_some ‹_›) rfl rfl

theorem step_mutex (h : c.step now p e = some (p', c')) :
    LockMove holdsMutex p.sharedMutex c p'.sharedMutex c' := by
  revert h
  fun_cases step now p c e <;> intro h <;> cases h
  all_goals first
    | exact .keep rfl
    | exact .release rfl rfl
    | (rw [Bool.not_eq_true] at *; simp only [*]; exact .acquire rfl rfl)

theorem step_waiting (h : c.step now p e = some (p', c')) :
    CountMove counted p.sharedWaiting 0 c p'.sharedWaiting 0 c' := by
  revert h
  fun_cases step now p c e <;> intro h <;> cases h
  all_goals first
    | exact .keep rfl
    | exact .raise rfl
    | exact .lower rfl

theorem step_active (h : c.step now p e = some (p', c')) :
    CountMove active p.sharedActive 0 c p'.sharedActive 0 c' := by
  revert h
  fun_cases step now p c e <;> intro h <;> cases h
  all_goals first
    | exact .keep rfl
    | exact .raise rfl
    | exact .lower rfl

/-- The counts of the monitor move as one process moves, provided a slot the
call still holds is indeed occupied. -/
theorem step_monitor (hslot : ∀ l, c.slot? = some l → Slots.occupied p.sharedLanes l = 1)
    (h : c.step now p e = some (p', c')) :
    Monitor.Move (Slots.free p.sharedLanes) c.phase (Slots.free p'.sharedLanes) c'.phase := by
  revert h hslot
  fun_cases step now p c e <;> intro hslot h <;> cases h
  all_goals first
    | exact .stay
    | exact .enter
    | exact .wake
    | skip
  · -- a free slot was found
    rw [← Slots.free_assign (PitScheduler.freeLane_some ‹_›) _]
    exact .take
  · -- no free slot
    rw [PitScheduler.freeLane_none.mp ‹_›]
    exact .sleep
  · -- a woken call takes the mutex again, notified or not
    rename_i notified _
    cases notified
    · exact .enter
    · exact .reenter
  · -- the slot is cleared and the notification still owed
    rw [Slots.free_release (hslot _ rfl)]
    exact .give

end RunOneObserved

/-! ### Batches -/

/-- The part of the shared memory the single-task API works on. -/
def PitScheduler.SameLanes (p p' : PitScheduler) : Prop :=
  p'.laneCount = p.laneCount ∧ p'.sharedMutex = p.sharedMutex ∧
    p'.sharedLanes = p.sharedLanes ∧ p'.sharedActive = p.sharedActive ∧
    p'.sharedWaiting = p.sharedWaiting

theorem LaneWorker.step_scheduler {count : ℕ} {classify : T → Option String} {lane : LaneId}
    {m m' : BatchMemory T} {w w' : LaneWorker T}
    (h : w.step now count classify lane p m e = some (p', m', w')) :
    p' = p ∨ ∃ d, p' = p.addBusy d := by
  revert h
  fun_cases LaneWorker.step now count classify lane p m w e <;> intro h <;> cases h
  all_goals first
    | exact .inl rfl
    | exact .inr ⟨_, rfl⟩

namespace BatchStage

variable {count : UInt64} {classify : T → Option String} {w : ℕ} {b b' : BatchStage T}

theorem step_sameLanes (h : b.step now count p = some (p', b')) : p.SameLanes p' := by
  revert h
  fun_cases step now count p b <;> intro h <;> cases h <;> simp [PitScheduler.SameLanes]

theorem step_runLock (h : b.step now count p = some (p', b')) :
    LockMove holdsRunLock p.runLock b p'.runLock b' := by
  revert h
  fun_cases step now count p b <;> intro h <;> cases h
  all_goals first
    | exact .keep rfl
    | exact .release rfl rfl
    | (rw [Bool.not_eq_true] at *; simp only [*]; exact .acquire rfl rfl)

theorem step_workers (h : b.step now count p = some (p', b')) :
    b'.workers = [] ∨ b'.workers = List.replicate p.laneCount .claiming := by
  revert h
  fun_cases step now count p b <;> intro h <;> cases h
  all_goals first
    | exact .inl rfl
    | exact .inr rfl

theorem workerStep_cases (h : b.workerStep now count classify p w e = some (p', b')) :
    ∃ m ws x m' x', b = .working m ws ∧ ws[w]? = some x ∧
      x.step now count.toNat classify w p m e = some (p', m', x') ∧
      b' = .working m' (ws.set w x') := by
  revert h
  fun_cases workerStep now count classify p w e b
  · rename_i m ws
    intro h
    obtain ⟨x, hx, h⟩ := Option.bind_eq_some_iff.mp h
    obtain ⟨⟨p₁, m', x'⟩, hs, h⟩ := Option.map_eq_some_iff.mp h
    cases h
    exact ⟨m, ws, x, m', x', rfl, hx, hs, rfl⟩
  · intro h
    cases h

theorem workerStep_frame (h : b.workerStep now count classify p w e = some (p', b')) :
    p.SameLanes p' ∧ p'.runLock = p.runLock ∧ p'.nextExecutionId = p.nextExecutionId ∧
      b'.holdsRunLock = b.holdsRunLock := by
  obtain ⟨m, ws, x, m', x', rfl, -, hs, rfl⟩ := workerStep_cases h
  rcases LaneWorker.step_scheduler hs with rfl | ⟨d, rfl⟩ <;>
    simp [PitScheduler.SameLanes, holdsRunLock]

end BatchStage

namespace State

/-- The steps of the system, one constructor for each kind of thread. -/
inductive Step (s : State T) : Action T → State T → Prop
  | tick (duration : Duration) : Step s (.tick duration) { s with now := s.now + duration }
  | runOneObserved : Step s .runOneObserved { s with
      scheduler := { s.scheduler with nextExecutionId := s.scheduler.nextExecutionId + 1 }
      calls := s.calls ++ [.waiting ⟨s.scheduler.nextId, s.now⟩ .numbered] }
  | call {i e c p c'} (hi : s.calls[i]? = some c)
      (h : c.step s.now s.scheduler e = some (p, c')) :
      Step s (.call i e) { s with scheduler := p, calls := s.calls.set i c' }
  | notifyNobody {i k r} (hi : s.calls[i]? = some (.releasing k r .deactivated))
      (hnone : tally RunOneObserved.asleep s.calls = 0) :
      Step s (.notifyOne i none) { s with calls := s.calls.set i (.releasing k r .notified) }
  | notify {i j k r t} (hij : i ≠ j) (hi : s.calls[i]? = some (.releasing k r .deactivated))
      (hj : s.calls[j]? = some (.waiting t .asleep))
      (hj' : (s.calls.set i (.releasing k r .notified))[j]? = some (.waiting t .asleep)) :
      Step s (.notifyOne i (some j)) { s with
        calls := (s.calls.set i (.releasing k r .notified)).set j (.waiting t (.woken true)) }
  | runManyClassified (count : UInt64) (classify : T → Option String) :
      Step s (.runManyClassified count classify)
        { s with batches := s.batches ++ [.enter count classify] }
  | batch {i b p stage} (hi : s.batches[i]? = some b)
      (h : b.stage.step s.now b.count s.scheduler = some (p, stage)) :
      Step s (.batch i) { s with scheduler := p, batches := s.batches.set i { b with stage } }
  | worker {i w e b p stage} (hi : s.batches[i]? = some b)
      (h : b.stage.workerStep s.now b.count b.classify s.scheduler w e = some (p, stage)) :
      Step s (.worker i w e)
        { s with scheduler := p, batches := s.batches.set i { b with stage } }

theorem step_cases {s t : State T} {a : Action T} (h : s.step a = some t) : Step s a t := by
  cases a with
  | tick d =>
    cases h
    exact .tick d
  | runOneObserved =>
    cases h
    exact .runOneObserved
  | call i e =>
    obtain ⟨c, hi, h⟩ := Option.bind_eq_some_iff.mp h
    obtain ⟨⟨p, c'⟩, hs, rfl⟩ := Option.map_eq_some_iff.mp h
    exact .call hi hs
  | notifyOne i target =>
    simp only [step] at h
    revert h
    fun_cases notifyOne s i target <;> intro h <;> cases h
    · exact .notifyNobody ‹_› ‹_›
    · rename_i j k r t hj hi
      have hij : i ≠ j := by
        rintro rfl
        cases hi.symm.trans hj
      exact .notify hij hi hj (by rwa [List.getElem?_set_ne hij])
  | runManyClassified count classify =>
    cases h
    exact .runManyClassified count classify
  | batch i =>
    obtain ⟨b, hi, h⟩ := Option.bind_eq_some_iff.mp h
    obtain ⟨⟨p, b'⟩, hs, rfl⟩ := Option.map_eq_some_iff.mp h
    obtain ⟨⟨p, stage⟩, hstage, hb⟩ := Option.map_eq_some_iff.mp hs
    cases hb
    exact .batch hi hstage
  | worker i w e =>
    obtain ⟨b, hi, h⟩ := Option.bind_eq_some_iff.mp h
    obtain ⟨⟨p, b'⟩, hs, rfl⟩ := Option.map_eq_some_iff.mp h
    obtain ⟨⟨p, stage⟩, hstage, hb⟩ := Option.map_eq_some_iff.mp hs
    cases hb
    exact .worker hi hstage

/-- What one step means for a batch: another thread moved, its own thread did,
or one of its workers. -/
theorem step_batch {s t : State T} {a : Action T} (h : s.step a = some t) {i : ℕ}
    {b : RunManyClassified T} (hi : s.batches[i]? = some b) :
    ∃ stage, t.batches[i]? = some { b with stage } ∧
      ((a.ownedBy i = false ∧ stage = b.stage) ∨
        (a = .batch i ∧ b.stage.step s.now b.count s.scheduler = some (t.scheduler, stage)) ∨
        ∃ w e, a = .worker i w e ∧
          b.stage.workerStep s.now b.count b.classify s.scheduler w e =
            some (t.scheduler, stage)) := by
  have hlt := (List.getElem?_eq_some_iff.mp hi).1
  cases step_cases h with
  | runManyClassified count classify =>
    exact ⟨b.stage, by rw [List.getElem?_append_left hlt, hi], .inl ⟨rfl, rfl⟩⟩
  | @batch j c p stage hj hc =>
    rcases eq_or_ne j i with rfl | hji
    · obtain rfl := Option.some.inj (hi.symm.trans hj)
      exact ⟨stage, List.getElem?_set_self hlt, .inr (.inl ⟨rfl, hc⟩)⟩
    · exact ⟨b.stage, by rw [List.getElem?_set_ne hji, hi],
        .inl ⟨by simp [Action.ownedBy, hji], rfl⟩⟩
  | @worker j w e c p stage hj hc =>
    rcases eq_or_ne j i with rfl | hji
    · obtain rfl := Option.some.inj (hi.symm.trans hj)
      exact ⟨stage, List.getElem?_set_self hlt, .inr (.inr ⟨w, e, rfl, hc⟩)⟩
    · exact ⟨b.stage, by rw [List.getElem?_set_ne hji, hi],
        .inl ⟨by simp [Action.ownedBy, hji], rfl⟩⟩
  | _ => exact ⟨b.stage, hi, .inl ⟨rfl, rfl⟩⟩

end State

end PitBox.Scheduler
