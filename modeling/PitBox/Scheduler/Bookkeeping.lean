import PitBox.Scheduler.Steps

/-!
# Bookkeeping of the shared lanes

The equations between the shared memory and the threads that hold in every
state any interleaving reaches, whatever the closures do: the slot vector
records who has taken a slot, the mutex and the batch lock have at most one
holder, and the two counters count. A call that unwinds stays in the books
with the slot it never gave back.
-/

namespace PitBox.Scheduler

open Table Ledger

variable {T : Type}

namespace State

/-- What holds in every reachable state. -/
structure Bookkeeping (s : State T) : Prop where
  lanes_length : s.scheduler.sharedLanes.length = s.scheduler.laneCount
  slots : Slots.Consistent s.scheduler.sharedLanes RunOneObserved.slot? s.calls
  mutex : Exclusive s.scheduler.sharedMutex RunOneObserved.holdsMutex s.calls
  waiting : Tracks s.scheduler.sharedWaiting (tally RunOneObserved.counted s.calls)
  active : Tracks s.scheduler.sharedActive (tally RunOneObserved.active s.calls)
  runLock : Exclusive s.scheduler.runLock RunManyClassified.holdsRunLock s.batches
  workers_length : ∀ b ∈ s.batches, b.stage.workers.length ∈ ({0, s.scheduler.laneCount} : Set ℕ)

theorem bookkeeping_fresh (n : UInt64) (now : Instant) : (fresh n now : State T).Bookkeeping where
  lanes_length := List.length_replicate
  slots := .empty _
  mutex := rfl
  waiting := rfl
  active := rfl
  runLock := rfl
  workers_length := by simp [fresh]

/-- Threads of the single-task API never look at a batch. -/
theorem Bookkeeping.of_calls {s : State T} (h : s.Bookkeeping) {p : PitScheduler}
    {calls : List (RunOneObserved T)} (hcount : p.laneCount = s.scheduler.laneCount)
    (hlock : p.runLock = s.scheduler.runLock)
    (lanes_length : p.sharedLanes.length = s.scheduler.sharedLanes.length)
    (slots : Slots.Consistent p.sharedLanes RunOneObserved.slot? calls)
    (mutex : Exclusive p.sharedMutex RunOneObserved.holdsMutex calls)
    (waiting : Tracks p.sharedWaiting (tally RunOneObserved.counted calls))
    (active : Tracks p.sharedActive (tally RunOneObserved.active calls)) :
    ({ s with scheduler := p, calls } : State T).Bookkeeping where
  lanes_length := by rw [lanes_length, hcount, h.lanes_length]
  slots := slots
  mutex := mutex
  waiting := waiting
  active := active
  runLock := by
    rw [hlock]
    exact h.runLock
  workers_length := by
    rw [hcount]
    exact h.workers_length

theorem Bookkeeping.replace {s : State T} (h : s.Bookkeeping) {i : ℕ} {c c' : RunOneObserved T}
    (hi : s.calls[i]? = some c) (hslot : c'.slot? = c.slot?)
    (hmutex : c'.holdsMutex = c.holdsMutex) (hcounted : c'.counted = c.counted)
    (hactive : c'.active = c.active) :
    ({ s with calls := s.calls.set i c' } : State T).Bookkeeping :=
  h.of_calls rfl rfl rfl (h.slots.keep hi hslot) (h.mutex.move hi (.keep hmutex))
    (h.waiting.of_eq (tally_set_eq hi hcounted)) (h.active.of_eq (tally_set_eq hi hactive))

/-- Threads of the batch API never look at the slots. -/
theorem Bookkeeping.of_batch {s : State T} (h : s.Bookkeeping) {p : PitScheduler}
    (hp : s.scheduler.SameLanes p) {i : ℕ} {b b' : RunManyClassified T}
    (hi : s.batches[i]? = some b)
    (hlock : LockMove BatchStage.holdsRunLock s.scheduler.runLock b.stage p.runLock b'.stage)
    (hlength : b'.stage.workers.length ∈ ({0, s.scheduler.laneCount} : Set ℕ)) :
    ({ s with scheduler := p, batches := s.batches.set i b' } : State T).Bookkeeping := by
  obtain ⟨hcount, hmutex, hlanes, hactive, hwaiting⟩ := hp
  constructor
  · simpa only [hcount, hlanes] using h.lanes_length
  · simpa only [hlanes] using h.slots
  · simpa only [hmutex] using h.mutex
  · simpa only [hwaiting] using h.waiting
  · simpa only [hactive] using h.active
  · exact h.runLock.move hi (LockMove.comap (f := RunManyClassified.stage) hlock)
  · intro d hd
    simp only [hcount]
    rcases List.mem_or_eq_of_mem_set hd with hd | rfl
    · exact h.workers_length d hd
    · exact hlength

theorem Bookkeeping.step {s t : State T} {a : Action T} (h : s.Bookkeeping)
    (hs : s.step a = some t) : t.Bookkeeping := by
  cases step_cases hs with
  | tick d => exact ⟨h.1, h.2, h.3, h.4, h.5, h.6, h.7⟩
  | runOneObserved =>
    refine h.of_calls rfl rfl rfl (h.slots.push rfl) (h.mutex.push rfl) ?_ ?_
    · exact h.waiting.of_eq (tally_concat _ _ _)
    · exact h.active.of_eq (tally_concat _ _ _)
  | call hi hc =>
    obtain ⟨hcount, -, hlock, -⟩ := RunOneObserved.step_frame hc
    have hmove := RunOneObserved.step_slots hc
    exact h.of_calls hcount hlock hmove.length_eq (h.slots.move hi hmove)
      (h.mutex.move hi (RunOneObserved.step_mutex hc))
      (h.waiting.move_tally hi (RunOneObserved.step_waiting hc))
      (h.active.move_tally hi (RunOneObserved.step_active hc))
  | notifyNobody hi hnone => exact h.replace hi rfl rfl rfl rfl
  | @notify i j k r t hij hi hj hj' =>
    have hnotified : ({ s with calls := s.calls.set i (.releasing k r .notified) } :
        State T).Bookkeeping := h.replace hi rfl rfl rfl rfl
    exact hnotified.replace hj' rfl rfl rfl rfl
  | runManyClassified count classify =>
    refine ⟨h.1, h.2, h.3, h.4, h.5, h.runLock.push ?_, ?_⟩
    · unfold RunManyClassified.enter RunManyClassified.holdsRunLock
      split_ifs <;> rfl
    · intro b hb
      rcases List.mem_append.mp hb with hb | hb
      · exact h.workers_length b hb
      · obtain rfl := List.mem_singleton.mp hb
        unfold RunManyClassified.enter
        split_ifs <;> exact .inl rfl
  | batch hi hb =>
    refine h.of_batch (BatchStage.step_sameLanes hb) hi ?_ ?_
    · exact BatchStage.step_runLock hb
    · rcases BatchStage.step_workers hb with hw | hw <;> simp [hw]
  | worker hi hw =>
    obtain ⟨hlanes, hlock, -, hholds⟩ := BatchStage.workerStep_frame hw
    refine h.of_batch hlanes hi ?_ ?_
    · rw [hlock]
      exact .keep hholds
    · obtain ⟨m, ws, x, m', x', hstage, -, -, rfl⟩ := BatchStage.workerStep_cases hw
      have := h.workers_length _ (List.mem_of_getElem? hi)
      rw [hstage] at this
      simpa [BatchStage.workers] using this

theorem Reachable.bookkeeping {n : UInt64} {now : Instant} {s : State T}
    (h : Reachable n now s) : s.Bookkeeping :=
  Transition.Reachable.invariant h (bookkeeping_fresh n now) fun _ _ _ => .step

theorem step_laneCount {s t : State T} {a : Action T} (hs : s.step a = some t) :
    t.scheduler.laneCount = s.scheduler.laneCount := by
  cases step_cases hs with
  | call hi hc => exact (RunOneObserved.step_frame hc).1
  | batch hi hb => exact (BatchStage.step_sameLanes hb).1
  | worker hi hw => exact (BatchStage.workerStep_frame hw).1.1
  | _ => rfl

theorem Reachable.laneCount {n : UInt64} {now : Instant} {s : State T}
    (h : Reachable n now s) : s.scheduler.laneCount = n.toNat :=
  Transition.Reachable.invariant (I := fun s => s.scheduler.laneCount = n.toNat) h rfl
    fun _ _ _ hs hstep => (step_laneCount hstep).trans hs

end State

end PitBox.Scheduler
