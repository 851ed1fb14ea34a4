import PitBox.Scheduler.Bookkeeping

/-!
# Lane exclusivity across the two APIs

The single-task API guards a lane by its slot, the batch API by the batch lock
and the worker of that lane; neither looks at the other's guard. Each guard is
exclusive in itself. A lane is therefore exclusive in every run in which the
two never hand out the same lane at the same time, and a run in which they do
puts two task closures on one lane.
-/

namespace PitBox.Scheduler

open Table Ledger

variable {T : Type}

/-- One when the worker of lane `l` is executing its task closure. -/
def RunManyClassified.executingOn (b : RunManyClassified T) (l : LaneId) : ℕ :=
  (b.stage.workers[l]?.any LaneWorker.executing?).toNat

/-- The next step of worker `w` takes a job. -/
def RunManyClassified.takesJob (b : RunManyClassified T) (w : ℕ) : Bool :=
  match b.stage with
  | .working m ws =>
    match ws[w]? with
    | some .claiming => m.nextExecution < b.count.toNat
    | _ => false
  | _ => false

def RunManyClassified.executing (b : RunManyClassified T) : ℕ :=
  tally LaneWorker.executing? b.stage.workers

namespace State

def executingOn (s : State T) (l : LaneId) : ℕ :=
  total (Slots.owns RunOneObserved.executing? l) s.calls + total (·.executingOn l) s.batches

def executing (s : State T) : ℕ :=
  tally (·.executing?.isSome) s.calls + total RunManyClassified.executing s.batches

/-- Each lane has at most one task closure executing on it, and there are at
most as many executing as there are lanes. -/
def LanesExclusive (s : State T) : Prop :=
  (∀ l, s.executingOn l ≤ 1) ∧ s.executing ≤ s.scheduler.laneCount

/-- A label at which neither API hands out a lane the other is using: the lane
a call is about to take has no worker with a job, and the worker about to take
a job is not that of a lane a call in progress owns. -/
def SharesNoLane (s : State T) : Action T → Prop
  | .call i _ =>
    match s.calls[i]?, s.scheduler.freeLane with
    | some (.waiting _ .scanning), some l => ∀ b ∈ s.batches, b.busyOn l = false
    | _, _ => True
  | .worker i w _ => ∀ b ∈ s.batches[i]?, b.takesJob w = true → ∀ c ∈ s.calls, c.lane? ≠ some w
  | _ => True

instance (s : State T) (a : Action T) : Decidable (s.SharesNoLane a) := by
  unfold SharesNoLane
  split
  · split <;> infer_instance
  · infer_instance
  · infer_instance

/-- No lane is used by both APIs. -/
def LanesApart (s : State T) : Prop :=
  ∀ c ∈ s.calls, ∀ l, c.lane? = some l → ∀ b ∈ s.batches, b.busyOn l = false

end State

theorem RunOneObserved.step_lane {now : Instant} {p p' : PitScheduler} {e : Choice T}
    {c c' : RunOneObserved T} {l : LaneId} (h : c.step now p e = some (p', c'))
    (hl : c'.lane? = some l) :
    c.lane? = some l ∨ (∃ k, c = .waiting k .scanning) ∧ p.freeLane = some l := by
  revert h hl
  fun_cases step now p c e <;> intro h hl <;> cases h <;> simp_all [lane?]

theorem LaneWorker.step_busy {now : Instant} {p p' : PitScheduler} {e : Choice T} {count : ℕ}
    {classify : T → Option String} {lane : LaneId} {m m' : BatchMemory T} {w w' : LaneWorker T}
    (h : w.step now count classify lane p m e = some (p', m', w')) (hw : w'.busy = true) :
    w.busy = true ∨ w = .claiming ∧ m.nextExecution < count := by
  revert h hw
  fun_cases LaneWorker.step now count classify lane p m w e <;> intro h hw <;> cases h
  all_goals first
    | exact .inl rfl
    | exact .inr ⟨rfl, by omega⟩
    | cases hw

namespace RunOneObserved

variable {c : RunOneObserved T} {l : LaneId}

theorem slot_of_lane (h : c.lane? = some l) : c.slot? = some l := by
  revert h
  fun_cases lane? c <;> simp [slot?]

theorem lane_of_executing (h : c.executing? = some l) : c.lane? = some l := by
  revert h
  fun_cases executing? c <;> simp [lane?]

theorem slot_of_executing (h : c.executing? = some l) : c.slot? = some l :=
  slot_of_lane (lane_of_executing h)

end RunOneObserved

theorem RunManyClassified.executingOn_le_busyOn (b : RunManyClassified T) (l : LaneId) :
    b.executingOn l ≤ (b.busyOn l).toNat := by
  unfold executingOn busyOn
  cases h : b.stage.workers[l]? with
  | none => rfl
  | some w => cases w <;> simp [LaneWorker.executing?, LaneWorker.busy]

theorem RunManyClassified.executingOn_le_holds (b : RunManyClassified T) (l : LaneId) :
    b.executingOn l ≤ b.holdsRunLock.toNat := by
  unfold executingOn holdsRunLock
  cases b.stage with
  | working m ws => exact Bool.toNat_le _
  | _ => exact Nat.zero_le _

namespace State

theorem lanesApart_fresh (n : UInt64) (now : Instant) : (fresh n now : State T).LanesApart := by
  simp [LanesApart, fresh]

theorem LanesApart.step {s t : State T} {a : Action T} (h : s.LanesApart)
    (ha : s.SharesNoLane a) (hs : s.step a = some t) : t.LanesApart := by
  cases step_cases hs with
  | tick d => exact h
  | runOneObserved =>
    intro c hc l hl b hb
    rcases List.mem_append.mp hc with hc | hc
    · exact h c hc l hl b hb
    · obtain rfl := List.mem_singleton.mp hc
      cases hl
  | call hi hc =>
    intro d hd l hl b hb
    rcases List.mem_or_eq_of_mem_set hd with hd | rfl
    · exact h d hd l hl b hb
    · rcases RunOneObserved.step_lane hc hl with hl | ⟨⟨k, rfl⟩, hfree⟩
      · exact h _ (List.mem_of_getElem? hi) l hl b hb
      · simp only [SharesNoLane, hi, hfree] at ha
        exact ha b hb
  | notifyNobody hi hnone =>
    intro d hd l hl b hb
    rcases List.mem_or_eq_of_mem_set hd with hd | rfl
    · exact h d hd l hl b hb
    · cases hl
  | notify hij hi hj hj' =>
    intro d hd l hl b hb
    rcases List.mem_or_eq_of_mem_set hd with hd | rfl
    · rcases List.mem_or_eq_of_mem_set hd with hd | rfl
      · exact h d hd l hl b hb
      · cases hl
    · cases hl
  | runManyClassified count classify =>
    intro c hc l hl b hb
    rcases List.mem_append.mp hb with hb | hb
    · exact h c hc l hl b hb
    · obtain rfl := List.mem_singleton.mp hb
      unfold RunManyClassified.busyOn RunManyClassified.enter
      split_ifs <;> rfl
  | batch hi hb =>
    intro c hc l hl d hd
    rcases List.mem_or_eq_of_mem_set hd with hd | rfl
    · exact h c hc l hl d hd
    · rcases BatchStage.step_workers hb with hw | hw
      · simp [RunManyClassified.busyOn, hw]
      · simp only [RunManyClassified.busyOn, hw, List.getElem?_replicate]
        split_ifs <;> rfl
  | @worker i w e b p stage hi hw =>
    intro c hc l hl d hd
    rcases List.mem_or_eq_of_mem_set hd with hd | rfl
    · exact h c hc l hl d hd
    · obtain ⟨m, ws, x, m', x', hstage, hx, hstep, rfl⟩ := BatchStage.workerStep_cases hw
      have hold := h c hc l hl b (List.mem_of_getElem? hi)
      simp only [RunManyClassified.busyOn, hstage, BatchStage.workers] at hold ⊢
      by_cases hlw : l = w
      · subst hlw
        rw [hx] at hold
        rw [List.getElem?_set_self (List.getElem?_eq_some_iff.mp hx).1]
        refine Bool.eq_false_iff.mpr fun hbusy => ?_
        rcases LaneWorker.step_busy hstep hbusy with hbusy | ⟨rfl, hcursor⟩
        · rw [show Option.any LaneWorker.busy (some x) = x.busy from rfl, hbusy] at hold
          cases hold
        · refine ha b hi ?_ c hc hl
          simpa [RunManyClassified.takesJob, hstage, hx] using hcursor
      · rwa [List.getElem?_set_ne (Ne.symm hlw)]

/-! ### From apart to exclusive -/

/-- One lane at a time, when the two APIs keep apart. -/
theorem executingOn_le_one {s : State T} (h : s.Bookkeeping) (ha : s.LanesApart) (l : LaneId) :
    s.executingOn l ≤ 1 := by
  have hcalls : total (Slots.owns RunOneObserved.executing? l) s.calls ≤ 1 :=
    (total_le_total fun c _ => Slots.owns_le_owns RunOneObserved.slot_of_executing).trans
      (h.slots.total_owns_le_one l)
  have hbatches : total (·.executingOn l) s.batches ≤ 1 := by
    refine (total_le_total fun b _ => b.executingOn_le_holds l).trans ?_
    exact (show tally RunManyClassified.holdsRunLock s.batches = _ from h.runLock).trans_le
      (Bool.toNat_le _)
  rcases Nat.eq_zero_or_pos (total (Slots.owns RunOneObserved.executing? l) s.calls) with h₀ | hpos
  · simp only [executingOn, h₀]
    omega
  · obtain ⟨c, hc, hexec⟩ := exists_of_total_pos hpos
    have hlane : c.lane? = some l :=
      RunOneObserved.lane_of_executing (Slots.owns_pos.mp hexec)
    have hidle : total (·.executingOn l) s.batches = 0 := by
      refine total_eq_zero.mpr fun b hb => ?_
      have := b.executingOn_le_busyOn l
      rw [ha c hc l hlane b hb] at this
      exact Nat.le_zero.mp this
    simp only [executingOn, hidle]
    omega

theorem executing_eq_sum {s : State T} (h : s.Bookkeeping) :
    s.executing = ∑ l ∈ Finset.range s.scheduler.laneCount, s.executingOn l := by
  simp only [executing, executingOn, Finset.sum_add_distrib, sum_total]
  congr 1
  · refine total_congr fun c hc => (Slots.sum_owns fun l hl => ?_).symm
    rw [← h.lanes_length]
    exact h.slots.owner_lt hc (RunOneObserved.slot_of_executing hl)
  · refine total_congr fun b hb => (sum_any_getElem? _ ?_).symm
    rcases h.workers_length b hb with hlen | hlen
    · rw [hlen]
      exact Nat.zero_le _
    · exact hlen.le

theorem exec_lanesExclusive {n : UInt64} {now : Instant} {as : List (Action T)} {s : State T}
    (h : exec (fresh n now) as = some s)
    (hapart : Transition.Along State.step SharesNoLane (fresh n now) as) : s.LanesExclusive := by
  have hs : s.Bookkeeping ∧ s.LanesApart := by
    refine Transition.exec_invariant (I := fun s => Bookkeeping s ∧ LanesApart s) ?_
      ⟨bookkeeping_fresh n now, lanesApart_fresh n now⟩ hapart h
    exact fun s a t hs ha hstep => ⟨hs.1.step hstep, hs.2.step ha hstep⟩
  have hone := executingOn_le_one hs.1 hs.2
  refine ⟨hone, ?_⟩
  calc s.executing = ∑ l ∈ Finset.range s.scheduler.laneCount, s.executingOn l :=
        executing_eq_sum hs.1
    _ ≤ ∑ _l ∈ Finset.range s.scheduler.laneCount, 1 := Finset.sum_le_sum fun l _ => hone l
    _ = s.scheduler.laneCount := by simp

/-- A call runs on the first lane when worker `w` of a batch takes a job. -/
def mixedRun (w : ℕ) : List (Action Unit) :=
  [[.runOneObserved], List.replicate 8 (.call 0 .go), [.call 0 (.start 0)],
    [.runManyClassified 1 fun _ => none], List.replicate 7 (.batch 0),
    List.replicate 6 (.worker 0 w .go), [.worker 0 w (.start 0)]].flatten

theorem exec_lanesExclusive_mixedRun :
    ∃ s : State Unit, exec (fresh 2 0) (mixedRun 1) = some s ∧ s.executing = 2 ∧
      s.LanesExclusive := by
  have heval : (exec (fresh 2 0) (mixedRun 1)).map executing = some 2 := by decide +kernel
  obtain ⟨s, hs, hexec⟩ := Option.map_eq_some_iff.mp heval
  exact ⟨s, hs, hexec, exec_lanesExclusive hs (by decide +kernel)⟩

theorem mixedRun_not_lanesExclusive :
    ¬ ∀ (n : UInt64) (now : Instant) (as : List (Action Unit)) (s : State Unit), n ≠ 0 →
      exec (fresh n now) as = some s → s.LanesExclusive := by
  intro h
  have heval : (exec (fresh 1 0) (mixedRun 0)).map (·.executingOn 0) = some 2 := by
    decide +kernel
  obtain ⟨s, hs, htwo⟩ := Option.map_eq_some_iff.mp heval
  have hone := (h 1 0 (mixedRun 0) s (by decide) hs).1 0
  omega

end State

end PitBox.Scheduler
