import Mathlib.Algebra.Order.Field.Rat
import PitBox.Scheduler.LaneOwnership

/-!
# Busy time and capacity

A call that runs its task owns a lane, so at no time are more tasks measured
than there are lanes. What has been counted as busy, together with what the
calls in progress have still to count, is therefore at most the time since the
scheduler was built on every lane.
-/

namespace PitBox.Scheduler

open Table Ledger

variable {T : Type}

/-! ### Utilization -/

/-- The lane time since the scheduler was built, in 128 bits. -/
def PitScheduler.capacityNanos (p : PitScheduler) (elapsedNanos : ℕ) : ℕ :=
  min (elapsedNanos * p.laneCount) (2 ^ 128 - 1)

/-- The quotient of `grid_utilization` before it is clamped. The clock has been
read before, and `round` is the rounding of `f64`. -/
def PitScheduler.gridQuotient (p : PitScheduler) (round : ℚ → ℚ) (elapsedNanos : ℕ) : ℚ :=
  round (round p.busyNanos.toNat / round (p.capacityNanos elapsedNanos))

def PitScheduler.gridUtilization (p : PitScheduler) (round : ℚ → ℚ) (elapsedNanos : ℕ) : ℚ :=
  if elapsedNanos = 0 ∨ p.laneCount = 0 then 0 else min (p.gridQuotient round elapsedNanos) 1

theorem PitScheduler.addBusy_toNat_le (p : PitScheduler) (d : Duration) :
    (p.addBusy d).busyNanos.toNat ≤ p.busyNanos.toNat + d := by
  have hclamp : (UInt64.ofNat (min d (2 ^ 64 - 1))).toNat ≤ d := by
    rw [UInt64.toNat_ofNat']
    exact (Nat.mod_le _ _).trans (min_le_left _ _)
  have hsum : (p.addBusy d).busyNanos.toNat ≤
      p.busyNanos.toNat + (UInt64.ofNat (min d (2 ^ 64 - 1))).toNat := by
    rw [addBusy, UInt64.toNat_add]
    exact Nat.mod_le _ _
  omega

/-! ### What the calls have still to count -/

namespace RunOneObserved

/-- The time that a call has measured and not counted. -/
def pendingNanos (now : Instant) : RunOneObserved T → ℕ
  | .owning _ (.running t) => now - t.timer
  | .owning _ (.ended _ duration _) => duration
  | _ => 0

variable {now : Instant} {p p' : PitScheduler} {e : Choice T} {c c' : RunOneObserved T}

theorem step_busyNanos (h : c.step now p e = some (p', c')) :
    p'.busyNanos.toNat + c'.pendingNanos now ≤ p.busyNanos.toNat + c.pendingNanos now := by
  revert h
  fun_cases step now p c e <;> intro h <;> cases h
  all_goals first
    | exact le_rfl
    | exact Nat.le_add_right _ _
    | exact p.addBusy_toNat_le _
    | simp [pendingNanos]

theorem step_createdAt (h : c.step now p e = some (p', c')) : p'.createdAt = p.createdAt := by
  revert h
  fun_cases step now p c e <;> intro h <;> cases h <;> rfl

theorem pendingNanos_add (now : Instant) (d : Duration) (c : RunOneObserved T) :
    c.pendingNanos (now + d) ≤ c.pendingNanos now + d * c.executing?.isSome.toNat := by
  unfold pendingNanos executing?
  split <;> simp
  omega

end RunOneObserved

/-! ### Runs of the single-task API -/

/-- A step of a call, whatever its closures do, or of the clock. -/
def Action.ofCalls : Action T → Bool
  | .tick _ | .runOneObserved | .call _ _ | .notifyOne _ _ => true
  | .runManyClassified _ _ | .batch _ | .worker _ _ _ => false

namespace State

theorem Bookkeeping.tally_executing_le {s : State T} (h : s.Bookkeeping) :
    tally (fun c => c.executing?.isSome) s.calls ≤ s.scheduler.laneCount := by
  have hslots := h.slots.tally_occupied
  have hfree := Slots.tally_occupied_add_free s.scheduler.sharedLanes
  have hlength := h.lanes_length
  have hle : tally (fun c => c.executing?.isSome) s.calls ≤
      tally (fun c : RunOneObserved T => c.slot?.isSome) s.calls := by
    apply total_le_total
    intro c _
    cases hlane : c.executing? with
    | none => simp [hlane]
    | some l => simp [hlane, RunOneObserved.slot_of_executing hlane]
  omega

/-- What is counted and what is pending fit into the time of the lanes. -/
structure WithinCapacity (s : State T) : Prop where
  created : s.scheduler.createdAt ≤ s.now
  paid : s.scheduler.busyNanos.toNat + total (RunOneObserved.pendingNanos s.now) s.calls ≤
    s.scheduler.laneCount * (s.now - s.scheduler.createdAt)

theorem withinCapacity_fresh (n : UInt64) (now : Instant) :
    (fresh n now : State T).WithinCapacity where
  created := le_rfl
  paid := by simp [fresh, PitScheduler.withLanes]

theorem WithinCapacity.replace {s : State T} (h : s.WithinCapacity) {i : ℕ}
    {c c' : RunOneObserved T} (hi : s.calls[i]? = some c)
    (hpending : c'.pendingNanos s.now = c.pendingNanos s.now) :
    ({ s with calls := s.calls.set i c' } : State T).WithinCapacity where
  created := h.created
  paid := by simpa only [total_set_eq _ hi hpending] using h.paid

theorem WithinCapacity.step {s t : State T} {a : Action T} (h : s.WithinCapacity)
    (hbook : s.Bookkeeping) (ha : a.ofCalls = true) (hs : s.step a = some t) :
    t.WithinCapacity := by
  have hcreated := h.created
  have hpaid := h.paid
  cases step_cases hs with
  | tick d =>
    refine ⟨hcreated.trans (Nat.le_add_right _ _), ?_⟩
    have hpending : total (RunOneObserved.pendingNanos (s.now + d)) s.calls ≤
        total (RunOneObserved.pendingNanos s.now) s.calls +
          d * tally (fun c => c.executing?.isSome) s.calls := by
      rw [tally, ← total_mul, ← total_add]
      exact total_le_total fun c _ => c.pendingNanos_add s.now d
    have hexecuting := Nat.mul_le_mul_left d hbook.tally_executing_le
    have htime : s.scheduler.laneCount * (s.now + d - s.scheduler.createdAt) =
        s.scheduler.laneCount * (s.now - s.scheduler.createdAt) + d * s.scheduler.laneCount := by
      rw [Nat.sub_add_comm hcreated, mul_add, mul_comm d]
    dsimp only
    omega
  | runOneObserved =>
    refine ⟨hcreated, ?_⟩
    simpa [RunOneObserved.pendingNanos] using hpaid
  | @call i e c p c' hi hc =>
    have hcount := (RunOneObserved.step_frame hc).1
    have hcreatedAt := RunOneObserved.step_createdAt hc
    have hbusy := RunOneObserved.step_busyNanos hc
    refine ⟨hcreatedAt.trans_le hcreated, ?_⟩
    have htotal := total_set (RunOneObserved.pendingNanos s.now) (b := c') hi
    simp only [hcount, hcreatedAt]
    omega
  | notifyNobody hi hnone => exact h.replace hi rfl
  | @notify i j k r t hij hi hj hj' =>
    have hnotified : ({ s with calls := s.calls.set i (.releasing k r .notified) } :
        State T).WithinCapacity := h.replace hi rfl
    exact hnotified.replace hj' rfl
  | runManyClassified count classify => cases ha
  | batch hi hb => cases ha
  | worker hi hw => cases ha

theorem exec_withinCapacity {s t : State T} {as : List (Action T)} (hbook : s.Bookkeeping)
    (h : s.WithinCapacity) (has : ∀ a ∈ as, a.ofCalls = true) (hexec : exec s as = some t) :
    t.Bookkeeping ∧ t.WithinCapacity := by
  have hcalls : Transition.Along step (fun _ a => a.ofCalls = true) s as :=
    Transition.along_of_forall (fun _ => has) s
  refine Transition.exec_invariant (I := fun s : State T => s.Bookkeeping ∧ s.WithinCapacity)
    ?_ ⟨hbook, h⟩ hcalls hexec
  rintro s a t ⟨hbook, h⟩ ha hstep
  exact ⟨hbook.step hstep, h.step hbook ha hstep⟩

theorem WithinCapacity.busyNanos_le {s : State T} (h : s.WithinCapacity) :
    s.scheduler.busyNanos.toNat ≤
      s.scheduler.laneCount * (s.now - s.scheduler.createdAt) :=
  (Nat.le_add_right _ _).trans h.paid

end State

/-- A quotient of at most one is rounded to one at most. -/
theorem PitScheduler.gridQuotient_le_one {p : PitScheduler} {elapsedNanos : ℕ} {round : ℚ → ℚ}
    (hround : Monotone round) (hone : round 1 = 1)
    (h : p.busyNanos.toNat ≤ p.laneCount * elapsedNanos) :
    p.gridQuotient round elapsedNanos ≤ 1 := by
  have hcapacity : p.busyNanos.toNat ≤ p.capacityNanos elapsedNanos := by
    rw [capacityNanos, mul_comm]
    exact le_min h (p.busyNanos.toNat_lt.le.trans (by decide))
  have hle : round p.busyNanos.toNat ≤ round (p.capacityNanos elapsedNanos) :=
    hround (Nat.cast_le.mpr hcapacity)
  have hquotient : round p.busyNanos.toNat / round (p.capacityNanos elapsedNanos) ≤ 1 := by
    rcases Nat.eq_zero_or_pos (p.capacityNanos elapsedNanos) with hzero | hpos
    · have hbusy : p.busyNanos.toNat = 0 := by
        rw [hzero] at hcapacity
        exact Nat.le_zero.mp hcapacity
      rw [hzero, hbusy]
      exact div_self_le_one _
    · have hpositive : 0 < round (p.capacityNanos elapsedNanos) := by
        have hge := hround (show (1 : ℚ) ≤ p.capacityNanos elapsedNanos from
          Nat.one_le_cast.mpr hpos)
        rw [hone] at hge
        exact one_pos.trans_le hge
      exact (div_le_one hpositive).mpr hle
  rw [gridQuotient, ← hone]
  exact hround hquotient

theorem PitScheduler.gridUtilization_eq {p : PitScheduler} {elapsedNanos : ℕ} {round : ℚ → ℚ}
    (hround : Monotone round) (hone : round 1 = 1)
    (h : p.busyNanos.toNat ≤ p.laneCount * elapsedNanos) :
    p.gridUtilization round elapsedNanos =
      if elapsedNanos = 0 ∨ p.laneCount = 0 then 0 else p.gridQuotient round elapsedNanos := by
  rw [gridUtilization, min_eq_left (gridQuotient_le_one hround hone h)]

namespace State

/-- In every state that calls reach, the busy time is at most that of all lanes
since the scheduler was built. The clamp changes nothing, also when calls go on
between the reading of the clock and the load of the counter, as long as no time
passes there; otherwise see `clamp_hides_surplus`. -/
theorem exec_busyNanos_le {n : UInt64} {now : Instant} {as : List (Action T)} {s : State T}
    (h : exec (fresh n now) as = some s) (has : ∀ a ∈ as, a.ofCalls = true) :
    s.scheduler.busyNanos.toNat ≤ n.toNat * (s.now - s.scheduler.createdAt) ∧
      ∀ bs t, exec s bs = some t → (∀ a ∈ bs, a.ofCalls = true) → t.now = s.now →
        ∀ round : ℚ → ℚ, Monotone round → round 1 = 1 →
          t.scheduler.gridUtilization round (s.now - t.scheduler.createdAt) =
            if s.now - t.scheduler.createdAt = 0 ∨ t.scheduler.laneCount = 0 then 0
            else t.scheduler.gridQuotient round (s.now - t.scheduler.createdAt) := by
  obtain ⟨hbook, hwithin⟩ :=
    exec_withinCapacity (bookkeeping_fresh n now) (withinCapacity_fresh n now) has h
  have hcount : s.scheduler.laneCount = n.toNat := Reachable.laneCount ⟨as, h⟩
  refine ⟨hcount ▸ hwithin.busyNanos_le, ?_⟩
  intro bs t hexec hbs hnow round hround hone
  obtain ⟨-, hlater⟩ := exec_withinCapacity hbook hwithin hbs hexec
  rw [← hnow]
  exact PitScheduler.gridUtilization_eq hround hone hlater.busyNanos_le

/-- One of two lanes is busy for four of eight nanoseconds, and the other one
does not come to the end of its task. -/
def busyRun : List (Action Unit) :=
  [[.runOneObserved, .runOneObserved], List.replicate 8 (.call 0 .go),
    List.replicate 8 (.call 1 .go), [.call 0 (.start 0), .call 1 (.start 0), .tick 4,
      .call 0 (.finish (.ok ())), .call 0 .go, .tick 4]].flatten

/-- What `grid_utilization` sees of a state. -/
def gridReading (s : State Unit) : Instant × Instant × ℕ × UInt64 :=
  (s.now, s.scheduler.createdAt, s.scheduler.laneCount, s.scheduler.busyNanos)

theorem exec_busyNanos_le_busyRun : ∃ s t : State Unit, exec (fresh 2 0) busyRun = some s ∧
    s.exec [.call 1 .unwind] = some t ∧ s.scheduler.busyNanos.toNat ≤ 2 * 8 ∧
      t.scheduler.gridUtilization id 8 = 1 / 4 := by
  have heval : (exec (fresh 2 0) busyRun).map gridReading = some (8, 0, 2, 4) := by decide +kernel
  have heval' : (exec (fresh 2 0) (busyRun ++ [.call 1 .unwind])).map gridReading =
      some (8, 0, 2, 4) := by decide +kernel
  obtain ⟨s, hs, heq⟩ := Option.map_eq_some_iff.mp heval
  obtain ⟨t, ht, heq'⟩ := Option.map_eq_some_iff.mp heval'
  rw [exec, Transition.exec_append, ← exec, hs] at ht
  simp only [gridReading, Prod.mk.injEq] at heq heq'
  obtain ⟨hle, hclamp⟩ := exec_busyNanos_le hs (by decide)
  have hutilization := hclamp _ t ht (by simp [Action.ofCalls]) (heq'.1.trans heq.1.symm) id
    monotone_id rfl
  rw [heq.1, heq.2.1] at hle
  rw [heq.1, heq'.2.1] at hutilization
  refine ⟨s, t, hs, ht, hle, hutilization.trans ?_⟩
  simp [PitScheduler.gridQuotient, PitScheduler.capacityNanos, heq'.2.2.1, heq'.2.2.2]
  norm_num

/-- A task of a hundred nanoseconds, up to its middle and from there to the
counting of its time. -/
def middleRun : List (Action Unit) :=
  [[.runOneObserved], List.replicate 8 (.call 0 .go), [.call 0 (.start 0), .tick 50]].flatten

def countingRun : List (Action Unit) := [.tick 50, .call 0 (.finish (.ok ())), .call 0 .go]

/-- The clock is read in the middle of the task and the counter loaded after its
end. The quotient is two, and the clamp hides it. -/
theorem clamp_hides_surplus : ∃ s t : State Unit, exec (fresh 1 0) middleRun = some s ∧
    s.exec countingRun = some t ∧ (∀ a ∈ middleRun ++ countingRun, a.ofCalls = true) ∧
      s.now - t.scheduler.createdAt = 50 ∧ t.scheduler.gridQuotient id 50 = 2 ∧
        t.scheduler.gridUtilization id 50 = 1 := by
  have heval : (exec (fresh 1 0) middleRun).map gridReading = some (50, 0, 1, 0) := by
    decide +kernel
  have heval' : (exec (fresh 1 0) (middleRun ++ countingRun)).map gridReading =
      some (100, 0, 1, 100) := by decide +kernel
  obtain ⟨s, hs, heq⟩ := Option.map_eq_some_iff.mp heval
  obtain ⟨t, ht, heq'⟩ := Option.map_eq_some_iff.mp heval'
  rw [exec, Transition.exec_append, ← exec, hs] at ht
  simp only [gridReading, Prod.mk.injEq] at heq heq'
  have hquotient : t.scheduler.gridQuotient id 50 = 2 := by
    simp [PitScheduler.gridQuotient, PitScheduler.capacityNanos, heq'.2.2.1, heq'.2.2.2]
    norm_num
  refine ⟨s, t, hs, ht, by decide, by rw [heq.1, heq'.2.1], hquotient, ?_⟩
  simp [PitScheduler.gridUtilization, hquotient, heq'.2.2.1]

end State

end PitBox.Scheduler
