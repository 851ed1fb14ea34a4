import PitBox.Foundations.HighWater
import PitBox.Scheduler.Ids
import PitBox.Scheduler.LaneReturn

/-!
# Accounting of the shared lanes

The slot vector, the two counters and the peak of the single-task API, related
to each other in every state an interleaving reaches. A slot holds the id of
the call that owns it. The active counter is raised outside the mutex and
lowered inside it, after the slot is cleared, so a call may be counted for a
moment on a slot that is free again. The peak follows the active counter in a
separate access.
-/

namespace PitBox.Scheduler

open Table Ledger HighWater

variable {T : Type}

namespace RunOneObserved

def pendingPeak? : RunOneObserved T → Option ℕ
  | .owning _ (.activated active) => some active.toNat
  | _ => none

def clearing : RunOneObserved T → Bool
  | .releasing _ _ .cleared => true
  | _ => false

/-- The call has registered as waiting and owns no slot yet. -/
def queued : RunOneObserved T → Bool
  | .waiting _ .numbered => false
  | .waiting _ _ => true
  | _ => false

def unraised (c : RunOneObserved T) : Bool := c.slot?.isSome && !c.active

variable {now : Instant} {p p' : PitScheduler} {e : Choice T} {c c' : RunOneObserved T}

theorem step_label (h : c.step now p e = some (p', c')) (hc : c.slot? = none) {l : LaneId}
    (hl : c'.slot? = some l) : p'.sharedLanes[l]? = some (some c'.executionId) := by
  revert h hc hl
  fun_cases step now p c e <;> intro h hc hl <;> cases h <;> cases hl <;> cases hc
  have hfree := PitScheduler.freeLane_some ‹_›
  exact List.getElem?_set_self (List.getElem?_eq_some_iff.mp hfree).1

theorem step_peak (h : c.step now p e = some (p', c'))
    (hraise : c.active = false → c'.active = true →
      p'.sharedActive.toNat = p.sharedActive.toNat + 1) :
    HighWater.Move active pendingPeak? p.sharedActive.toNat p.sharedPeak.toNat c
      p'.sharedPeak.toNat c' := by
  revert h hraise
  fun_cases step now p c e <;> intro h <;> cases h <;> intro hraise
  all_goals first
    | exact .keep rfl rfl
    | exact .lower rfl rfl rfl
    | skip
  · exact .raise rfl rfl rfl (congrArg some (hraise rfl rfl))
  · rename_i k active
    rw [UInt64.toNat_max]
    exact .record active.toNat rfl rfl rfl

theorem step_free (hslot : ∀ l, c.slot? = some l → Slots.occupied p.sharedLanes l = 1)
    (h : c.step now p e = some (p', c')) :
    Slots.free p'.sharedLanes = Slots.free p.sharedLanes + c'.clearing.toNat ∨
      c.holdsMutex = true ∧ c.clearing = false ∧ c'.clearing = false := by
  revert h hslot
  fun_cases step now p c e <;> intro hslot h <;> cases h
  all_goals first
    | exact .inl rfl
    | exact .inr ⟨rfl, rfl, rfl⟩
    | exact .inl (Slots.free_release (hslot _ rfl))

theorem holdsMutex_of_clearing (h : c.clearing = true) : c.holdsMutex = true := by
  revert h
  fun_cases clearing c <;> intro h
  · rfl
  · cases h

theorem step_lanes_of_unlocked (h : c.step now p e = some (p', c')) (hc : c.holdsMutex = false) :
    p'.sharedLanes = p.sharedLanes := by
  revert h hc
  fun_cases step now p c e <;> intro h hc <;> cases h <;> first | rfl | cases hc

theorem slot_of_active (h : c.active = true) : c.slot?.isSome = true ∨ c.clearing = true := by
  revert h
  fun_cases active c <;> simp [slot?, clearing]

theorem counted_of_unlocked (h : c.holdsMutex = false) : c.counted = c.queued := by
  cases c with
  | waiting k stage => cases stage <;> rfl
  | owning k stage => cases stage <;> first | rfl | cases h
  | _ => rfl

theorem slot_of_unlocked (h : c.holdsMutex = false) :
    c.slot?.isSome.toNat = c.active.toNat + c.unraised.toNat := by
  cases hactive : c.active with
  | false => simp [unraised, hactive]
  | true =>
    have hslot : c.slot?.isSome = true := by
      rcases slot_of_active hactive with hslot | hclearing
      · exact hslot
      · rw [holdsMutex_of_clearing hclearing] at h
        cases h
    simp [unraised, hactive, hslot]

end RunOneObserved

namespace BatchStage

variable {now : Instant} {p p' : PitScheduler} {e : Choice T} {count : UInt64}
  {classify : T → Option String} {w : ℕ} {b b' : BatchStage T}

theorem step_sharedPeak (h : b.step now count p = some (p', b')) :
    p'.sharedPeak = p.sharedPeak := by
  revert h
  fun_cases step now count p b <;> intro h <;> cases h <;> rfl

theorem workerStep_sharedPeak (h : b.workerStep now count classify p w e = some (p', b')) :
    p'.sharedPeak = p.sharedPeak := by
  obtain ⟨m, ws, x, m', x', -, -, hs, -⟩ := workerStep_cases h
  rcases LaneWorker.step_scheduler hs with rfl | ⟨d, rfl⟩ <;> rfl

end BatchStage

namespace State

/-- What holds of the slots beyond their ownership: they carry the ids of their
owners, and a call that has cleared its slot has left it free. -/
structure Accounted (s : State T) : Prop where
  labelled : Slots.Labelled s.scheduler.sharedLanes RunOneObserved.slot?
    RunOneObserved.executionId s.calls
  clearing_le : tally RunOneObserved.clearing s.calls ≤ Slots.free s.scheduler.sharedLanes

theorem accounted_fresh (n : UInt64) (now : Instant) : (fresh n now : State T).Accounted where
  labelled := by simp [Slots.Labelled, fresh]
  clearing_le := by simp [fresh]

theorem Accounted.replace {s : State T} (h : s.Accounted) (hbook : s.Bookkeeping) {i : ℕ}
    {c c' : RunOneObserved T} (hi : s.calls[i]? = some c) (hslot : c'.slot? = c.slot?)
    (hid : c'.executionId = c.executionId) (hclearing : c'.clearing = c.clearing) :
    ({ s with calls := s.calls.set i c' } : State T).Accounted where
  labelled := by
    apply h.labelled.move hbook.slots hi (.keep hslot) hid
    intro hnone l hl
    rw [hslot, hnone] at hl
    cases hl
  clearing_le := (tally_set_eq hi hclearing).trans_le h.clearing_le

theorem Accounted.call {s : State T} (h : s.Accounted) (hbook : s.Bookkeeping) {i : ℕ}
    {e : Choice T} {p : PitScheduler} {c c' : RunOneObserved T} (hi : s.calls[i]? = some c)
    (hc : c.step s.now s.scheduler e = some (p, c')) :
    ({ s with scheduler := p, calls := s.calls.set i c' } : State T).Accounted where
  labelled := by
    obtain ⟨-, -, -, hid⟩ := RunOneObserved.step_frame hc
    apply h.labelled.move hbook.slots hi (RunOneObserved.step_slots hc) hid
    exact fun hnone l hl => RunOneObserved.step_label hc hnone hl
  clearing_le := by
    have ht := tally_set (p := RunOneObserved.clearing) (b := c') hi
    have hle := h.clearing_le
    have hslot := fun l hl => hbook.slots.occupied_of_owner (List.mem_of_getElem? hi) (l := l) hl
    rcases RunOneObserved.step_free hslot hc with hfree | ⟨hmutex, hclearing, hclearing'⟩
    · simp only [hfree]
      omega
    · -- the call is the only one under the mutex
      have hnone : tally RunOneObserved.clearing s.calls = 0 := by
        refine tally_eq_zero.mpr fun d hd => Bool.eq_false_iff.mpr fun hdc => ?_
        obtain ⟨j, hj⟩ := List.mem_iff_getElem?.mp hd
        obtain rfl := hbook.mutex.holder_injective hi hj hmutex
          (RunOneObserved.holdsMutex_of_clearing hdc)
        obtain rfl := Option.some.inj (hi.symm.trans hj)
        exact absurd hdc (Bool.eq_false_iff.mp hclearing)
      rw [hclearing, hclearing', hnone] at ht
      exact ht.trans_le (Nat.zero_le _)

theorem Accounted.step {s t : State T} {a : Action T} (h : s.Accounted) (hbook : s.Bookkeeping)
    (hs : s.step a = some t) : t.Accounted := by
  cases step_cases hs with
  | tick d => exact ⟨h.1, h.2⟩
  | runOneObserved =>
    constructor
    · exact h.labelled.push rfl
    · exact (tally_concat _ _ _).trans_le h.clearing_le
  | call hi hc => exact h.call hbook hi hc
  | notifyNobody hi hnone => exact h.replace hbook hi rfl rfl rfl
  | @notify i j k r t hij hi hj hj' =>
    have hbook' : ({ s with calls := s.calls.set i (.releasing k r .notified) } :
        State T).Bookkeeping :=
      hbook.replace hi rfl rfl rfl rfl
    have hfirst : ({ s with calls := s.calls.set i (.releasing k r .notified) } :
        State T).Accounted :=
      h.replace hbook hi rfl rfl rfl
    exact hfirst.replace hbook' hj' rfl rfl rfl
  | runManyClassified count classify => exact ⟨h.1, h.2⟩
  | batch hi hb =>
    obtain ⟨-, -, hlanes, -⟩ := BatchStage.step_sameLanes hb
    exact ⟨hlanes ▸ h.1, hlanes ▸ h.2⟩
  | worker hi hw =>
    obtain ⟨⟨-, -, hlanes, -⟩, -⟩ := BatchStage.workerStep_frame hw
    exact ⟨hlanes ▸ h.1, hlanes ▸ h.2⟩

theorem Reachable.accounted {n : UInt64} {now : Instant} {s : State T} (h : Reachable n now s) :
    s.Accounted := by
  have hboth := Transition.Reachable.invariant (I := fun s : State T => s.Bookkeeping ∧ s.Accounted)
    h ⟨bookkeeping_fresh n now, accounted_fresh n now⟩
    fun _ _ _ hs hstep => ⟨hs.1.step hstep, hs.2.step hs.1 hstep⟩
  exact hboth.2

/-- The calls counted as active never outnumber the lanes. -/
theorem Accounted.tally_active_le {s : State T} (h : s.Accounted) (hbook : s.Bookkeeping) :
    tally RunOneObserved.active s.calls ≤ s.scheduler.laneCount := by
  have hsplit : tally RunOneObserved.active s.calls ≤
      tally (fun c => c.slot?.isSome) s.calls + tally RunOneObserved.clearing s.calls := by
    rw [tally, tally, tally, ← total_add]
    apply total_le_total
    intro c _
    cases hactive : c.active with
    | false => exact Nat.zero_le _
    | true =>
      rcases RunOneObserved.slot_of_active hactive with hslot | hclearing
      · simp [hslot]
      · simp [hclearing]
  have hslots := hbook.slots.tally_occupied
  have hfree := Slots.tally_occupied_add_free s.scheduler.sharedLanes
  have hclearing := h.clearing_le
  rw [hbook.lanes_length] at hfree
  omega

theorem Reachable.sharedActive_toNat {n : UInt64} {now : Instant} {s : State T}
    (h : Reachable n now s) :
    s.scheduler.sharedActive.toNat = tally RunOneObserved.active s.calls := by
  apply h.bookkeeping.active.toNat
  apply (h.accounted.tally_active_le h.bookkeeping).trans_lt
  rw [h.laneCount]
  exact n.toNat_lt

theorem Reachable.calls_length_le {n : UInt64} {now : Instant} {s : State T}
    (h : Reachable n now s) : s.calls.length ≤ s.scheduler.nextExecutionId := by
  apply Transition.Reachable.invariant
    (I := fun s : State T => s.calls.length ≤ s.scheduler.nextExecutionId) h (Nat.zero_le _)
  intro s a t hs hstep
  have hnext := step_nextExecutionId_le hstep
  cases step_cases hstep with
  | runOneObserved => simpa using hs
  | call hi hc => simpa using hs.trans hnext
  | notifyNobody hi hnone => simpa using hs
  | notify hij hi hj hj' => simpa using hs
  | _ => exact hs.trans hnext

theorem tally_le_length {β : Type*} (p : β → Bool) (xs : List β) : tally p xs ≤ xs.length := by
  rw [tally_eq_countP]
  exact List.countP_le_length

theorem Reachable.sharedWaiting_toNat {n : UInt64} {now : Instant} {s : State T}
    (h : Reachable n now s) (hids : s.scheduler.nextExecutionId < 2 ^ 64) :
    s.scheduler.sharedWaiting.toNat = tally RunOneObserved.counted s.calls := by
  apply h.bookkeeping.waiting.toNat
  exact ((tally_le_length _ _).trans h.calls_length_le).trans_lt hids

/-! ### The peak -/

/-- The peak of the active counter over a run, and what is still to be folded
into it. -/
abbrev Peaked (s : State T) (top : ℕ) : Prop :=
  Recorded RunOneObserved.active RunOneObserved.pendingPeak? s.scheduler.sharedPeak.toNat top
    s.calls

theorem Peaked.step {n : UInt64} {now : Instant} {s t : State T} {a : Action T} {top : ℕ}
    (h : s.Peaked top) (hr : Reachable n now s) (hs : s.step a = some t) :
    t.Peaked (max (tally RunOneObserved.active t.calls) top) := by
  have hsame : s.Peaked (max (tally RunOneObserved.active s.calls) top) := by
    rwa [max_eq_right h.count_le]
  cases step_cases hs with
  | tick d => exact hsame
  | runOneObserved =>
    have hpush := h.push (b := .waiting ⟨s.scheduler.nextId, s.now⟩ .numbered) rfl rfl
    rwa [← max_eq_right hpush.count_le] at hpush
  | @call i e c p c' hi hc =>
    apply h.move hi
    rw [← hr.sharedActive_toNat]
    apply RunOneObserved.step_peak hc
    intro hinactive hactive
    have ht := tally_set (p := RunOneObserved.active) (b := c') hi
    rw [hinactive, hactive] at ht
    have hafter : p.sharedActive.toNat = tally RunOneObserved.active (s.calls.set i c') :=
      Reachable.sharedActive_toNat (Transition.Reachable.after hr hs)
    rw [hafter, hr.sharedActive_toNat]
    exact ht
  | @notifyNobody i k r hi hnone =>
    have hkeep := h.keep (b := .releasing k r .notified) hi rfl rfl
    rwa [← max_eq_right hkeep.count_le] at hkeep
  | @notify i j k r t hij hi hj hj' =>
    have hkeep := (h.keep (b := .releasing k r .notified) hi rfl rfl).keep
      (b := .waiting t (.woken true)) hj' rfl rfl
    rwa [← max_eq_right hkeep.count_le] at hkeep
  | runManyClassified count classify => exact hsame
  | batch hi hb =>
    unfold Peaked
    rw [BatchStage.step_sharedPeak hb]
    exact hsame
  | worker hi hw =>
    unfold Peaked
    rw [BatchStage.workerStep_sharedPeak hw]
    exact hsame

/-- The value of `shared_active`. -/
def activeCount (s : State T) : ℕ := s.scheduler.sharedActive.toNat

/-- What the peak records is the greatest value the active counter has had. -/
theorem exec_peaked {n : UInt64} {now : Instant} {as : List (Action T)} {s : State T}
    (h : exec (fresh n now) as = some s) :
    ∃ top, IsGreatest (activeCount '' Transition.visited State.step (fresh n now) as) top ∧
      s.Peaked top := by
  have hhistory : Reachable n now s ∧
      ∃ top, IsGreatest (activeCount '' Transition.visited State.step (fresh n now) as) top ∧
        s.Peaked top := by
    refine Transition.exec_history (I := fun V s => Reachable n now s ∧
      ∃ top, IsGreatest (activeCount '' V) top ∧ Peaked s top) ?_ ?_ h
    · rintro V s a t ⟨hr, top, htop, hpeaked⟩ hs
      have hrt : Reachable n now t := Transition.Reachable.after hr hs
      refine ⟨hrt, _, ?_, hpeaked.step hr hs⟩
      rw [Set.image_insert_eq, activeCount, hrt.sharedActive_toNat]
      exact htop.insert _
    · refine ⟨⟨[], rfl⟩, 0, ?_, .initial (by simp [fresh]) (by simp [fresh])⟩
      rw [Set.image_singleton]
      exact isGreatest_singleton
  exact hhistory.2

/-! ### The accounts -/

end State

/-- A step of a call whose closures return, or of the clock. -/
def Action.singleTask : Action T → Bool
  | .tick _ | .runOneObserved | .notifyOne _ _ => true
  | .call _ choice => !choice.unwinds
  | .runManyClassified _ _ | .batch _ | .worker _ _ _ => false

theorem Action.unwindsCall_of_singleTask {a : Action T} (h : a.singleTask = true) :
    a.unwindsCall = false := by
  cases a with
  | call i choice => simpa [singleTask, unwindsCall] using h
  | _ => rfl

namespace State

/-- The accounts of the shared lanes. -/
structure SharedAccounting (s : State T) : Prop where
  owned : ∀ c ∈ s.calls, ∀ l, c.lane? = some l →
    s.scheduler.sharedLanes[l]? = some (some c.executionId) ∧
      ∀ k, s.scheduler.sharedLanes[k]? = some (some c.executionId) → k = l
  owner : ∀ l id, s.scheduler.sharedLanes[l]? = some (some id) →
    ∃ c ∈ s.calls, c.lane? = some l ∧ c.executionId = id
  active_le : s.scheduler.sharedActive.toNat ≤ s.scheduler.laneCount
  active_steady : ∀ a t, s.step a = some t →
    t.scheduler.sharedActive.toNat ≤ s.scheduler.sharedActive.toNat + 1 ∧
      s.scheduler.sharedActive.toNat ≤ t.scheduler.sharedActive.toNat + 1
  waiting_steady : ∀ a t, s.step a = some t →
    t.scheduler.sharedWaiting.toNat ≤ s.scheduler.sharedWaiting.toNat + 1 ∧
      s.scheduler.sharedWaiting.toNat ≤ t.scheduler.sharedWaiting.toNat + 1
  waiting : s.scheduler.sharedMutex = false →
    s.scheduler.sharedWaiting.toNat = tally RunOneObserved.queued s.calls
  active_le_occupied : s.scheduler.sharedMutex = false →
    s.scheduler.sharedActive.toNat ≤ tally Option.isSome s.scheduler.sharedLanes

/-- A step changes how many calls some book counts by one at most. -/
theorem step_tally {s t : State T} {a : Action T} (hs : s.step a = some t)
    (p : RunOneObserved T → Bool) (hpush : ∀ k, p (.waiting k .numbered) = false)
    (hreplace : ∀ k r, p (.releasing k r .notified) = p (.releasing k r .deactivated))
    (hwake : ∀ k, p (.waiting k (.woken true)) = p (.waiting k .asleep)) :
    tally p t.calls ≤ tally p s.calls + 1 ∧ tally p s.calls ≤ tally p t.calls + 1 := by
  have heq {x y : ℕ} (h : x = y) : x ≤ y + 1 ∧ y ≤ x + 1 := by omega
  cases step_cases hs with
  | runOneObserved => exact heq (by simp [hpush])
  | @call i e c q c' hi hc =>
    have ht := tally_set (p := p) (b := c') hi
    have h₁ := Bool.toNat_le (p c)
    have h₂ := Bool.toNat_le (p c')
    constructor <;> simp only <;> omega
  | notifyNobody hi hnone => exact heq (tally_set_eq hi (hreplace _ _))
  | notify hij hi hj hj' =>
    exact heq ((tally_set_eq hj' (hwake _)).trans (tally_set_eq hi (hreplace _ _)))
  | _ => exact heq rfl

theorem waiting_steady {n : UInt64} {now : Instant} {s t : State T} {a : Action T}
    (h : Reachable n now s) (hids : s.scheduler.nextExecutionId < 2 ^ 64) (hs : s.step a = some t) :
    t.scheduler.sharedWaiting.toNat ≤ s.scheduler.sharedWaiting.toNat + 1 ∧
      s.scheduler.sharedWaiting.toNat ≤ t.scheduler.sharedWaiting.toNat + 1 := by
  have hcases : t.scheduler.sharedWaiting = s.scheduler.sharedWaiting ∨
      t.scheduler.nextExecutionId = s.scheduler.nextExecutionId := by
    cases step_cases hs with
    | call hi hc => exact .inr (RunOneObserved.step_frame hc).2.1
    | batch hi hb => exact .inl (BatchStage.step_sameLanes hb).2.2.2.2
    | worker hi hw => exact .inl (BatchStage.workerStep_frame hw).1.2.2.2.2
    | _ => exact .inl rfl
  rcases hcases with heq | hnext
  · rw [heq]
    exact ⟨Nat.le_succ _, Nat.le_succ _⟩
  · have hrt : Reachable n now t := Transition.Reachable.after h hs
    rw [h.sharedWaiting_toNat hids, hrt.sharedWaiting_toNat (hnext ▸ hids)]
    exact step_tally hs _ (fun _ => rfl) (fun _ _ => rfl) fun _ => rfl

theorem active_steady {n : UInt64} {now : Instant} {s t : State T} {a : Action T}
    (h : Reachable n now s) (hs : s.step a = some t) :
    t.scheduler.sharedActive.toNat ≤ s.scheduler.sharedActive.toNat + 1 ∧
      s.scheduler.sharedActive.toNat ≤ t.scheduler.sharedActive.toNat + 1 := by
  have hrt : Reachable n now t := Transition.Reachable.after h hs
  rw [h.sharedActive_toNat, hrt.sharedActive_toNat]
  exact step_tally hs _ (fun _ => rfl) (fun _ _ => rfl) fun _ => rfl

/-! ### With the mutex free -/

section Free

variable {s : State T} (hbook : s.Bookkeeping) (hfree : s.scheduler.sharedMutex = false)

include hbook hfree in
theorem holdsMutex_of_free {c : RunOneObserved T} (hc : c ∈ s.calls) : c.holdsMutex = false := by
  have hmutex := hbook.mutex
  rw [hfree] at hmutex
  exact hmutex.none_of_free hc

include hbook hfree in
theorem tally_counted_of_free :
    tally RunOneObserved.counted s.calls = tally RunOneObserved.queued s.calls := by
  apply total_congr
  intro c hc
  rw [RunOneObserved.counted_of_unlocked (holdsMutex_of_free hbook hfree hc)]

include hbook hfree in
theorem tally_occupied_of_free :
    tally Option.isSome s.scheduler.sharedLanes =
      tally RunOneObserved.active s.calls + tally RunOneObserved.unraised s.calls := by
  calc tally Option.isSome s.scheduler.sharedLanes
    _ = tally (fun c => c.slot?.isSome) s.calls := hbook.slots.tally_occupied
    _ = total (fun c => c.active.toNat + c.unraised.toNat) s.calls := by
        apply total_congr
        intro c hc
        exact RunOneObserved.slot_of_unlocked (holdsMutex_of_free hbook hfree hc)
    _ = tally RunOneObserved.active s.calls + tally RunOneObserved.unraised s.calls :=
        total_add _ _ _

end Free

/-- In every run of single-task calls whose closures return, the accounts hold,
and the peak is the greatest value the active counter has had whenever no call
is about to fold one in. -/
theorem exec_sharedAccounting {n : UInt64} {now : Instant} {as : List (Action T)} {s : State T}
    (h : exec (fresh n now) as = some s) (has : ∀ a ∈ as, a.singleTask = true)
    (hids : s.scheduler.nextExecutionId < 2 ^ 64) :
    s.SharedAccounting ∧ ((∀ c ∈ s.calls, c.pendingPeak? = none) →
      IsGreatest (activeCount '' Transition.visited State.step (fresh n now) as)
        s.scheduler.sharedPeak.toNat ∧
      s.scheduler.sharedPeak.toNat ≤ s.scheduler.laneCount) := by
  have hr : Reachable n now s := ⟨as, h⟩
  have hbook := hr.bookkeeping
  have hlabelled := hr.accounted.labelled
  have hactive : s.scheduler.sharedActive.toNat ≤ s.scheduler.laneCount :=
    hr.sharedActive_toNat.trans_le (hr.accounted.tally_active_le hbook)
  have hunwound : ∀ c ∈ s.calls, c.hasUnwound = false := by
    rw [← tally_eq_zero, tally_hasUnwound h, List.sum_eq_zero_iff]
    simp only [List.mem_map, forall_exists_index, and_imp, forall_apply_eq_imp_iff₂]
    intro a ha
    rw [Action.unwindsCall_of_singleTask (has a ha), Bool.toNat_false]
  refine ⟨⟨?_, ?_, hactive, ?_, ?_, ?_, ?_⟩, ?_⟩
  · intro c hc l hl
    obtain ⟨i, hi⟩ := List.mem_iff_getElem?.mp hc
    refine ⟨hlabelled i c hi l (RunOneObserved.slot_of_lane hl), fun k hk => ?_⟩
    -- the owner of the other slot has the same id, so it is the same call
    obtain ⟨d, hd, hdk⟩ := hbook.slots.exists_owner hk
    obtain ⟨j, hj⟩ := List.mem_iff_getElem?.mp hd
    have hid := hlabelled j d hj k hdk
    rw [hk] at hid
    obtain rfl := (hr.idsFresh hids.le).call_injective hi hj (Option.some.inj (Option.some.inj hid))
    obtain rfl := Option.some.inj (hi.symm.trans hj)
    exact Option.some.inj (hdk.symm.trans (RunOneObserved.slot_of_lane hl))
  · intro l id hid
    obtain ⟨c, hc, hslot⟩ := hbook.slots.exists_owner hid
    obtain ⟨i, hi⟩ := List.mem_iff_getElem?.mp hc
    have hlabel := hlabelled i c hi l hslot
    rw [hid] at hlabel
    cases hlabel
    exact ⟨c, hc, RunOneObserved.lane_of_slot hslot (hunwound c hc), rfl⟩
  · exact fun a t hs => active_steady hr hs
  · exact fun a t hs => waiting_steady hr hids hs
  · intro hfree
    rw [hr.sharedWaiting_toNat hids, tally_counted_of_free hbook hfree]
  · intro hfree
    rw [hr.sharedActive_toNat, tally_occupied_of_free hbook hfree]
    exact Nat.le_add_right _ _
  · intro hnone
    obtain ⟨top, htop, hpeaked⟩ := exec_peaked h
    rw [hpeaked.peak_eq hnone]
    refine ⟨htop, ?_⟩
    obtain ⟨u, ⟨bs, -, hu⟩, rfl⟩ := htop.1
    have hru : Reachable n now u := ⟨bs, hu⟩
    rw [activeCount, hru.sharedActive_toNat, hr.laneCount, ← hru.laneCount]
    exact hru.accounted.tally_active_le hru.bookkeeping

/-- Two calls at work on two lanes. -/
def overlappingRun : List (Action Unit) :=
  [[.runOneObserved, .runOneObserved], List.replicate 8 (.call 0 .go),
    List.replicate 8 (.call 1 .go), [.call 0 (.start 0), .call 1 (.start 0)]].flatten

theorem exec_sharedAccounting_overlappingRun :
    ∃ s : State Unit, exec (fresh 2 0) overlappingRun = some s ∧ s.scheduler.sharedPeak = 2 ∧
      s.SharedAccounting ∧
      IsGreatest (activeCount '' Transition.visited State.step (fresh 2 0) overlappingRun) 2 := by
  have heval : (exec (fresh 2 0) overlappingRun).map (fun s => (s.scheduler.nextExecutionId,
      s.scheduler.sharedPeak, s.calls.all fun c => c.pendingPeak? == none)) =
      some (2, 2, true) := by decide +kernel
  obtain ⟨s, hs, heq⟩ := Option.map_eq_some_iff.mp heval
  simp only [Prod.mk.injEq, List.all_eq_true, beq_iff_eq] at heq
  obtain ⟨hnext, hpeak, hnone⟩ := heq
  obtain ⟨haccounts, hgreatest⟩ := exec_sharedAccounting hs (by decide) (by omega)
  refine ⟨s, hs, hpeak, haccounts, ?_⟩
  have := (hgreatest hnone).1
  rwa [hpeak] at this

end State

end PitBox.Scheduler
