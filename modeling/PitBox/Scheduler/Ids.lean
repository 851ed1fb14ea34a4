import PitBox.Scheduler.Steps

/-!
# Execution ids

Every call draws its ids from the one counter, the single-task API one at its
start and the batch API `count` under the batch lock. As long as the counter
has not wrapped, the ids handed out are those below it, each to one call, and
the ids of a batch rise.
-/

namespace PitBox.Scheduler

open Table

variable {T : Type}

namespace BatchStage

variable {now : Instant} {p p' : PitScheduler} {e : Choice T} {count : UInt64}
  {classify : T → Option String} {w : ℕ} {b b' : BatchStage T}

theorem step_executionIds (h : b.step now count p = some (p', b')) :
    (p'.nextExecutionId = p.nextExecutionId ∧ b'.executionIds = b.executionIds) ∨
      (p'.nextExecutionId = p.nextExecutionId + 1 ∧
        b'.executionIds = b.executionIds ++ [p.nextId]) := by
  revert h
  fun_cases step now count p b <;> intro h <;> cases h
  all_goals first
    | exact .inl ⟨rfl, rfl⟩
    | exact .inr ⟨rfl, rfl⟩

theorem workerStep_executionIds (h : b.workerStep now count classify p w e = some (p', b')) :
    b'.executionIds = b.executionIds := by
  obtain ⟨m, ws, x, m', x', rfl, -, hs, rfl⟩ := workerStep_cases h
  revert hs
  fun_cases LaneWorker.step now count.toNat classify w p m x e <;> intro hs <;> cases hs <;> rfl

/-- The ids a batch has still to draw. -/
def undrawn (count : UInt64) : BatchStage T → ℕ
  | .locking => count.toNat
  | .numbering m => count.toNat - m.executionIds.length
  | _ => 0

theorem step_undrawn (h : b.step now count p = some (p', b')) :
    p'.nextExecutionId + b'.undrawn count ≤ p.nextExecutionId + b.undrawn count := by
  revert h
  fun_cases step now count p b <;> intro h <;> cases h
  case case3 m hlt =>
    simp only [undrawn, List.length_append, List.length_singleton]
    omega
  all_goals simp [undrawn]

theorem workerStep_undrawn (h : b.workerStep now count classify p w e = some (p', b')) :
    b'.undrawn count = b.undrawn count := by
  obtain ⟨m, ws, x, m', x', rfl, -, -, rfl⟩ := workerStep_cases h
  rfl

end BatchStage

/-- The executions that a step asks for. -/
def Action.asked : Action T → ℕ
  | .runOneObserved => 1
  | .runManyClassified count _ => count.toNat
  | _ => 0

def RunOneObserved.handed (id : ExecutionId) (c : RunOneObserved T) : ℕ := [c.executionId].count id

def RunManyClassified.handed (id : ExecutionId) (b : RunManyClassified T) : ℕ :=
  b.stage.executionIds.count id

namespace State

def handed (s : State T) (id : ExecutionId) : ℕ :=
  total (RunOneObserved.handed id) s.calls + total (RunManyClassified.handed id) s.batches

/-- The ids below the counter have been handed out, each once, and in order
within a batch. -/
structure IdsFresh (s : State T) : Prop where
  handed : ∀ id, s.handed id = if id.toNat < s.scheduler.nextExecutionId then 1 else 0
  increasing : ∀ b ∈ s.batches, b.stage.executionIds.Pairwise (· < ·)

theorem enter_executionIds (count : UInt64) (classify : T → Option String) :
    (RunManyClassified.enter count classify).stage.executionIds = [] := by
  unfold RunManyClassified.enter
  split_ifs <;> rfl

/-- A step draws at most one id. -/
theorem step_handed {s t : State T} {a : Action T} (h : s.step a = some t) :
    (t.scheduler.nextExecutionId = s.scheduler.nextExecutionId ∧ ∀ id, t.handed id = s.handed id) ∨
      (t.scheduler.nextExecutionId = s.scheduler.nextExecutionId + 1 ∧
        ∀ id, t.handed id = s.handed id + [s.scheduler.nextId].count id) := by
  have hcall (c' : RunOneObserved T) {i : ℕ} {calls : List (RunOneObserved T)}
      {c : RunOneObserved T} (hi : calls[i]? = some c) (hc : c'.executionId = c.executionId)
      (id : ExecutionId) :
      total (RunOneObserved.handed id) (calls.set i c') = total (RunOneObserved.handed id) calls :=
    total_set_eq _ hi (by rw [RunOneObserved.handed, RunOneObserved.handed, hc])
  cases step_cases h with
  | runOneObserved =>
    refine .inr ⟨rfl, fun id => ?_⟩
    simp only [handed, total_append, total_cons, total_nil, RunOneObserved.handed,
      RunOneObserved.executionId]
    omega
  | call hi hc =>
    obtain ⟨-, hnext, -, hid⟩ := RunOneObserved.step_frame hc
    exact .inl ⟨hnext, fun id => by rw [handed, handed, hcall _ hi hid]⟩
  | @notifyNobody i k r hi hnone =>
    refine .inl ⟨rfl, fun id => ?_⟩
    rw [handed, handed, hcall (.releasing k r .notified) hi rfl]
  | @notify i j k r t hij hi hj hj' =>
    refine .inl ⟨rfl, fun id => ?_⟩
    rw [handed, handed, hcall (.waiting t (.woken true)) hj' rfl,
      hcall (.releasing k r .notified) hi rfl]
  | runManyClassified count classify =>
    refine .inl ⟨rfl, fun id => ?_⟩
    simp [handed, RunManyClassified.handed, enter_executionIds]
  | @batch i b p stage hi hb =>
    have ht id := total_set (RunManyClassified.handed id) (b := { b with stage }) hi
    rcases BatchStage.step_executionIds hb with ⟨hnext, hids⟩ | ⟨hnext, hids⟩
    · refine .inl ⟨hnext, fun id => ?_⟩
      have := ht id
      simp only [handed, RunManyClassified.handed, hids] at this ⊢
      omega
    · refine .inr ⟨hnext, fun id => ?_⟩
      have := ht id
      simp only [handed, RunManyClassified.handed, hids, List.count_append] at this ⊢
      omega
  | worker hi hw =>
    obtain ⟨-, -, hnext, -⟩ := BatchStage.workerStep_frame hw
    refine .inl ⟨hnext, fun id => ?_⟩
    rw [handed, handed, total_set_eq (RunManyClassified.handed id) hi]
    rw [RunManyClassified.handed, RunManyClassified.handed, BatchStage.workerStep_executionIds hw]
  | _ => exact .inl ⟨rfl, fun _ => rfl⟩

theorem step_nextExecutionId_le {s t : State T} {a : Action T} (h : s.step a = some t) :
    s.scheduler.nextExecutionId ≤ t.scheduler.nextExecutionId := by
  rcases step_handed h with ⟨hnext, -⟩ | ⟨hnext, -⟩ <;> omega

def claimedIds (s : State T) : ℕ :=
  s.scheduler.nextExecutionId + total (fun b => b.stage.undrawn b.count) s.batches

theorem step_claimedIds {s t : State T} {a : Action T} (h : s.step a = some t) :
    t.claimedIds ≤ s.claimedIds + a.asked := by
  cases step_cases h with
  | runOneObserved => exact (Nat.add_right_comm _ _ _).le
  | call hi hc =>
    obtain ⟨-, hnext, -⟩ := RunOneObserved.step_frame hc
    exact (congrArg (· + _) hnext).le
  | runManyClassified count classify =>
    have hundrawn : (RunManyClassified.enter count classify).stage.undrawn count ≤ count.toNat := by
      unfold RunManyClassified.enter
      split_ifs
      · exact Nat.zero_le _
      · exact le_rfl
    simp only [claimedIds, total_append, total_cons, total_nil, Action.asked]
    have hcount : (RunManyClassified.enter count classify).count = count := rfl
    rw [hcount]
    omega
  | @batch i b p stage hi hb =>
    have htotal := total_set (fun b : RunManyClassified T => b.stage.undrawn b.count)
      (b := { b with stage }) hi
    have hstep := BatchStage.step_undrawn hb
    dsimp only at htotal
    simp only [claimedIds]
    omega
  | @worker i w e b p stage hi hw =>
    obtain ⟨-, -, hnext, -⟩ := BatchStage.workerStep_frame hw
    have htotal := total_set (fun b : RunManyClassified T => b.stage.undrawn b.count)
      (b := { b with stage }) hi
    have hstep := BatchStage.workerStep_undrawn hw
    dsimp only at htotal
    simp only [claimedIds]
    omega
  | _ => exact Nat.le_add_right _ _

theorem exec_nextExecutionId_le_asked {n : UInt64} {now : Instant} {as : List (Action T)}
    {s : State T} (h : exec (fresh n now) as = some s) :
    s.scheduler.nextExecutionId ≤ (as.map Action.asked).sum := by
  have hclaimed := Transition.exec_budget (f := claimedIds) (w := fun _ => 0) (fun _ => True)
    (fun _ _ _ _ _ => trivial) (fun _ _ _ _ => step_claimedIds) trivial h
  have hfresh : (fresh n now : State T).claimedIds = 0 := rfl
  rw [hfresh] at hclaimed
  unfold claimedIds at hclaimed
  omega

/-- The ids of a batch after a step: what some batch had, with at most the next
id added. -/
theorem step_batch_ids {s t : State T} {a : Action T} (h : s.step a = some t)
    {b' : RunManyClassified T} (hb' : b' ∈ t.batches) :
    b'.stage.executionIds = [] ∨ ∃ b ∈ s.batches,
      b'.stage.executionIds = b.stage.executionIds ∨
        t.scheduler.nextExecutionId = s.scheduler.nextExecutionId + 1 ∧
          b'.stage.executionIds = b.stage.executionIds ++ [s.scheduler.nextId] := by
  cases step_cases h with
  | runManyClassified count classify =>
    rcases List.mem_append.mp hb' with hb' | hb'
    · exact .inr ⟨b', hb', .inl rfl⟩
    · obtain rfl := List.mem_singleton.mp hb'
      exact .inl (enter_executionIds count classify)
  | batch hi hb =>
    rcases List.mem_or_eq_of_mem_set hb' with hb' | rfl
    · exact .inr ⟨b', hb', .inl rfl⟩
    · rcases BatchStage.step_executionIds hb with ⟨-, hids⟩ | hids
      · exact .inr ⟨_, List.mem_of_getElem? hi, .inl hids⟩
      · exact .inr ⟨_, List.mem_of_getElem? hi, .inr hids⟩
  | worker hi hw =>
    rcases List.mem_or_eq_of_mem_set hb' with hb' | rfl
    · exact .inr ⟨b', hb', .inl rfl⟩
    · exact .inr ⟨_, List.mem_of_getElem? hi, .inl (BatchStage.workerStep_executionIds hw)⟩
  | _ => exact .inr ⟨b', hb', .inl rfl⟩

theorem nextId_toNat {p : PitScheduler} (h : p.nextExecutionId < 2 ^ 64) :
    p.nextId.toNat = p.nextExecutionId := UInt64.toNat_ofNat_of_lt' h

theorem idsFresh_fresh (n : UInt64) (now : Instant) : (fresh n now : State T).IdsFresh where
  handed id := by simp [State.handed, fresh, PitScheduler.withLanes]
  increasing := by simp [fresh]

namespace IdsFresh

variable {s t : State T} {a : Action T}

theorem lt_of_handed (h : s.IdsFresh) {id : ExecutionId} (hpos : 0 < s.handed id) :
    id.toNat < s.scheduler.nextExecutionId := by
  by_contra hn
  rw [h.handed, if_neg hn] at hpos
  exact absurd hpos (lt_irrefl 0)

theorem lt_of_batch (h : s.IdsFresh) {b : RunManyClassified T} (hb : b ∈ s.batches)
    {id : ExecutionId} (hid : id ∈ b.stage.executionIds) :
    id.toNat < s.scheduler.nextExecutionId := by
  refine h.lt_of_handed (Nat.add_pos_right _ ?_)
  exact (List.count_pos_iff.mpr hid).trans_le (le_total (RunManyClassified.handed id) hb)

theorem lt_of_call (h : s.IdsFresh) {c : RunOneObserved T} (hc : c ∈ s.calls) :
    c.executionId.toNat < s.scheduler.nextExecutionId := by
  refine h.lt_of_handed (Nat.add_pos_left ?_ _)
  have hpos : 0 < c.handed c.executionId := by simp [RunOneObserved.handed]
  exact hpos.trans_le (le_total (RunOneObserved.handed c.executionId) hc)

theorem ne_of_call (h : s.IdsFresh) {b : RunManyClassified T} (hb : b ∈ s.batches)
    {c : RunOneObserved T} (hc : c ∈ s.calls) : c.executionId ∉ b.stage.executionIds := by
  intro hid
  have h₁ := le_total (RunManyClassified.handed c.executionId) hb
  have h₂ := le_total (RunOneObserved.handed c.executionId) hc
  have h₃ : 0 < b.handed c.executionId := List.count_pos_iff.mpr hid
  have h₄ : c.handed c.executionId = 1 := by simp [RunOneObserved.handed]
  have hone := h.handed c.executionId
  rw [State.handed] at hone
  split_ifs at hone <;> omega

theorem ne_of_batch (h : s.IdsFresh) {i j : ℕ} (hij : i ≠ j) {b d : RunManyClassified T}
    (hi : s.batches[i]? = some b) (hj : s.batches[j]? = some d) {id : ExecutionId}
    (hb : id ∈ b.stage.executionIds) : id ∉ d.stage.executionIds := by
  intro hd
  have h₁ := add_le_total (RunManyClassified.handed id) hij hi hj
  have h₂ : 0 < b.handed id := List.count_pos_iff.mpr hb
  have h₃ : 0 < d.handed id := List.count_pos_iff.mpr hd
  have hone := h.handed id
  rw [State.handed] at hone
  split_ifs at hone <;> omega

theorem call_injective (h : s.IdsFresh) {i j : ℕ} {c d : RunOneObserved T}
    (hi : s.calls[i]? = some c) (hj : s.calls[j]? = some d)
    (hid : c.executionId = d.executionId) : i = j := by
  by_contra hij
  have h₁ := add_le_total (RunOneObserved.handed c.executionId) hij hi hj
  have h₂ : c.handed c.executionId = 1 := by simp [RunOneObserved.handed]
  have h₃ : d.handed c.executionId = 1 := by simp [RunOneObserved.handed, hid]
  have hone := h.handed c.executionId
  rw [State.handed] at hone
  split_ifs at hone <;> omega

theorem step (h : s.IdsFresh) (hbound : t.scheduler.nextExecutionId ≤ 2 ^ 64)
    (hs : s.step a = some t) : t.IdsFresh := by
  constructor
  · intro id
    rcases step_handed hs with ⟨hnext, hhanded⟩ | ⟨hnext, hhanded⟩
    · rw [hhanded, h.handed, hnext]
    · have hid := nextId_toNat (p := s.scheduler) (by omega)
      have hcount : [s.scheduler.nextId].count id =
          if id.toNat = s.scheduler.nextExecutionId then 1 else 0 := by
        rw [List.count_singleton, ← hid]
        by_cases heq : id = s.scheduler.nextId
        · simp [heq]
        · simp [heq, UInt64.toNat_inj, Ne.symm heq]
      rw [hhanded, h.handed, hcount, hnext]
      split_ifs <;> omega
  · intro b' hb'
    rcases step_batch_ids hs hb' with hids | ⟨b, hb, hids | ⟨hnext, hids⟩⟩
    · simp [hids]
    · exact hids ▸ h.increasing b hb
    · rw [hids, List.pairwise_append]
      refine ⟨h.increasing b hb, List.pairwise_singleton _ _, fun x hx y hy => ?_⟩
      obtain rfl := List.mem_singleton.mp hy
      rw [UInt64.lt_iff_toNat_lt, nextId_toNat (by omega)]
      exact h.lt_of_batch hb hx

end IdsFresh

theorem Reachable.idsFresh {n : UInt64} {now : Instant} {s : State T} (h : Reachable n now s)
    (hids : s.scheduler.nextExecutionId ≤ 2 ^ 64) : s.IdsFresh := by
  refine Transition.Reachable.invariant
    (I := fun s => s.scheduler.nextExecutionId ≤ 2 ^ 64 → s.IdsFresh) h ?_ ?_ hids
  · exact fun _ => idsFresh_fresh n now
  · intro s a t hs hstep hbound
    exact (hs ((step_nextExecutionId_le hstep).trans hbound)).step hbound hstep

end State

end PitBox.Scheduler
