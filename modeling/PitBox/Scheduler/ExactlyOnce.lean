import PitBox.Scheduler.BatchProgress
import PitBox.Scheduler.Ids

/-!
# Exactly-once batches

What a batch returns, assembled from its books, from the ids and from its
progress. The batch is followed from the state in which it is called through
any run in which its closures return.
-/

namespace PitBox.Scheduler

open Table Ledger

variable {T : Type}

/-- What a batch of `count` jobs delivers in state `s` when it was called in
state `s₀` as batch `i`. -/
structure ExactlyOnce (s₀ s : State T) (i : ℕ) (count : UInt64) (classify : T → Option String)
    (m : BatchMemory T) (run : SchedulerRun T) : Prop where
  length : run.results.length = count.toNat
  increasing : (run.results.map (·.id)).Pairwise (· < ·)
  distinct : ∀ id ∈ run.results.map (·.id), (∀ c ∈ s.calls, c.executionId ≠ id) ∧
    ∀ j b, j ≠ i → s.batches[j]? = some b → id ∉ b.stage.executionIds
  later : ∀ id ∈ run.results.map (·.id), (∀ c ∈ s₀.calls, c.executionId < id) ∧
    ∀ b ∈ s₀.batches, ∀ earlier ∈ b.stage.executionIds, earlier < id
  begun : (m.begun.map Prod.fst).Perm (run.results.map (·.id))
  ran : (m.ran.map (·.executionId)).Perm (run.results.map (·.id)) ∧
    ∀ t ∈ m.ran, (t.executionId, t.laneId) ∈ m.begun
  reported : ∀ r ∈ run.results, ∃ t ∈ m.ran,
    r.report.executionId = t.executionId ∧ r.report.laneId = t.laneId ∧
      (∀ value, t.outcome = .ok value → r.value = some value ∧ r.report.error = classify value ∧
        r.report.success = (classify value).isNone) ∧
      ∀ error, t.outcome = .error error → r.value = none ∧ r.report.error = some error ∧
        r.report.success = false
  drained : run.snapshot.queued = 0 ∧ run.snapshot.running = 0
  outcomes : run.snapshot.completed.toNat + run.snapshot.failed.toNat = count.toNat ∧
    run.snapshot.completed.toNat = run.results.countP (·.report.success)
  lanes : run.snapshot.lanes = List.replicate s.scheduler.laneCount .free

theorem ExecutionResult.Reports.outcome {classify : T → Option String} {r : ExecutionResult T}
    {t : TaskRun T} (h : r.Reports classify t) :
    (∀ value, t.outcome = .ok value → r.value = some value ∧ r.report.error = classify value ∧
      r.report.success = (classify value).isNone) ∧
    ∀ error, t.outcome = .error error → r.value = none ∧ r.report.error = some error ∧
      r.report.success = false := by
  obtain ⟨-, -, h⟩ := h
  constructor
  · intro value hvalue
    rw [hvalue] at h
    simp only [classifyOutcome] at h
    cases hc : classify value <;> simp_all
  · intro error herror
    rw [herror] at h
    simp_all [classifyOutcome]

namespace BatchStage

theorem perm_sortResults (results : List (ExecutionResult T)) :
    (sortResults results).Perm results := List.perm_insertionSort _ _

theorem sortResults_ids {results : List (ExecutionResult T)} {ids : List ExecutionId}
    (hperm : (results.map (·.id)).Perm ids) (hids : ids.Pairwise (· < ·)) :
    (sortResults results).map (·.id) = ids := by
  have hsorted : ((sortResults results).map (·.id)).Pairwise (· ≤ ·) := by
    unfold sortResults
    rw [List.map_insertionSort (fun a b => a.report.executionId ≤ b.report.executionId) (· ≤ ·)
      (·.id) results fun _ _ _ _ => Iff.rfl]
    exact List.pairwise_insertionSort _ _
  refine List.Perm.eq_of_pairwise (fun a b _ _ => UInt64.le_antisymm) hsorted
    (hids.imp UInt64.le_of_lt) ?_
  exact ((perm_sortResults results).map _).trans hperm

end BatchStage

theorem BatchMemory.Kept.cursor_of_exited {laneCount count : ℕ} {classify : T → Option String}
    {m : BatchMemory T} (h : m.Kept count classify (List.replicate laneCount .exited))
    (hlanes : 0 < laneCount) (hlength : m.executionIds.length = count) :
    m.executionIds.length ≤ m.nextExecution :=
  hlength.trans_le (h.exited (List.mem_replicate.mpr ⟨hlanes.ne', rfl⟩))

theorem BatchMemory.Kept.sortResults_ids {laneCount count : ℕ} {classify : T → Option String}
    {m : BatchMemory T} (h : m.Kept count classify (List.replicate laneCount .exited))
    (hlanes : 0 < laneCount) (hlength : m.executionIds.length = count)
    (hids : m.executionIds.Pairwise (· < ·)) :
    (BatchStage.sortResults m.results).map (·.id) = m.executionIds := by
  refine BatchStage.sortResults_ids (h.results.perm (h.cursor_of_exited hlanes hlength) ?_) hids
  intro w hw
  obtain rfl := List.eq_of_mem_replicate hw
  rfl

/-! ### Following a batch -/

namespace Action

/-- A closure of batch `i` unwinds. -/
def unwindsWorker (i : ℕ) : Action T → Bool
  | .worker j _ e => j == i && e.unwinds
  | _ => false

end Action

/-- A task of batch `i` that returns here has an outcome that meets `P`. -/
def Action.ReturnsIn (i : ℕ) (P : Except String T → Prop) : Action T → Prop
  | .worker j _ (.finish outcome) => j = i → P outcome
  | _ => True

/-- The tasks of a batch that have returned. -/
def BatchStage.ran : BatchStage T → List (TaskRun T)
  | .numbering m | .stamping m | .announcing m | .working m _ => m.ran
  | .returned m _ | .unwound m => m.ran
  | .locking | .rejected _ => []

theorem BatchStage.step_ran {now : Instant} {p p' : PitScheduler} {count : UInt64}
    {b b' : BatchStage T} (h : b.step now count p = some (p', b')) : b'.ran = b.ran := by
  revert h
  fun_cases BatchStage.step now count p b <;> intro h <;> cases h <;> rfl

theorem BatchStage.workerStep_ran {now : Instant} {p p' : PitScheduler} {count : UInt64}
    {classify : T → Option String} {w : ℕ} {e : Choice T} {b b' : BatchStage T}
    (h : b.workerStep now count classify p w e = some (p', b')) :
    b'.ran = b.ran ∨ ∃ r : TaskRun T, e = .finish r.outcome ∧ b'.ran = b.ran ++ [r] := by
  obtain ⟨m, ws, x, m', x', rfl, -, hstep, rfl⟩ := workerStep_cases h
  revert hstep
  fun_cases LaneWorker.step now count.toNat classify w p m x e <;> intro hstep <;> cases hstep
  all_goals first
    | exact .inl rfl
    | exact .inr ⟨_, rfl, rfl⟩

/-- The batch was accepted and none of its closures has unwound. -/
def BatchStage.Orderly : BatchStage T → Prop
  | .rejected _ | .unwound _ => False
  | .working _ workers => ∀ w ∈ workers, w.hasUnwound = false
  | _ => True

theorem BatchStage.Orderly.step {now : Instant} {p p' : PitScheduler} {count : UInt64}
    {b b' : BatchStage T} (h : b.Orderly) (hs : b.step now count p = some (p', b')) :
    b'.Orderly := by
  revert h hs
  fun_cases BatchStage.step now count p b <;> intro h hs <;> cases hs
  all_goals first
    | trivial
    | skip
  · intro w hw
    obtain rfl := List.eq_of_mem_replicate hw
    rfl
  · rename_i hunwound
    obtain ⟨w, hw, hwu⟩ := List.any_eq_true.mp hunwound
    rw [h w hw] at hwu
    cases hwu

theorem BatchStage.Orderly.workerStep {now : Instant} {p p' : PitScheduler} {count : UInt64}
    {classify : T → Option String} {w : ℕ} {e : Choice T} {b b' : BatchStage T} (h : b.Orderly)
    (he : e.unwinds = false) (hs : b.workerStep now count classify p w e = some (p', b')) :
    b'.Orderly := by
  obtain ⟨m, ws, x, m', x', rfl, hx, hstep, rfl⟩ := workerStep_cases hs
  intro y hy
  rcases List.mem_or_eq_of_mem_set hy with hy | rfl
  · exact h y hy
  · revert hstep he
    fun_cases LaneWorker.step now count.toNat classify w p m x e <;> intro he hstep <;>
      cases hstep <;> first | rfl | cases he

namespace State

theorem exec_orderly {i : ℕ} {count : UInt64} {classify : T → Option String} {s t : State T}
    {as : List (Action T)}
    (hs : ∃ b, s.batches[i]? = some b ∧ b.count = count ∧ b.classify = classify ∧ b.stage.Orderly)
    (has : ∀ a ∈ as, a.unwindsWorker i = false) (h : s.exec as = some t) :
    ∃ b, t.batches[i]? = some b ∧ b.count = count ∧ b.classify = classify ∧ b.stage.Orderly := by
  refine Transition.exec_invariant (C := fun _ a => Action.unwindsWorker i a = false)
    (I := fun s => ∃ b, s.batches[i]? = some b ∧ b.count = count ∧ b.classify = classify ∧
      b.stage.Orderly) ?_ hs (Transition.along_of_forall (fun _ => has) s) h
  rintro s a t ⟨b, hi, hcount, hclassify, horderly⟩ ha hstep
  obtain ⟨stage, hi', hstage⟩ := step_batch hstep hi
  refine ⟨_, hi', hcount, hclassify, ?_⟩
  rcases hstage with ⟨-, rfl⟩ | ⟨rfl, hown⟩ | ⟨w, e, rfl, hown⟩
  · exact horderly
  · exact horderly.step hown
  · exact horderly.workerStep (by simpa [Action.unwindsWorker] using ha) hown

/-- Every task of a batch that returned did so in the run. -/
theorem exec_ran {i : ℕ} {P : Except String T → Prop} {s t : State T} {as : List (Action T)}
    (hs : ∃ b, s.batches[i]? = some b ∧ ∀ r ∈ b.stage.ran, P r.outcome)
    (has : ∀ a ∈ as, a.ReturnsIn i P) (h : s.exec as = some t) :
    ∃ b, t.batches[i]? = some b ∧ ∀ r ∈ b.stage.ran, P r.outcome := by
  apply Transition.exec_invariant (C := fun _ a => Action.ReturnsIn i P a)
    (I := fun s => ∃ b, s.batches[i]? = some b ∧ ∀ r ∈ b.stage.ran, P r.outcome) ?_ hs
    (Transition.along_of_forall (fun _ => has) s) h
  rintro s a t ⟨b, hi, hran⟩ ha hstep
  obtain ⟨stage, hi', hstage⟩ := step_batch hstep hi
  refine ⟨_, hi', ?_⟩
  rcases hstage with ⟨-, rfl⟩ | ⟨rfl, hown⟩ | ⟨w, e, rfl, hown⟩
  · exact hran
  · rwa [BatchStage.step_ran hown]
  · rcases BatchStage.workerStep_ran hown with hsame | ⟨r, rfl, hsame⟩
    · rwa [hsame]
    · rw [hsame]
      intro x hx
      rcases List.mem_append.mp hx with hx | hx
      · exact hran x hx
      · obtain rfl := List.mem_singleton.mp hx
        exact ha rfl

theorem exec_runMany_ran {count : UInt64} {classify : T → Option String}
    {P : Except String T → Prop} {s t : State T} {as : List (Action T)}
    (h : s.exec (.runManyClassified count classify :: as) = some t)
    (has : ∀ a ∈ as, a.ReturnsIn s.batches.length P) :
    ∃ b, t.batches[s.batches.length]? = some b ∧ ∀ r ∈ b.stage.ran, P r.outcome := by
  obtain ⟨u, hcall, hrun⟩ := Transition.exec_cons.mp h
  cases hcall
  refine exec_ran ⟨_, List.getElem?_concat_length, ?_⟩ has hrun
  unfold RunManyClassified.enter
  split_ifs <;> exact fun r hr => absurd hr List.not_mem_nil

theorem exec_nextExecutionId_le {s t : State T} {as : List (Action T)} (h : s.exec as = some t) :
    s.scheduler.nextExecutionId ≤ t.scheduler.nextExecutionId :=
  Transition.exec_invariant_of_step
    (I := fun t => s.scheduler.nextExecutionId ≤ t.scheduler.nextExecutionId)
    (fun _ _ _ hs hstep => hs.trans (step_nextExecutionId_le hstep)) le_rfl h

/-- The ids of a batch are drawn after it is called. -/
theorem exec_ids_ge {i : ℕ} {s t : State T} {as : List (Action T)} {b c : RunManyClassified T}
    (h : s.exec as = some t) (hb : s.batches[i]? = some b) (hnone : b.stage.executionIds = [])
    (hc : t.batches[i]? = some c) (hids : t.scheduler.nextExecutionId ≤ 2 ^ 64) :
    ∀ id ∈ c.stage.executionIds, s.scheduler.nextExecutionId ≤ id.toNat := by
  have hinv : ∃ c, t.batches[i]? = some c ∧
      s.scheduler.nextExecutionId ≤ t.scheduler.nextExecutionId ∧
        (t.scheduler.nextExecutionId ≤ 2 ^ 64 →
          ∀ id ∈ c.stage.executionIds, s.scheduler.nextExecutionId ≤ id.toNat) := by
    refine Transition.exec_invariant_of_step (I := fun t : State T => ∃ c, t.batches[i]? = some c ∧
      s.scheduler.nextExecutionId ≤ t.scheduler.nextExecutionId ∧
        (t.scheduler.nextExecutionId ≤ 2 ^ 64 →
          ∀ id ∈ c.stage.executionIds, s.scheduler.nextExecutionId ≤ id.toNat)) ?_
      ⟨b, hb, le_rfl, by simp [hnone]⟩ h
    rintro u a v ⟨c, hc, hle, hge⟩ hstep
    obtain ⟨stage, hc', hstage⟩ := step_batch hstep hc
    have hnext := step_nextExecutionId_le hstep
    refine ⟨_, hc', hle.trans hnext, fun hbound => ?_⟩
    have hge := hge (hnext.trans hbound)
    rcases hstage with ⟨-, rfl⟩ | ⟨rfl, hown⟩ | ⟨w, e, rfl, hown⟩
    · exact hge
    · rcases BatchStage.step_executionIds hown with ⟨-, hsame⟩ | ⟨hdrawn, hsame⟩
      · rwa [hsame]
      · rw [hsame]
        intro id hid
        rcases List.mem_append.mp hid with hid | hid
        · exact hge id hid
        · obtain rfl := List.mem_singleton.mp hid
          rw [nextId_toNat (by omega)]
          exact hle
    · rwa [BatchStage.workerStep_executionIds hown]
  obtain ⟨d, hd, -, hge⟩ := hinv
  obtain rfl := Option.some.inj (hc.symm.trans hd)
  exact hge hids

/-- Counters at the end of a batch. -/
theorem exactlyOnce_of_returned {s₀ s : State T} {i : ℕ} {b : RunManyClassified T}
    {m : BatchMemory T} {run : SchedulerRun T} (hlanes : 0 < s.scheduler.laneCount)
    (hfresh₀ : s₀.IdsFresh) (hfresh : s.IdsFresh) (hi : s.batches[i]? = some b)
    (hstage : b.stage = .returned m run)
    (hkept : b.stage.Kept s.scheduler.laneCount b.count b.classify)
    (hge : ∀ id ∈ b.stage.executionIds, s₀.scheduler.nextExecutionId ≤ id.toNat) :
    ExactlyOnce s₀ s i b.count b.classify m run := by
  have hmem := List.mem_of_getElem? hi
  have hincreasing := hfresh.increasing b hmem
  have hids : b.stage.executionIds = m.executionIds := by rw [hstage]; rfl
  rw [hstage] at hkept
  obtain ⟨hlength, hbooks, rfl⟩ := hkept
  rw [hids] at hincreasing hge
  have hcursor := hbooks.cursor_of_exited hlanes hlength
  have hidle {f : LaneWorker T → Option ExecutionId} (hf : f .exited = none) :
      ∀ w ∈ List.replicate s.scheduler.laneCount .exited, f w = none :=
    fun w hw => (List.eq_of_mem_replicate hw) ▸ hf
  have hnone {f : LaneWorker T → Bool} (hf : f .exited = false) :
      tally f (List.replicate s.scheduler.laneCount .exited) = 0 :=
    tally_eq_zero.mpr fun w hw => (List.eq_of_mem_replicate hw) ▸ hf
  have hsorted := hbooks.sortResults_ids hlanes hlength hincreasing
  have hperm := BatchStage.perm_sortResults m.results
  have hcompleted := hbooks.outcomes true
  have hfailed := hbooks.outcomes false
  rw [hnone rfl, Nat.zero_add, ← hperm.countP_eq] at hcompleted hfailed
  have hcount : (BatchStage.sortResults m.results).length = b.count.toNat := by
    rw [← List.length_map (f := (·.id)), hsorted, hlength]
  have hsplit := List.length_eq_countP_add_countP (fun r : ExecutionResult T => r.report.success)
    (l := BatchStage.sortResults m.results)
  have hbound := b.count.toNat_lt
  constructor
  · exact hcount
  · rwa [BatchStage.collect, hsorted]
  · rw [BatchStage.collect, hsorted]
    intro id hid
    rw [← hids] at hid
    refine ⟨fun c hc heq => hfresh.ne_of_call hmem hc (heq ▸ hid), fun j d hj hd => ?_⟩
    exact hfresh.ne_of_batch (Ne.symm hj) hi hd hid
  · rw [BatchStage.collect, hsorted]
    intro id hid
    have hid := hge id hid
    refine ⟨fun c hc => ?_, fun d hd earlier hearlier => ?_⟩
    · exact UInt64.lt_iff_toNat_lt.mpr ((hfresh₀.lt_of_call hc).trans_le hid)
    · exact UInt64.lt_iff_toNat_lt.mpr ((hfresh₀.lt_of_batch hd hearlier).trans_le hid)
  · rw [BatchStage.collect, hsorted]
    exact hbooks.begun.perm hcursor (hidle rfl)
  · rw [BatchStage.collect, hsorted]
    exact ⟨hbooks.ran.perm hcursor (hidle rfl), hbooks.ran_begun⟩
  · intro r hr
    obtain ⟨t, ht, hreports⟩ := hbooks.reported r (hperm.mem_iff.mp hr)
    exact ⟨t, ht, hreports.1, hreports.2.1, hreports.outcome⟩
  · constructor
    · have := hbooks.queued
      rwa [hnone rfl, Nat.sub_eq_zero_of_le (hlength ▸ hcursor)] at this
    · have := hbooks.running
      rwa [hnone rfl] at this
  · have h₁ := hcompleted.toNat (List.countP_le_length.trans_lt (hcount.trans_lt hbound))
    have h₂ := hfailed.toNat (List.countP_le_length.trans_lt (hcount.trans_lt hbound))
    simp only [beq_true, beq_false] at h₁ h₂
    refine ⟨?_, h₁⟩
    calc m.state.completed.toNat + m.state.failed.toNat
      _ = (BatchStage.sortResults m.results).countP (·.report.success) +
          (BatchStage.sortResults m.results).countP (!·.report.success) := congrArg₂ _ h₁ h₂
      _ = b.count.toNat := by simpa [hcount] using hsplit.symm
  · have := hbooks.lanes
    simpa [BatchStage.collect, RunState.snapshot, LaneWorker.laneState] using this

theorem orderly_cases {b : RunManyClassified T} (h : b.stage.Orderly) :
    (∃ m run, b.stage = .returned m run) ∨ b.holdsRunLock = true ∨ b.stage = .locking := by
  obtain ⟨count, classify, stage⟩ := b
  cases stage with
  | locking => exact .inr (.inr rfl)
  | returned m run => exact .inl ⟨m, run, rfl⟩
  | rejected error | unwound m => exact absurd h id
  | _ => exact .inr (.inl rfl)

/-- A batch waiting for the lock can take it, or the batch that has it can move. -/
theorem ready_of_locking {s : State T} (hbook : s.Bookkeeping)
    (hkept : ∀ b ∈ s.batches, b.stage.Kept s.scheduler.laneCount b.count b.classify) {i : ℕ}
    {b : RunManyClassified T} (hi : s.batches[i]? = some b) (hstage : b.stage = .locking) :
    s.Ready i ∨ ∃ j d, s.batches[j]? = some d ∧ d.holdsRunLock = true ∧ s.Ready j := by
  cases hlock : s.scheduler.runLock with
  | false =>
    refine .inl (.inl ?_)
    simp [step, hi, RunManyClassified.step, BatchStage.step, hstage, hlock]
  | true =>
    right
    have hone : 0 < tally RunManyClassified.holdsRunLock s.batches := by
      rw [show tally RunManyClassified.holdsRunLock s.batches = _ from hbook.runLock, hlock]
      exact Nat.one_pos
    obtain ⟨d, hd, hholds⟩ := exists_of_total_pos hone
    obtain ⟨j, hj⟩ := List.mem_iff_getElem?.mp hd
    have hholds : d.holdsRunLock = true := by
      cases hh : d.holdsRunLock <;> simp_all
    exact ⟨j, d, hj, hholds, ready_of_holds hj (hkept d hd) hholds⟩

/-- Following a batch of `count` jobs from its call through any run in which
its closures return: its threads take a bounded number of steps, and it has
returned, or it can still move, or it waits for the lock and whoever has the
lock can move. -/
theorem exec_runManyClassified {n count : UInt64} {now : Instant}
    {classify : T → Option String} {as : List (Action T)} {s₀ s : State T}
    (hcount : count ≠ 0) (h₀ : Reachable n now s₀)
    (h : exec s₀ (.runManyClassified count classify :: as) = some s)
    (hreturn : ∀ a ∈ as, a.unwindsWorker s₀.batches.length = false) :
    tally (Action.ownedBy s₀.batches.length) as ≤ 23 * count.toNat + n.toNat + 5 ∧
      ∃ b, s.batches[s₀.batches.length]? = some b ∧ b.count = count ∧ b.classify = classify ∧
        (s.scheduler.nextExecutionId ≤ 2 ^ 64 →
          ∀ id ∈ b.stage.executionIds, s₀.scheduler.nextExecutionId ≤ id.toNat) ∧
        ((∃ m run, b.stage = .returned m run) ∨
          (b.holdsRunLock = true ∧ s.Ready s₀.batches.length) ∨
          (b.stage = .locking ∧ (s.Ready s₀.batches.length ∨
            ∃ j d, s.batches[j]? = some d ∧ d.holdsRunLock = true ∧ s.Ready j))) := by
  obtain ⟨s₁, hcall, hrun⟩ := Transition.exec_cons.mp h
  have hreach₁ : Reachable n now s₁ := Transition.Reachable.after h₀ hcall
  have hreach : Reachable n now s := hreach₁.trans hrun
  cases hcall
  have henter : (RunManyClassified.enter count classify).stage = .locking := by
    simp [RunManyClassified.enter, hcount]
  have hi₁ : (s₀.batches ++ [RunManyClassified.enter count classify])[s₀.batches.length]? =
      some (.enter count classify) := List.getElem?_concat_length
  obtain ⟨b, hi, rfl, rfl, horderly⟩ := exec_orderly (i := s₀.batches.length)
    ⟨_, hi₁, rfl, rfl, henter ▸ trivial⟩ hreturn hrun
  have hmem := List.mem_of_getElem? hi
  have hge := exec_ids_ge hrun hi₁ (by rw [henter]; rfl) hi
  refine ⟨?_, b, hi, rfl, rfl, hge, ?_⟩
  · have hsteps := ownSteps_le_remaining hreach₁ hi₁ hrun
    rwa [remaining_of_locking hi₁ henter, hreach₁.laneCount] at hsteps
  · rcases orderly_cases horderly with hreturned | hholds | hstage
    · exact .inl hreturned
    · exact .inr (.inl ⟨hholds, ready_of_holds hi (hreach.batches_kept b hmem) hholds⟩)
    · exact .inr (.inr ⟨hstage, ready_of_locking hreach.bookkeeping hreach.batches_kept hi hstage⟩)

/-- What a batch that is followed has delivered when it returns: every job,
exactly once. -/
theorem runManyClassified_exactlyOnce {n count : UInt64} {now : Instant}
    {classify : T → Option String} {as₀ as : List (Action T)} {s₀ s : State T} (hn : n ≠ 0)
    (hcount : count ≠ 0) (h₀ : exec (fresh n now) as₀ = some s₀)
    (h : exec s₀ (.runManyClassified count classify :: as) = some s)
    (hids : s.scheduler.nextExecutionId < 2 ^ 64)
    (hreturn : ∀ a ∈ as, a.unwindsWorker s₀.batches.length = false) :
    tally (Action.ownedBy s₀.batches.length) as ≤ 23 * count.toNat + n.toNat + 5 ∧
      ∃ b, s.batches[s₀.batches.length]? = some b ∧
        ((∃ m run, b.stage = .returned m run ∧
            ExactlyOnce s₀ s s₀.batches.length count classify m run) ∨
          (b.holdsRunLock = true ∧ s.Ready s₀.batches.length) ∨
          (b.stage = .locking ∧ (s.Ready s₀.batches.length ∨
            ∃ j d, s.batches[j]? = some d ∧ d.holdsRunLock = true ∧ s.Ready j))) := by
  have hreach₀ : Reachable n now s₀ := ⟨as₀, h₀⟩
  have hreach : Reachable n now s := hreach₀.trans h
  obtain ⟨hsteps, b, hi, rfl, rfl, hge, hstages⟩ :=
    exec_runManyClassified hcount hreach₀ h hreturn
  refine ⟨hsteps, b, hi, ?_⟩
  rcases hstages with ⟨m, run, hstage⟩ | hready | hlocking
  · have hlanes : 0 < s.scheduler.laneCount := by
      rw [hreach.laneCount]
      exact Nat.pos_of_ne_zero fun h₀ => hn (UInt64.toNat_inj.mp h₀)
    have hfresh₀ := hreach₀.idsFresh ((exec_nextExecutionId_le h).trans hids.le)
    exact .inl ⟨m, run, hstage, exactlyOnce_of_returned hlanes hfresh₀ (hreach.idsFresh hids.le) hi
      hstage (hreach.batches_kept b (List.mem_of_getElem? hi)) (hge hids.le)⟩
  · exact .inr (.inl hready)
  · exact .inr (.inr hlocking)

/-- Three jobs on two lanes, the second of which fails and the third of which is
rejected, from after the call to its return. Another call draws an id in between. -/
def batchRun : List (Action Bool) :=
  [[.batch 0, .batch 0, .runOneObserved], List.replicate 11 (.batch 0),
    List.replicate 6 (.worker 0 0 .go), List.replicate 6 (.worker 0 1 .go),
    [.worker 0 0 (.start 0), .worker 0 1 (.start 0), .worker 0 1 (.finish (.error "failed"))],
    List.replicate 12 (.worker 0 1 .go),
    [.worker 0 1 (.start 0), .worker 0 1 (.finish (.ok false)), .worker 0 0 (.finish (.ok true))],
    List.replicate 7 (.worker 0 0 .go), List.replicate 7 (.worker 0 1 .go), [.batch 0]].flatten

def acceptTrue (value : Bool) : Option String := if value then none else some "rejected"

theorem runManyClassified_exactlyOnce_batchRun :
    ∃ (s : State Bool) (b : RunManyClassified Bool) (m : BatchMemory Bool)
      (run : SchedulerRun Bool),
      exec (fresh 2 0) (.runManyClassified 3 acceptTrue :: batchRun) = some s ∧
        s.batches[0]? = some b ∧ b.stage = .returned m run ∧
        ExactlyOnce (fresh 2 0) s 0 3 acceptTrue m run ∧
        run.results.map (fun r => (r.id, r.report.success, r.report.error)) =
          [(0, true, none), (2, false, some "failed"), (3, false, some "rejected")] := by
  have hrun := runManyClassified_exactlyOnce (show (2 : UInt64) ≠ 0 by decide)
    (show (3 : UInt64) ≠ 0 by decide)
    (show exec (fresh 2 0) [] = some (fresh 2 0 : State Bool) from rfl)
    (show exec (fresh 2 0) (.runManyClassified 3 acceptTrue :: batchRun) = some _ from rfl)
    (by decide) (by decide)
  obtain ⟨-, b, hb, ⟨m, run, hstage, honce⟩ | ⟨hholds, -⟩ | ⟨hstage, -⟩⟩ := hrun
  · refine ⟨_, b, m, run, rfl, hb, hstage, honce, ?_⟩
    cases hb
    cases hstage
    rfl
  · cases hb
    cases hholds
  · cases hb
    cases hstage

end State

end PitBox.Scheduler
