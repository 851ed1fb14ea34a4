import PitBox.Foundations.WorkQueue
import PitBox.Scheduler.Steps

/-!
# The memory of a batch

What holds of the memory its workers share, whatever the order of their
steps. Three logs draw on the queue of ids through the one cursor: the calls
of the task, the calls that have returned, and the delivered results. Each
counter of the run state is the number of workers in some part of the loop
and of the results past it, and each lane cell shows what its worker does.
-/

namespace PitBox.Scheduler

open Table Ledger WorkQueue

variable {T : Type}

def ExecutionResult.id (r : ExecutionResult T) : ExecutionId := r.report.executionId

def RunState.outcomes (s : RunState) : Bool → UInt64
  | true => s.completed
  | false => s.failed

/-- The result reports a finished call of the task and what classification made
of its outcome. -/
def ExecutionResult.Reports (classify : T → Option String) (r : ExecutionResult T)
    (t : TaskRun T) : Prop :=
  r.report.executionId = t.executionId ∧ r.report.laneId = t.laneId ∧
    (r.report.success, r.report.error, r.value) = classifyOutcome classify t.outcome

/-- What a worker carries is backed by the history of its batch. -/
def LaneWorker.Backed (classify : T → Option String) (lane : LaneId) (m : BatchMemory T) :
    LaneWorker T → Prop
  | .executing j _ => (j.executionId, lane) ∈ m.begun
  | .ended j _ _ outcome => ⟨j.executionId, lane, outcome⟩ ∈ m.ran
  | .classified r | .tallied r | .logged r | .quieted r | .freed r =>
    ∃ t ∈ m.ran, r.Reports classify t
  | _ => True

/-- The books of a batch of `count` jobs. -/
structure BatchMemory.Kept (count : ℕ) (classify : T → Option String) (m : BatchMemory T)
    (workers : List (LaneWorker T)) : Prop where
  results : Balanced m.executionIds m.nextExecution (m.results.map (·.id)) LaneWorker.job? workers
  begun : Balanced m.executionIds m.nextExecution (m.begun.map Prod.fst) LaneWorker.unbegun? workers
  ran : Balanced m.executionIds m.nextExecution (m.ran.map (·.executionId))
    LaneWorker.unended? workers
  queued : Tracks m.state.queued (tally LaneWorker.queued workers + (count - m.nextExecution))
  running : Tracks m.state.running (tally LaneWorker.running workers)
  outcomes : ∀ success, Tracks (m.state.outcomes success)
    (tally (·.tallied? == some success) workers + m.results.countP (·.report.success == success))
  lanes : m.state.lanes = workers.map LaneWorker.laneState
  ran_begun : ∀ t ∈ m.ran, (t.executionId, t.laneId) ∈ m.begun
  reported : ∀ r ∈ m.results, ∃ t ∈ m.ran, r.Reports classify t
  backed : ∀ (l : ℕ) (w : LaneWorker T), workers[l]? = some w → w.Backed classify l m
  exited : LaneWorker.exited ∈ workers → count ≤ m.nextExecution

namespace LaneWorker

variable {now : Instant} {p p' : PitScheduler} {e : Choice T} {count : ℕ}
  {classify : T → Option String} {lane : LaneId} {m m' : BatchMemory T} {w w' : LaneWorker T}

theorem step_frame (h : w.step now count classify lane p m e = some (p', m', w')) :
    m'.executionIds = m.executionIds ∧ m.nextExecution ≤ m'.nextExecution ∧
      m.begun ⊆ m'.begun ∧ m.ran ⊆ m'.ran := by
  revert h
  fun_cases step now count classify lane p m w e <;> intro h <;> cases h <;>
    simp [BatchMemory.claim]

theorem step_results (hlength : m.executionIds.length = count)
    (h : w.step now count classify lane p m e = some (p', m', w')) :
    Move m.executionIds job? m.nextExecution (m.results.map (·.id)) w
      m'.nextExecution (m'.results.map (·.id)) w' := by
  revert h
  fun_cases step now count classify lane p m w e <;> intro h <;> cases h
  all_goals first
    | exact .keep rfl
    | exact .overshoot (hlength.trans_le ‹_›) rfl
    | exact .claim _ ‹_› rfl rfl
    | (rw [List.map_append]; exact .settle _ rfl rfl)

theorem step_begun (hlength : m.executionIds.length = count)
    (h : w.step now count classify lane p m e = some (p', m', w')) :
    Move m.executionIds unbegun? m.nextExecution (m.begun.map Prod.fst) w
      m'.nextExecution (m'.begun.map Prod.fst) w' := by
  revert h
  fun_cases step now count classify lane p m w e <;> intro h <;> cases h
  all_goals first
    | exact .keep rfl
    | exact .overshoot (hlength.trans_le ‹_›) rfl
    | exact .claim _ ‹_› rfl rfl
    | (rw [List.map_append]; exact .settle _ rfl rfl)

theorem step_ran (hlength : m.executionIds.length = count)
    (h : w.step now count classify lane p m e = some (p', m', w')) :
    Move m.executionIds unended? m.nextExecution (m.ran.map (·.executionId)) w
      m'.nextExecution (m'.ran.map (·.executionId)) w' := by
  revert h
  fun_cases step now count classify lane p m w e <;> intro h <;> cases h
  all_goals first
    | exact .keep rfl
    | exact .overshoot (hlength.trans_le ‹_›) rfl
    | exact .claim _ ‹_› rfl rfl
    | (rw [List.map_append]; exact .settle _ rfl rfl)

theorem step_queued (h : w.step now count classify lane p m e = some (p', m', w')) :
    CountMove queued m.state.queued (count - m.nextExecution) w
      m'.state.queued (count - m'.nextExecution) w' := by
  revert h
  fun_cases step now count classify lane p m w e <;> intro h <;> cases h
  all_goals first
    | exact .keep rfl
    | exact .lower (by simp [queued, Nat.add_comm])
    | (refine .keep ?_
       simp only [queued, BatchMemory.claim, Bool.toNat_false, Bool.toNat_true]
       omega)

theorem step_running (h : w.step now count classify lane p m e = some (p', m', w')) :
    CountMove running m.state.running 0 w m'.state.running 0 w' := by
  revert h
  fun_cases step now count classify lane p m w e <;> intro h <;> cases h
  all_goals first
    | exact .keep rfl
    | exact .raise rfl
    | exact .lower rfl

theorem step_outcomes (h : w.step now count classify lane p m e = some (p', m', w'))
    (success : Bool) :
    CountMove (·.tallied? == some success) (m.state.outcomes success)
      (m.results.countP (·.report.success == success)) w
      (m'.state.outcomes success) (m'.results.countP (·.report.success == success)) w' := by
  revert h
  fun_cases step now count classify lane p m w e <;> intro h <;> cases h
  all_goals first
    | exact .keep rfl
    | skip
  case case14 r hr =>
    cases success with
    | true => exact .raise (by simp [tallied?, hr, Nat.add_comm])
    | false => exact .keep (by simp [tallied?, hr])
  case case15 r hr =>
    cases success with
    | true => exact .keep (by simp [tallied?, hr])
    | false => exact .raise (by simp [tallied?, hr, Nat.add_comm])
  case case19 r =>
    refine .keep ?_
    cases hr : r.report.success == success <;> simp [tallied?, hr, Nat.add_comm]

theorem step_lanes (hw : m.state.lanes[lane]? = some w.laneState)
    (h : w.step now count classify lane p m e = some (p', m', w')) :
    m'.state.lanes = m.state.lanes.set lane w'.laneState := by
  have hsame : m.state.lanes = m.state.lanes.set lane w.laneState := by
    obtain ⟨hlt, hget⟩ := List.getElem?_eq_some_iff.mp hw
    rw [← hget, List.set_getElem_self]
  revert h
  fun_cases step now count classify lane p m w e <;> intro h <;> cases h
  all_goals first
    | exact hsame
    | rfl

theorem step_backed (hw : w.Backed classify lane m)
    (h : w.step now count classify lane p m e = some (p', m', w')) :
    w'.Backed classify lane m' := by
  revert h
  fun_cases step now count classify lane p m w e <;> intro h <;> cases h
  all_goals first
    | exact hw
    | trivial
    | exact List.mem_append_right _ (List.mem_singleton_self _)
    | skip
  case case12 j t duration outcome => exact ⟨_, hw, rfl, rfl, rfl⟩

theorem Backed.mono (hw : w.Backed classify lane m) (hbegun : m.begun ⊆ m'.begun)
    (hran : m.ran ⊆ m'.ran) : w.Backed classify lane m' := by
  cases w with
  | executing j t => exact hbegun hw
  | ended j t duration outcome => exact hran hw
  | classified r | tallied r | logged r | quieted r | freed r =>
    obtain ⟨t, ht, hr⟩ := hw
    exact ⟨t, hran ht, hr⟩
  | _ => trivial

theorem step_ran_begun (hw : w.Backed classify lane m)
    (hb : ∀ t ∈ m.ran, (t.executionId, t.laneId) ∈ m.begun)
    (h : w.step now count classify lane p m e = some (p', m', w')) :
    ∀ t ∈ m'.ran, (t.executionId, t.laneId) ∈ m'.begun := by
  revert h
  fun_cases step now count classify lane p m w e <;> intro h <;> cases h
  all_goals first
    | exact hb
    | exact fun t ht => List.mem_append_left _ (hb t ht)
    | skip
  · intro t ht
    rcases List.mem_append.mp ht with ht | ht
    · exact hb t ht
    · obtain rfl := List.mem_singleton.mp ht
      exact hw

theorem step_reported (hw : w.Backed classify lane m)
    (hr : ∀ r ∈ m.results, ∃ t ∈ m.ran, r.Reports classify t)
    (h : w.step now count classify lane p m e = some (p', m', w')) :
    ∀ r ∈ m'.results, ∃ t ∈ m'.ran, r.Reports classify t := by
  obtain ⟨-, -, -, hran⟩ := step_frame h
  have hmono : ∀ r ∈ m.results, ∃ t ∈ m'.ran, r.Reports classify t := by
    intro r hmem
    obtain ⟨t, ht, hrt⟩ := hr r hmem
    exact ⟨t, hran ht, hrt⟩
  revert h hmono
  fun_cases step now count classify lane p m w e <;> intro h <;> cases h
  all_goals first
    | exact fun hmono => hmono
    | skip
  · intro hmono r hmem
    rcases List.mem_append.mp hmem with hmem | hmem
    · exact hmono r hmem
    · obtain rfl := List.mem_singleton.mp hmem
      exact hw

theorem step_exited (h : w.step now count classify lane p m e = some (p', m', w'))
    (hw : w' = .exited) : count ≤ m'.nextExecution := by
  revert h hw
  fun_cases step now count classify lane p m w e <;> intro h hw <;> cases h <;> cases hw
  exact Nat.le_succ_of_le ‹_›

end LaneWorker

namespace BatchMemory.Kept

variable {now : Instant} {p p' : PitScheduler} {e : Choice T} {count : ℕ}
  {classify : T → Option String} {m m' : BatchMemory T} {workers : List (LaneWorker T)}

/-- One step of one worker keeps the books of the batch. -/
theorem step (h : m.Kept count classify workers) (hlength : m.executionIds.length = count)
    {l : ℕ} {w w' : LaneWorker T} (hi : workers[l]? = some w)
    (hs : w.step now count classify l p m e = some (p', m', w')) :
    m'.Kept count classify (workers.set l w') := by
  obtain ⟨hids, hcursor, hbegun, hran⟩ := LaneWorker.step_frame hs
  have hw := h.backed l w hi
  constructor
  · rw [hids]
    exact h.results.move hi (LaneWorker.step_results hlength hs)
  · rw [hids]
    exact h.begun.move hi (LaneWorker.step_begun hlength hs)
  · rw [hids]
    exact h.ran.move hi (LaneWorker.step_ran hlength hs)
  · exact h.queued.move hi (LaneWorker.step_queued hs)
  · exact h.running.move_tally hi (LaneWorker.step_running hs)
  · exact fun success => (h.outcomes success).move hi (LaneWorker.step_outcomes hs success)
  · rw [LaneWorker.step_lanes (by simp [h.lanes, hi]) hs, h.lanes, List.map_set]
  · exact LaneWorker.step_ran_begun hw h.ran_begun hs
  · exact LaneWorker.step_reported hw h.reported hs
  · intro k x hk
    rcases eq_or_ne l k with rfl | hlk
    · rw [List.getElem?_set_self (List.getElem?_eq_some_iff.mp hi).1] at hk
      cases hk
      exact LaneWorker.step_backed hw hs
    · rw [List.getElem?_set_ne hlk] at hk
      exact (h.backed k x hk).mono hbegun hran
  · intro hexited
    rcases List.mem_or_eq_of_mem_set hexited with hmem | heq
    · exact (h.exited hmem).trans hcursor
    · exact LaneWorker.step_exited hs heq.symm

end BatchMemory.Kept

/-- The memory of a batch before its workers start. -/
structure BatchMemory.Prepared (laneCount : ℕ) (count : UInt64) (m : BatchMemory T) : Prop where
  nextExecution : m.nextExecution = 0
  results : m.results = []
  begun : m.begun = []
  ran : m.ran = []
  state : ∃ events, m.state = { RunState.new laneCount count with events }

theorem BatchMemory.Prepared.kept {laneCount : ℕ} {count : UInt64} {m : BatchMemory T}
    (h : m.Prepared laneCount count) (classify : T → Option String) :
    m.Kept count.toNat classify (List.replicate laneCount .claiming) := by
  obtain ⟨events, hstate⟩ := h.state
  have hidle {f : LaneWorker T → Option ExecutionId} (hf : f .claiming = none) :
      Balanced m.executionIds 0 [] f (List.replicate laneCount .claiming) :=
    .initial fun w hw => (List.eq_of_mem_replicate hw) ▸ hf
  have hnone {f : LaneWorker T → Bool} (hf : f .claiming = false) :
      tally f (List.replicate laneCount .claiming) = 0 :=
    tally_eq_zero.mpr fun w hw => (List.eq_of_mem_replicate hw) ▸ hf
  constructor
  · rw [h.nextExecution, h.results]
    exact hidle rfl
  · rw [h.nextExecution, h.begun]
    exact hidle rfl
  · rw [h.nextExecution, h.ran]
    exact hidle rfl
  · rw [h.nextExecution, hstate, hnone rfl, Nat.zero_add]
    exact UInt64.ofNat_toNat.symm
  · rw [hstate, hnone rfl]
    rfl
  · intro success
    rw [hstate, h.results, hnone (by cases success <;> rfl)]
    cases success <;> rfl
  · simp [hstate, RunState.new, LaneWorker.laneState]
  · simp [h.ran]
  · simp [h.results]
  · intro l w hw
    obtain rfl := List.eq_of_mem_replicate (List.mem_of_getElem? hw)
    trivial
  · intro hmem
    cases List.eq_of_mem_replicate hmem

/-- The books of a batch call, wherever its thread is. -/
def BatchStage.Kept (laneCount : ℕ) (count : UInt64) (classify : T → Option String) :
    BatchStage T → Prop
  | .numbering m => m.Prepared laneCount count ∧ m.executionIds.length ≤ count.toNat
  | .stamping m | .announcing m =>
    m.Prepared laneCount count ∧ m.executionIds.length = count.toNat
  | .working m workers =>
    m.executionIds.length = count.toNat ∧ workers.length = laneCount ∧
      m.Kept count.toNat classify workers
  | .returned m run =>
    m.executionIds.length = count.toNat ∧
      m.Kept count.toNat classify (List.replicate laneCount .exited) ∧ run = collect laneCount m
  | _ => True

theorem LaneWorker.eq_exited {laneCount : ℕ} {workers : List (LaneWorker T)}
    (hlength : workers.length = laneCount) (hdone : workers.all LaneWorker.isDone = true)
    (hunwound : ¬workers.any LaneWorker.hasUnwound = true) :
    workers = List.replicate laneCount .exited := by
  refine List.eq_replicate_iff.mpr ⟨hlength, fun w hw => ?_⟩
  have h₁ := List.all_eq_true.mp hdone w hw
  have h₂ : w.hasUnwound = false := by
    simpa using (fun h₂ => hunwound (List.any_eq_true.mpr ⟨w, hw, h₂⟩))
  revert h₁ h₂
  fun_cases LaneWorker.isDone w <;> simp [LaneWorker.hasUnwound]

namespace BatchStage.Kept

variable {now : Instant} {p p' : PitScheduler} {e : Choice T} {count : UInt64}
  {classify : T → Option String} {b b' : BatchStage T}

theorem step (h : b.Kept p.laneCount count classify) (hs : b.step now count p = some (p', b')) :
    b'.Kept p.laneCount count classify := by
  revert h hs
  fun_cases BatchStage.step now count p b <;> intro h hs <;> cases hs
  · exact ⟨⟨rfl, rfl, rfl, rfl, [], rfl⟩, Nat.zero_le _⟩
  · rename_i hlt
    obtain ⟨h, -⟩ := h
    refine ⟨⟨h.1, h.2, h.3, h.4, h.5⟩, ?_⟩
    rw [List.length_append]
    exact hlt
  · exact ⟨h.1, le_antisymm h.2 (not_lt.mp ‹_›)⟩
  · obtain ⟨h, hlength⟩ := h
    exact ⟨⟨h.1, h.2, h.3, h.4, h.5⟩, hlength⟩
  · exact h
  · obtain ⟨h, hlength⟩ := h
    obtain ⟨events, hstate⟩ := h.state
    exact ⟨⟨h.1, h.2, h.3, h.4, _, by rw [hstate]; rfl⟩, hlength⟩
  · exact ⟨h.2, List.length_replicate, h.1.kept classify⟩
  · trivial
  · obtain ⟨hids, hlength, h⟩ := h
    rename_i m workers hdone hunwound
    have hexited := LaneWorker.eq_exited hlength hdone hunwound
    exact ⟨hids, hexited ▸ h, rfl⟩

theorem workerStep {w : ℕ} (h : b.Kept p.laneCount count classify)
    (hs : b.workerStep now count classify p w e = some (p', b')) :
    b'.Kept p.laneCount count classify := by
  obtain ⟨m, ws, x, m', x', rfl, hx, hstep, rfl⟩ := workerStep_cases hs
  obtain ⟨hids, hlength, h⟩ := h
  refine ⟨?_, by simpa using hlength, h.step hids hx hstep⟩
  rw [(LaneWorker.step_frame hstep).1, hids]

end BatchStage.Kept

end PitBox.Scheduler
