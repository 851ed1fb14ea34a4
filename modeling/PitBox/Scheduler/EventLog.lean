import PitBox.Foundations.HighWater
import PitBox.Scheduler.ExactlyOnce

/-!
# The event log of a batch

All workers push into one log, and the counters it is compared with move just
before or just after a push. Restricted to one lane the log is the story of
one worker, and that is the invariant: two events for each result delivered on
the lane, in order, and what the worker has pushed for the job it has now.
Across lanes only a count is kept: the executions started and not terminated
are those of workers that have folded their count into the peak.
-/

namespace PitBox.Scheduler

open Table Ledger HighWater

variable {T : Type}

namespace ExecutionEvent

def executionId : ExecutionEvent → ExecutionId
  | .queued id | .started id _ _ | .completed id _ _ | .failed id _ _ _ => id

def lane? : ExecutionEvent → Option LaneId
  | .queued _ => none
  | .started _ l _ | .completed _ l _ | .failed _ l _ _ => some l

def isStarted : ExecutionEvent → Bool
  | .started _ _ _ => true
  | _ => false

def isTerminal : ExecutionEvent → Bool
  | .completed _ _ _ | .failed _ _ _ _ => true
  | _ => false

@[simp] theorem isStarted_started (id : ExecutionId) (l : LaneId) (d : Duration) :
    (started id l d).isStarted = true := rfl

@[simp] theorem isStarted_queued (id : ExecutionId) : (queued id).isStarted = false := rfl

@[simp] theorem isTerminal_queued (id : ExecutionId) : (queued id).isTerminal = false := rfl

@[simp] theorem isTerminal_started (id : ExecutionId) (l : LaneId) (d : Duration) :
    (started id l d).isTerminal = false := rfl

@[simp] theorem lane?_started (id : ExecutionId) (l : LaneId) (d : Duration) :
    (started id l d).lane? = some l := rfl

end ExecutionEvent

def ExecutionResult.entry (r : ExecutionResult T) : List ExecutionEvent :=
  [.started r.report.executionId r.report.laneId r.report.queuedFor,
    terminalEvent r.report.laneId r]

/-- The id has been started in the log and not terminated. -/
def openIn (log : List ExecutionEvent) (id : ExecutionId) : Bool :=
  log.any (fun e => e.isStarted && e.executionId == id) &&
    !log.any (fun e => e.isTerminal && e.executionId == id)

@[simp] theorem terminalEvent_lane? (l : LaneId) (r : ExecutionResult T) :
    (terminalEvent l r).lane? = some l := by
  unfold terminalEvent
  split_ifs <;> rfl

@[simp] theorem terminalEvent_executionId (l : LaneId) (r : ExecutionResult T) :
    (terminalEvent l r).executionId = r.report.executionId := by
  unfold terminalEvent
  split_ifs <;> rfl

@[simp] theorem terminalEvent_isStarted (l : LaneId) (r : ExecutionResult T) :
    (terminalEvent l r).isStarted = false := by
  unfold terminalEvent
  split_ifs <;> rfl

@[simp] theorem terminalEvent_isTerminal (l : LaneId) (r : ExecutionResult T) :
    (terminalEvent l r).isTerminal = true := by
  unfold terminalEvent
  split_ifs <;> rfl

namespace LaneWorker

/-- What the worker has pushed for the job it has, as far as it still knows. -/
def log? (lane : LaneId) : LaneWorker T → Option (List ExecutionEvent)
  | .announced j queuedFor => some [.started j.executionId lane queuedFor]
  | .executing j t | .ended j t _ _ => some [.started j.executionId lane t.queuedFor]
  | .classified r | .tallied r =>
    some [.started r.report.executionId lane r.report.queuedFor]
  | .logged r | .quieted r | .freed r =>
    some [.started r.report.executionId lane r.report.queuedFor, terminalEvent lane r]
  | .unwound _ _ => none
  | _ => some []

def result? : LaneWorker T → Option (ExecutionResult T)
  | .classified r | .tallied r | .logged r | .quieted r | .freed r => some r
  | _ => none

def pendingPeak? : LaneWorker T → Option ℕ
  | .activated _ active => some active.toNat
  | _ => none

/-- The worker's job is started in the log and not terminated. -/
def isOpen : LaneWorker T → Bool
  | .announced _ _ | .executing _ _ | .ended _ _ _ _ | .classified _ | .tallied _ => true
  | .unwound _ _ => true
  | _ => false

variable {now : Instant} {p p' : PitScheduler} {e : Choice T} {count : ℕ}
  {classify : T → Option String} {lane : LaneId} {m m' : BatchMemory T} {w w' : LaneWorker T}

theorem step_events (h : w.step now count classify lane p m e = some (p', m', w')) :
    m'.state.events = m.state.events ∨
      ∃ event, m'.state.events = m.state.events ++ [event] ∧ event.lane? = some lane ∧
        (event.isStarted = true → w'.isOpen = true) := by
  revert h
  fun_cases step now count classify lane p m w e <;> intro h <;> cases h
  all_goals first
    | exact .inl rfl
    | exact .inr ⟨_, rfl, rfl, fun _ => rfl⟩
    | exact .inr ⟨_, rfl, terminalEvent_lane? _ _, fun hstarted => by simp at hstarted⟩

theorem step_peak_le (h : w.step now count classify lane p m e = some (p', m', w')) :
    m.state.peakActive.toNat ≤ m'.state.peakActive.toNat := by
  revert h
  fun_cases step now count classify lane p m w e <;> intro h <;> cases h
  all_goals first
    | exact le_rfl
    | (rw [UInt64.toNat_max]; exact le_max_left _ _)

theorem step_delivers (h : w.step now count classify lane p m e = some (p', m', w')) :
    m'.results = m.results ∨ ∃ r, w.result? = some r ∧ m'.results = m.results ++ [r] := by
  revert h
  fun_cases step now count classify lane p m w e <;> intro h <;> cases h
  all_goals first
    | exact .inl rfl
    | exact .inr ⟨_, rfl, rfl⟩

theorem step_result (hw : ∀ r ∈ w.result?, r.report.laneId = lane)
    (h : w.step now count classify lane p m e = some (p', m', w')) :
    ∀ r ∈ w'.result?, r.report.laneId = lane := by
  revert h hw
  fun_cases step now count classify lane p m w e <;> intro hw h <;> cases h
  all_goals first
    | exact hw
    | (rintro r ⟨⟩; rfl)
    | rintro r ⟨⟩

theorem step_peak (h : w.step now count classify lane p m e = some (p', m', w'))
    (hraise : w.running = false → w'.running = true →
      m'.state.running.toNat = m.state.running.toNat + 1) :
    HighWater.Move running pendingPeak? m.state.running.toNat m.state.peakActive.toNat w
      m'.state.peakActive.toNat w' := by
  revert h hraise
  fun_cases step now count classify lane p m w e <;> intro h <;> cases h <;> intro hraise
  all_goals first
    | exact .keep rfl rfl
    | exact .lower rfl rfl rfl
    | exact .raise rfl rfl rfl (congrArg some (hraise rfl rfl))
    | skip
  rename_i j active
  rw [UInt64.toNat_max]
  exact .record active.toNat rfl rfl rfl

theorem step_open (h : w.step now count classify lane p m e = some (p', m', w')) :
    m'.state.events.countP (·.isStarted) + m.state.events.countP (·.isTerminal) +
        w.isOpen.toNat =
      m.state.events.countP (·.isStarted) + m'.state.events.countP (·.isTerminal) +
        w'.isOpen.toNat := by
  revert h
  fun_cases step now count classify lane p m w e <;> intro h <;> cases h
  all_goals simp [isOpen, BatchMemory.claim, RunState.pushEvent, RunState.setLane]
  all_goals omega

theorem job_of_running (h : w.running = true) : w.job?.isSome = true := by
  revert h
  fun_cases running w <;> simp [job?]

theorem running_of_isOpen (h : w.isOpen = true) : w.running = true ∧ w.pendingPeak? = none := by
  revert h
  fun_cases isOpen w <;> simp [running, pendingPeak?]

end LaneWorker

/-! ### One lane -/

def onLane (l : LaneId) (log : List ExecutionEvent) : List ExecutionEvent :=
  log.filter (·.lane? == some l)

def deliveredOn (l : LaneId) (results : List (ExecutionResult T)) : List (ExecutionResult T) :=
  results.filter (·.report.laneId == l)

theorem onLane_concat (l : LaneId) (log : List ExecutionEvent) (event : ExecutionEvent) :
    onLane l (log ++ [event]) = onLane l log ++ if event.lane? = some l then [event] else [] := by
  by_cases h : event.lane? = some l <;> simp [onLane, h]

theorem deliveredOn_concat (l : LaneId) (results : List (ExecutionResult T))
    (r : ExecutionResult T) : deliveredOn l (results ++ [r]) =
      deliveredOn l results ++ if r.report.laneId = l then [r] else [] := by
  by_cases h : r.report.laneId = l <;> simp [deliveredOn, h]

/-- The log of a lane is the story of its worker. -/
def TellsLane (m : BatchMemory T) (l : LaneId) (w : LaneWorker T) : Prop :=
  ∀ log, w.log? l = some log →
    onLane l m.state.events = (deliveredOn l m.results).flatMap ExecutionResult.entry ++ log

def TakesInOrder (m : BatchMemory T) (l : LaneId) (w : LaneWorker T) : Prop :=
  ((deliveredOn l m.results).map (·.id) ++ w.job?.toList).Sublist
    (m.executionIds.take m.nextExecution)

namespace LaneWorker

variable {now : Instant} {p p' : PitScheduler} {e : Choice T} {count : ℕ}
  {classify : T → Option String} {lane : LaneId} {m m' : BatchMemory T} {w w' : LaneWorker T}

theorem step_tellsLane (hw : ∀ r ∈ w.result?, r.report.laneId = lane) (htells : TellsLane m lane w)
    (h : w.step now count classify lane p m e = some (p', m', w')) : TellsLane m' lane w' := by
  revert h hw htells
  fun_cases step now count classify lane p m w e <;> intro hw htells h <;> cases h
  all_goals
    intro log hlog
    cases hlog
  all_goals first
    | exact htells _ rfl
    | skip
  · -- the start is pushed
    have hlane := htells [] rfl
    rw [List.append_nil] at hlane
    simp [RunState.pushEvent, onLane_concat, hlane]
  · -- the end is pushed
    have hlane := htells _ rfl
    simp [RunState.pushEvent, onLane_concat, hlane]
  · -- the result is delivered
    rename_i r
    have hlane := htells _ rfl
    have hr : r.report.laneId = lane := hw r rfl
    simp [deliveredOn_concat, hr, hlane, ExecutionResult.entry]

theorem step_takesInOrder (hw : ∀ r ∈ w.result?, r.report.laneId = lane)
    (horder : TakesInOrder m lane w)
    (h : w.step now count classify lane p m e = some (p', m', w')) : TakesInOrder m' lane w' := by
  revert h hw horder
  fun_cases step now count classify lane p m w e <;> intro hw horder h <;> cases h
  all_goals first
    | exact horder
    | skip
  · -- the cursor overshoots
    exact horder.trans (List.take_sublist_take_left (Nat.le_succ _))
  · -- a job is taken
    rename_i id hid
    have htake : m.executionIds.take (m.nextExecution + 1) =
        m.executionIds.take m.nextExecution ++ [id] := by
      rw [List.take_add_one, hid, Option.toList_some]
    unfold TakesInOrder at horder ⊢
    simp only [BatchMemory.claim, htake]
    simpa [job?] using horder
  · -- the result is delivered
    rename_i r
    have hr : r.report.laneId = lane := hw r rfl
    unfold TakesInOrder at horder ⊢
    simpa [deliveredOn_concat, hr, job?, ExecutionResult.id] using horder

end LaneWorker

/-! ### The whole log -/

/-- The log of a batch while its workers run. -/
structure BatchMemory.Logged (m : BatchMemory T) (workers : List (LaneWorker T)) : Prop where
  queued : m.state.events = m.executionIds.map .queued ++ m.state.events.filter (·.lane?.isSome)
  events_within : ∀ e ∈ m.state.events, ∀ l, e.lane? = some l → l < workers.length
  results_within : ∀ r ∈ m.results, r.report.laneId < workers.length
  carried : ∀ (l : ℕ) (w : LaneWorker T), workers[l]? = some w →
    ∀ r ∈ w.result?, r.report.laneId = l
  told : ∀ (l : ℕ) (w : LaneWorker T), workers[l]? = some w → TellsLane m l w
  inOrder : ∀ (l : ℕ) (w : LaneWorker T), workers[l]? = some w → TakesInOrder m l w
  peak : ∃ top ≤ min workers.length m.executionIds.length,
    Recorded LaneWorker.running LaneWorker.pendingPeak? m.state.peakActive.toNat top workers
  balanced : m.state.events.countP (·.isStarted) =
    m.state.events.countP (·.isTerminal) + tally LaneWorker.isOpen workers
  prefixes : ∀ log, log <+: m.state.events →
    log.countP (·.isStarted) ≤ log.countP (·.isTerminal) + m.state.peakActive.toNat
  started : m.state.events.any (·.isStarted) = true → 0 < m.state.peakActive.toNat

theorem TellsLane.other {now : Instant} {p p' : PitScheduler} {e : Choice T} {count : ℕ}
    {classify : T → Option String} {lane l : LaneId} {m m' : BatchMemory T} {w w' x : LaneWorker T}
    (hx : TellsLane m l x) (hl : lane ≠ l) (hw : ∀ r ∈ w.result?, r.report.laneId = lane)
    (h : w.step now count classify lane p m e = some (p', m', w')) : TellsLane m' l x := by
  have hevents : onLane l m'.state.events = onLane l m.state.events := by
    rcases LaneWorker.step_events h with heq | ⟨event, heq, hlane, -⟩
    · rw [heq]
    · simp [heq, onLane_concat, hlane, hl]
  have hresults : deliveredOn l m'.results = deliveredOn l m.results := by
    rcases LaneWorker.step_delivers h with heq | ⟨r, hr, heq⟩
    · rw [heq]
    · simp [heq, deliveredOn_concat, hw r hr, hl]
  intro log hlog
  rw [hevents, hresults]
  exact hx log hlog

theorem TakesInOrder.other {now : Instant} {p p' : PitScheduler} {e : Choice T} {count : ℕ}
    {classify : T → Option String} {lane l : LaneId} {m m' : BatchMemory T} {w w' x : LaneWorker T}
    (hx : TakesInOrder m l x) (hl : lane ≠ l) (hw : ∀ r ∈ w.result?, r.report.laneId = lane)
    (h : w.step now count classify lane p m e = some (p', m', w')) : TakesInOrder m' l x := by
  obtain ⟨hids, hcursor, -⟩ := LaneWorker.step_frame h
  have hresults : deliveredOn l m'.results = deliveredOn l m.results := by
    rcases LaneWorker.step_delivers h with heq | ⟨r, hr, heq⟩
    · rw [heq]
    · simp [heq, deliveredOn_concat, hw r hr, hl]
  unfold TakesInOrder at hx ⊢
  rw [hresults, hids]
  exact hx.trans (List.take_sublist_take_left hcursor)

namespace BatchMemory.Logged

variable {now : Instant} {p p' : PitScheduler} {e : Choice T} {count : ℕ}
  {classify : T → Option String} {m m' : BatchMemory T} {workers : List (LaneWorker T)}

/-- The greatest running count stays within the lanes and the jobs. -/
theorem step_peak (h : m.Logged workers) (hkept : m.Kept count classify workers)
    (hwords : workers.length < 2 ^ 64) {l : ℕ} {w w' : LaneWorker T} (hi : workers[l]? = some w)
    (hs : w.step now count classify l p m e = some (p', m', w'))
    (hkept' : m'.Kept count classify (workers.set l w')) :
    ∃ top ≤ min (workers.set l w').length m'.executionIds.length,
      Recorded LaneWorker.running LaneWorker.pendingPeak? m'.state.peakActive.toNat top
        (workers.set l w') := by
  obtain ⟨top, htop, hpeak⟩ := h.peak
  have hle (ws : List (LaneWorker T)) : tally LaneWorker.running ws ≤ ws.length := by
    rw [tally_eq_countP]
    exact List.countP_le_length
  have hbefore := hkept.running.toNat ((hle workers).trans_lt hwords)
  have hafter := hkept'.running.toNat ((hle (workers.set l w')).trans_lt (by simpa using hwords))
  have hmove := LaneWorker.step_peak hs (fun hidle hrunning => by
    have ht := tally_set (p := LaneWorker.running) (b := w') hi
    rw [hidle, hrunning] at ht
    rw [hbefore, hafter]
    exact ht)
  rw [hbefore] at hmove
  refine ⟨_, ?_, hpeak.move hi hmove⟩
  have hjobs : tally LaneWorker.running (workers.set l w') ≤ m'.executionIds.length := by
    refine le_trans ?_ hkept'.results.tally_le
    apply total_le_total
    intro x _
    apply Bool.toNat_le_toNat
    exact LaneWorker.job_of_running
  have hlanes := hle (workers.set l w')
  rw [(LaneWorker.step_frame hs).1] at hjobs ⊢
  simp only [List.length_set] at hlanes ⊢
  omega

/-- One step of one worker keeps the log. -/
theorem step (h : m.Logged workers) (hkept : m.Kept count classify workers)
    (hlength : m.executionIds.length = count) (hwords : workers.length < 2 ^ 64)
    {l : ℕ} {w w' : LaneWorker T} (hi : workers[l]? = some w)
    (hs : w.step now count classify l p m e = some (p', m', w')) :
    m'.Logged (workers.set l w') := by
  have hkept' := hkept.step hlength hi hs
  have hw := h.carried l w hi
  have hl := (List.getElem?_eq_some_iff.mp hi).1
  have hset : (workers.set l w')[l]? = some w' := List.getElem?_set_self hl
  have hevents := LaneWorker.step_events hs
  have hids := (LaneWorker.step_frame hs).1
  have hpeak := h.step_peak hkept hwords hi hs hkept'
  have hpeak_le := LaneWorker.step_peak_le hs
  have hopen : tally LaneWorker.isOpen (workers.set l w') ≤ m'.state.peakActive.toNat := by
    obtain ⟨top, -, hrecorded⟩ := hpeak
    exact hrecorded.tally_le_peak fun x _ => LaneWorker.running_of_isOpen
  have hbalanced : m'.state.events.countP (·.isStarted) =
      m'.state.events.countP (·.isTerminal) + tally LaneWorker.isOpen (workers.set l w') := by
    have hbefore := h.balanced
    have hstep := LaneWorker.step_open hs
    have ht := tally_set (p := LaneWorker.isOpen) (b := w') hi
    omega
  constructor
  · rw [hids]
    rcases hevents with heq | ⟨event, heq, hlane, -⟩
    · rw [heq]
      exact h.queued
    · have hkeep : [event].filter (·.lane?.isSome) = [event] := by simp [hlane]
      rw [heq, List.filter_append, hkeep, ← List.append_assoc, ← h.queued]
  · rw [List.length_set]
    rcases hevents with heq | ⟨event, heq, hlane, -⟩
    · rw [heq]
      exact h.events_within
    · intro f hf k hk
      rw [heq] at hf
      rcases List.mem_append.mp hf with hf | hf
      · exact h.events_within f hf k hk
      · obtain rfl := List.mem_singleton.mp hf
        obtain rfl := Option.some.inj (hlane.symm.trans hk)
        exact hl
  · rw [List.length_set]
    rcases LaneWorker.step_delivers hs with heq | ⟨r, hr, heq⟩
    · rw [heq]
      exact h.results_within
    · intro x hx
      rw [heq] at hx
      rcases List.mem_append.mp hx with hx | hx
      · exact h.results_within x hx
      · obtain rfl := List.mem_singleton.mp hx
        rw [hw x hr]
        exact hl
  · intro k x hk
    rcases eq_or_ne l k with rfl | hlk
    · obtain rfl := Option.some.inj (hset.symm.trans hk)
      exact LaneWorker.step_result hw hs
    · rw [List.getElem?_set_ne hlk] at hk
      exact h.carried k x hk
  · intro k x hk
    rcases eq_or_ne l k with rfl | hlk
    · obtain rfl := Option.some.inj (hset.symm.trans hk)
      exact LaneWorker.step_tellsLane hw (h.told l w hi) hs
    · rw [List.getElem?_set_ne hlk] at hk
      exact (h.told k x hk).other hlk hw hs
  · intro k x hk
    rcases eq_or_ne l k with rfl | hlk
    · obtain rfl := Option.some.inj (hset.symm.trans hk)
      exact LaneWorker.step_takesInOrder hw (h.inOrder l w hi) hs
    · rw [List.getElem?_set_ne hlk] at hk
      exact (h.inOrder k x hk).other hlk hw hs
  · exact hpeak
  · exact hbalanced
  · have hold : ∀ log, log <+: m.state.events →
        log.countP (·.isStarted) ≤ log.countP (·.isTerminal) + m'.state.peakActive.toNat :=
      fun log hlog => (h.prefixes log hlog).trans (Nat.add_le_add_left hpeak_le _)
    rcases hevents with heq | ⟨event, heq, -, -⟩
    · rw [heq]
      exact hold
    · intro log hlog
      rw [heq, List.prefix_concat_iff] at hlog
      rcases hlog with rfl | hlog
      · rw [← heq, hbalanced]
        exact Nat.add_le_add_left hopen _
      · exact hold log hlog
  · intro hany
    rcases hevents with heq | ⟨event, heq, -, hstarted⟩
    · rw [heq] at hany
      exact (h.started hany).trans_le hpeak_le
    · rw [heq, List.any_append, Bool.or_eq_true] at hany
      rcases hany with hany | hany
      · exact (h.started hany).trans_le hpeak_le
      · have hw' := hstarted (by simpa using hany)
        exact (tally_pos (List.mem_of_getElem? hset) hw').trans_le hopen

/-- The log when the workers start: everything is announced and nothing else. -/
theorem of_prepared {laneCount : ℕ} {count : UInt64} (h : m.Prepared laneCount count)
    (hevents : m.state.events = m.executionIds.map .queued) :
    m.Logged (List.replicate laneCount .claiming) := by
  have hqueued : ∀ e ∈ m.state.events, ∃ id, e = .queued id := by
    rw [hevents]
    intro e he
    obtain ⟨id, -, rfl⟩ := List.mem_map.mp he
    exact ⟨id, rfl⟩
  have hquiet (q : ExecutionEvent → Bool) (hq : ∀ id, q (.queued id) = false) :
      ∀ e ∈ m.state.events, q e = false := by
    intro e he
    obtain ⟨id, rfl⟩ := hqueued e he
    exact hq id
  have hnone (q : ExecutionEvent → Bool) (hq : ∀ id, q (.queued id) = false) :
      m.state.events.countP q = 0 :=
    List.countP_eq_zero.mpr fun e he => by simp [hquiet q hq e he]
  have hidle (w : LaneWorker T) {l : ℕ} (hw : (List.replicate laneCount .claiming)[l]? = some w) :
      w = .claiming := List.eq_of_mem_replicate (List.mem_of_getElem? hw)
  have hpeak : m.state.peakActive = 0 := by
    obtain ⟨events, hstate⟩ := h.state
    rw [hstate]
    rfl
  constructor
  · have hfilter : m.state.events.filter (·.lane?.isSome) = [] :=
      List.filter_eq_nil_iff.mpr fun e he => by simp [hquiet (·.lane?.isSome) (fun _ => rfl) e he]
    rw [hfilter, List.append_nil]
    exact hevents
  · intro e he l hl
    obtain ⟨id, rfl⟩ := hqueued e he
    cases hl
  · simp [h.results]
  · intro l w hw r hr
    obtain rfl := hidle w hw
    cases hr
  · intro l w hw log hlog
    obtain rfl := hidle w hw
    cases hlog
    have hlane : onLane l m.state.events = [] :=
      List.filter_eq_nil_iff.mpr fun e he => by
        obtain ⟨id, rfl⟩ := hqueued e he
        simp [ExecutionEvent.lane?]
    simp [hlane, h.results, deliveredOn]
  · intro l w hw
    obtain rfl := hidle w hw
    simp [TakesInOrder, h.results, deliveredOn, LaneWorker.job?]
  · refine ⟨0, Nat.zero_le _, ?_⟩
    rw [hpeak]
    apply Recorded.initial <;>
    · intro w hw
      obtain rfl := List.eq_of_mem_replicate hw
      rfl
  · have hopen :
        tally LaneWorker.isOpen (List.replicate laneCount (.claiming : LaneWorker T)) = 0 :=
      tally_eq_zero.mpr fun w hw => (List.eq_of_mem_replicate hw) ▸ rfl
    rw [hnone _ fun _ => rfl, hnone _ fun _ => rfl, hopen]
  · intro log hlog
    have hlog' : log.countP (·.isStarted) = 0 :=
      Nat.le_zero.mp ((hlog.sublist.countP_le).trans_eq (hnone _ fun _ => rfl))
    rw [hlog']
    exact Nat.zero_le _
  · intro hany
    obtain ⟨e, he, hstarted⟩ := List.any_eq_true.mp hany
    rw [hquiet (·.isStarted) (fun _ => rfl) e he] at hstarted
    cases hstarted

end BatchMemory.Logged

/-- The log of a batch call, wherever its thread is. -/
def BatchStage.Logged (laneCount : ℕ) : BatchStage T → Prop
  | .numbering m | .stamping m => m.state.events = []
  | .announcing m =>
    m.state.events = (m.executionIds.take m.state.events.length).map .queued
  | .working m workers => m.Logged workers
  | .returned m _ => m.Logged (List.replicate laneCount .exited)
  | _ => True

namespace BatchStage.Logged

variable {now : Instant} {p p' : PitScheduler} {e : Choice T} {count : UInt64}
  {classify : T → Option String} {b b' : BatchStage T}

theorem step (h : b.Logged p.laneCount) (hkept : b.Kept p.laneCount count classify)
    (hs : b.step now count p = some (p', b')) : b'.Logged p.laneCount := by
  revert h hkept hs
  fun_cases BatchStage.step now count p b <;> intro h hkept hs <;> cases hs
  · rfl
  · exact h
  · exact h
  · exact h
  · rename_i m _
    change m.state.events = (m.executionIds.take m.state.events.length).map .queued
    rw [show m.state.events = [] from h]
    rfl
  · rename_i m id hid
    have hlog : m.state.events = (m.executionIds.take m.state.events.length).map .queued := h
    change m.state.events ++ [ExecutionEvent.queued id] = (m.executionIds.take
      (m.state.events ++ [ExecutionEvent.queued id]).length).map ExecutionEvent.queued
    rw [List.length_append, List.length_singleton, List.take_add_one, hid, Option.toList_some,
      List.map_append, ← hlog]
    rfl
  · rename_i m hend
    have hlog : m.state.events = (m.executionIds.take m.state.events.length).map .queued := h
    rw [List.take_of_length_le (List.getElem?_eq_none_iff.mp hend)] at hlog
    exact .of_prepared hkept.1 hlog
  · trivial
  · rename_i m workers hdone hunwound
    rw [LaneWorker.eq_exited hkept.2.1 hdone hunwound] at h
    exact h

theorem workerStep {w : ℕ} (h : b.Logged p.laneCount) (hkept : b.Kept p.laneCount count classify)
    (hwords : p.laneCount < 2 ^ 64) (hs : b.workerStep now count classify p w e = some (p', b')) :
    b'.Logged p.laneCount := by
  obtain ⟨m, ws, x, m', x', rfl, hx, hstep, rfl⟩ := workerStep_cases hs
  obtain ⟨hids, hlength, hbooks⟩ := hkept
  exact BatchMemory.Logged.step h hbooks hids (hlength ▸ hwords) hx hstep

end BatchStage.Logged

namespace State

theorem step_batches_logged {s t : State T} {a : Action T} (hwords : s.scheduler.laneCount < 2 ^ 64)
    (hkept : ∀ b ∈ s.batches, b.stage.Kept s.scheduler.laneCount b.count b.classify)
    (h : ∀ b ∈ s.batches, b.stage.Logged s.scheduler.laneCount) (hs : s.step a = some t) :
    ∀ b ∈ t.batches, b.stage.Logged t.scheduler.laneCount := by
  rw [step_laneCount hs]
  cases step_cases hs with
  | runManyClassified count classify =>
    intro b hb
    rcases List.mem_append.mp hb with hb | hb
    · exact h b hb
    · obtain rfl := List.mem_singleton.mp hb
      unfold RunManyClassified.enter
      split_ifs <;> trivial
  | batch hi hb =>
    intro d hd
    have hmem := List.mem_of_getElem? hi
    rcases List.mem_or_eq_of_mem_set hd with hd | rfl
    · exact h d hd
    · exact (h _ hmem).step (hkept _ hmem) hb
  | worker hi hw =>
    intro d hd
    have hmem := List.mem_of_getElem? hi
    rcases List.mem_or_eq_of_mem_set hd with hd | rfl
    · exact h d hd
    · exact (h _ hmem).workerStep (hkept _ hmem) hwords hw
  | _ => exact h

theorem Reachable.batches_logged {n : UInt64} {now : Instant} {s : State T}
    (h : Reachable n now s) : ∀ b ∈ s.batches, b.stage.Logged s.scheduler.laneCount := by
  have hboth : Reachable n now s ∧ ∀ b ∈ s.batches, b.stage.Logged s.scheduler.laneCount := by
    refine Transition.Reachable.invariant (I := fun s : State T => Reachable n now s ∧
      ∀ b ∈ s.batches, b.stage.Logged s.scheduler.laneCount) h ⟨⟨[], rfl⟩, by simp [fresh]⟩ ?_
    rintro s a t ⟨hr, hlogged⟩ hs
    have hwords : s.scheduler.laneCount < 2 ^ 64 := hr.laneCount ▸ n.toNat_lt
    exact ⟨Transition.Reachable.after hr hs,
      step_batches_logged hwords hr.batches_kept hlogged hs⟩
  exact hboth.2

end State

/-! ### The log a batch returns -/

/-- What the log of a batch of `count` jobs on `laneCount` lanes says, whose
results are those of `executionIds`. -/
structure EventLog (laneCount : ℕ) (count : UInt64) (executionIds : List ExecutionId)
    (run : SchedulerRun T) : Prop where
  drawn : executionIds.length = count.toNat
  complete : run.results.map (·.id) = executionIds
  increasing : (run.results.map (·.id)).Pairwise (· < ·)
  queued : run.events.take count.toNat = run.results.map fun r => .queued r.id
  executed : ∀ r ∈ run.results,
    (run.events.drop count.toNat).filter (·.executionId == r.id) = r.entry
  known : ∀ e ∈ run.events, ∃ r ∈ run.results, e.executionId = r.id
  lanes : ∀ l, onLane l run.events =
    (deliveredOn l run.results).flatMap ExecutionResult.entry
  prefixes : ∀ log, log <+: run.events →
    (run.results.map (·.id)).countP (openIn log) ≤ run.snapshot.peakActive.toNat
  peak : 1 ≤ run.snapshot.peakActive.toNat ∧
    run.snapshot.peakActive.toNat ≤ min laneCount count.toNat

theorem EventLog.length {laneCount : ℕ} {count : UInt64} {executionIds : List ExecutionId}
    {run : SchedulerRun T} (h : EventLog laneCount count executionIds run) :
    run.results.length = count.toNat := by
  rw [← h.drawn, ← h.complete, List.length_map]

/-- The one terminal event of a result. -/
theorem EventLog.terminal {laneCount : ℕ} {count : UInt64} {executionIds : List ExecutionId}
    {run : SchedulerRun T} (h : EventLog laneCount count executionIds run)
    {r : ExecutionResult T} (hr : r ∈ run.results) :
    run.events.filter (fun e => e.executionId == r.id && e.isTerminal) =
      [terminalEvent r.report.laneId r] := by
  have hqueued : (run.events.take count.toNat).filter
      (fun e => e.executionId == r.id && e.isTerminal) = [] := by
    rw [h.queued]
    refine List.filter_eq_nil_iff.mpr fun e he => ?_
    obtain ⟨x, -, rfl⟩ := List.mem_map.mp he
    simp
  have hexecuted : (run.events.drop count.toNat).filter
      (fun e => e.executionId == r.id && e.isTerminal) = [terminalEvent r.report.laneId r] := by
    simp only [Bool.and_comm _ (ExecutionEvent.isTerminal _)]
    rw [← List.filter_filter, h.executed r hr]
    simp [ExecutionResult.entry]
  rw [← List.take_append_drop count.toNat run.events, List.filter_append, hqueued, hexecuted,
    List.nil_append]

theorem executionId_of_mem_entry {r : ExecutionResult T} {e : ExecutionEvent} (he : e ∈ r.entry) :
    e.executionId = r.id := by
  rcases List.mem_cons.mp he with rfl | he
  · rfl
  · obtain rfl := List.mem_singleton.mp he
    exact terminalEvent_executionId _ _

/-- Among the events of results with different ids, those of one id are the
events of its result. -/
theorem filter_flatMap_entry {results : List (ExecutionResult T)}
    (hids : (results.map (·.id)).Nodup) {r : ExecutionResult T} (hr : r ∈ results) :
    (results.flatMap ExecutionResult.entry).filter (·.executionId == r.id) = r.entry := by
  induction results with
  | nil => cases hr
  | cons x xs ih =>
    obtain ⟨hx, hxs⟩ := List.nodup_cons.mp hids
    rw [List.flatMap_cons, List.filter_append]
    rcases List.mem_cons.mp hr with rfl | hr
    · have hrest : (xs.flatMap ExecutionResult.entry).filter (·.executionId == r.id) = [] := by
        refine List.filter_eq_nil_iff.mpr fun e he => ?_
        obtain ⟨y, hy, hey⟩ := List.mem_flatMap.mp he
        rw [executionId_of_mem_entry hey, beq_iff_eq]
        exact fun heq => hx (List.mem_map.mpr ⟨y, hy, heq⟩)
      rw [hrest, List.append_nil, List.filter_eq_self]
      exact fun e he => by rw [executionId_of_mem_entry he, beq_self_eq_true]
    · have hother : x.entry.filter (·.executionId == r.id) = [] := by
        refine List.filter_eq_nil_iff.mpr fun e he => ?_
        rw [executionId_of_mem_entry he, beq_iff_eq]
        exact fun heq => hx (List.mem_map.mpr ⟨r, hr, heq.symm⟩)
      rw [hother, List.nil_append]
      exact ih hxs hr

/-- Counting the events of a kind result by result. -/
theorem total_countP {results : List (ExecutionResult T)} (hids : (results.map (·.id)).Nodup)
    (q : ExecutionEvent → Bool) (log : List ExecutionEvent)
    (hknown : ∀ e ∈ log, ∃ r ∈ results, e.executionId = r.id) :
    total (fun r => log.countP fun e => q e && e.executionId == r.id) results = log.countP q := by
  induction log with
  | nil => simp [total]
  | cons e log ih =>
    have hrest := ih fun f hf => hknown f (List.mem_cons_of_mem _ hf)
    have hone : tally (fun r : ExecutionResult T => e.executionId == r.id) results = 1 := by
      obtain ⟨r, hr, hid⟩ := hknown e List.mem_cons_self
      rw [tally_eq_countP]
      have hcount : (results.map (·.id)).count e.executionId = 1 :=
        List.count_eq_one_of_mem hids (hid ▸ List.mem_map_of_mem hr)
      rw [List.count, List.countP_map] at hcount
      rw [← hcount]
      congr 1
      funext r
      exact Bool.beq_comm
    have hhead : total (fun r : ExecutionResult T => (q e && e.executionId == r.id).toNat) results =
        (q e).toNat := by
      cases q e with
      | false => simp [total]
      | true => exact hone
    have hsplit : total (fun r => (e :: log).countP fun e => q e && e.executionId == r.id) results =
        total (fun r : ExecutionResult T => log.countP (fun e => q e && e.executionId == r.id) +
          (q e && e.executionId == r.id).toNat) results := by
      apply total_congr
      intro r _
      rw [List.countP_cons]
      cases (q e && e.executionId == r.id) <;> rfl
    rw [hsplit, total_add, hrest, hhead, List.countP_cons]
    cases q e <;> rfl

/-- In a prefix of its three events an id is open, has ended, or has not begun. -/
theorem openIn_add_terminal {log : List ExecutionEvent} {r : ExecutionResult T}
    (h : log.filter (·.executionId == r.id) <+: .queued r.id :: r.entry) :
    (openIn log r.id).toNat + log.countP (fun e => e.isTerminal && e.executionId == r.id) =
      log.countP fun e => e.isStarted && e.executionId == r.id := by
  have hany (q : ExecutionEvent → Bool) :
      log.any (fun e => q e && e.executionId == r.id) =
        (log.filter (·.executionId == r.id)).any q := by
    rw [List.any_filter]
    congr 1
    funext e
    exact Bool.and_comm _ _
  rw [openIn, hany, hany, ← List.countP_filter, ← List.countP_filter]
  generalize log.filter (·.executionId == r.id) = mine at h
  rcases mine with _ | ⟨a, _ | ⟨b, _ | ⟨c, rest⟩⟩⟩
  · rfl
  · obtain ⟨rfl, -⟩ := List.cons_prefix_cons.mp h
    rfl
  · obtain ⟨rfl, hentry⟩ := List.cons_prefix_cons.mp h
    obtain ⟨rfl, -⟩ := List.cons_prefix_cons.mp hentry
    rfl
  · obtain ⟨rfl, hentry⟩ := List.cons_prefix_cons.mp h
    obtain ⟨rfl, hlast⟩ := List.cons_prefix_cons.mp hentry
    obtain ⟨rfl, hrest⟩ := List.cons_prefix_cons.mp hlast
    obtain rfl := List.prefix_nil.mp hrest
    simp [List.countP_cons]

namespace BatchMemory.Logged

variable {laneCount : ℕ} {count : UInt64} {m : BatchMemory T} {results : List (ExecutionResult T)}

/-- The log of a lane once every worker has left its loop. -/
theorem onLane_eq (h : m.Logged (List.replicate laneCount .exited)) (hperm : results.Perm m.results)
    (hsorted : (results.map (·.id)).Pairwise (· < ·))
    (hqueue : m.executionIds.Pairwise (· < ·)) (l : LaneId) :
    onLane l m.state.events = (deliveredOn l results).flatMap ExecutionResult.entry := by
  by_cases hl : l < laneCount
  · have hw : (List.replicate laneCount (.exited : LaneWorker T))[l]? = some .exited := by
      rw [List.getElem?_replicate, if_pos hl]
    have horder := h.inOrder l _ hw
    unfold TakesInOrder at horder
    have hdelivered : ((deliveredOn l m.results).map (·.id)).Pairwise (· < ·) := by
      refine List.Pairwise.sublist ?_ hqueue
      exact ((List.sublist_append_left _ _).trans horder).trans (List.take_sublist _ _)
    -- both lists are sorted by id
    have heq : deliveredOn l results = deliveredOn l m.results := by
      have hleft : (deliveredOn l results).Pairwise fun a b => a.id < b.id :=
        (List.pairwise_map.mp hsorted).sublist List.filter_sublist
      have hright : (deliveredOn l m.results).Pairwise fun a b => a.id < b.id :=
        List.pairwise_map.mp hdelivered
      apply List.Perm.eq_of_pairwise ?_ hleft hright (hperm.filter _)
      intro a b _ _ hab hba
      exact absurd (UInt64.lt_trans hab hba) (UInt64.lt_irrefl _)
    rw [heq, h.told l _ hw [] rfl, List.append_nil]
  · have hevents : onLane l m.state.events = [] := by
      refine List.filter_eq_nil_iff.mpr fun e he hlane => hl ?_
      simpa using h.events_within e he l (beq_iff_eq.mp hlane)
    have hresults : deliveredOn l results = [] := by
      refine List.filter_eq_nil_iff.mpr fun r hr hlane => hl ?_
      have := h.results_within r (hperm.mem_iff.mp hr)
      rw [beq_iff_eq.mp hlane] at this
      simpa using this
    rw [hevents, hresults]
    rfl

end BatchMemory.Logged

section Assembly

variable {laneCount : ℕ} {m : BatchMemory T} {results : List (ExecutionResult T)}

theorem BatchMemory.Logged.known (h : m.Logged (List.replicate laneCount .exited))
    (hsorted : results.map (·.id) = m.executionIds)
    (hlanes : ∀ l, onLane l m.state.events = (deliveredOn l results).flatMap ExecutionResult.entry)
    {e : ExecutionEvent} (he : e ∈ m.state.events) : ∃ r ∈ results, e.executionId = r.id := by
  cases hlane : e.lane? with
  | none =>
    rw [h.queued] at he
    rcases List.mem_append.mp he with he | he
    · obtain ⟨id, hid, rfl⟩ := List.mem_map.mp he
      rw [← hsorted] at hid
      obtain ⟨r, hr, rfl⟩ := List.mem_map.mp hid
      exact ⟨r, hr, rfl⟩
    · have := (List.mem_filter.mp he).2
      rw [hlane] at this
      cases this
  | some l =>
    have hmem : e ∈ onLane l m.state.events := List.mem_filter.mpr ⟨he, by simp [hlane]⟩
    rw [hlanes] at hmem
    obtain ⟨r, hr, her⟩ := List.mem_flatMap.mp hmem
    exact ⟨r, (List.mem_filter.mp hr).1, executionId_of_mem_entry her⟩

/-- The events of one id past the announcements: all of them lie on the lane of
its result. -/
theorem filter_executed {events : List ExecutionEvent} (hnodup : (results.map (·.id)).Nodup)
    (hlanes : ∀ l, onLane l events = (deliveredOn l results).flatMap ExecutionResult.entry)
    {r : ExecutionResult T} (hr : r ∈ results) :
    (events.filter (·.lane?.isSome)).filter (·.executionId == r.id) = r.entry := by
  have hsame : (events.filter (·.lane?.isSome)).filter (·.executionId == r.id) =
      (onLane r.report.laneId events).filter (·.executionId == r.id) := by
    rw [onLane, List.filter_filter, List.filter_filter]
    apply List.filter_congr
    intro e he
    cases hid : e.executionId == r.id with
    | false => rfl
    | true =>
      cases hlane : e.lane? with
      | none => rfl
      | some l =>
        have hmem : e ∈ onLane l events := List.mem_filter.mpr ⟨he, by simp [hlane]⟩
        rw [hlanes] at hmem
        obtain ⟨x, hx, hex⟩ := List.mem_flatMap.mp hmem
        obtain ⟨hx, hxl⟩ := List.mem_filter.mp hx
        have hxr : x = r := List.inj_on_of_nodup_map hnodup hx hr
          ((executionId_of_mem_entry hex).symm.trans (beq_iff_eq.mp hid))
        subst hxr
        simp [beq_iff_eq.mp hxl]
  have hmem : r ∈ deliveredOn r.report.laneId results := List.mem_filter.mpr ⟨hr, by simp⟩
  rw [hsame, hlanes]
  refine filter_flatMap_entry ?_ hmem
  exact hnodup.sublist (List.filter_sublist.map _)

/-- Announcements come first, one for each id. -/
theorem BatchMemory.Logged.events_eq {workers : List (LaneWorker T)} (h : m.Logged workers)
    (hsorted : results.map (·.id) = m.executionIds) :
    m.state.events.take m.executionIds.length = results.map (fun r => .queued r.id) ∧
      m.state.events.drop m.executionIds.length = m.state.events.filter (·.lane?.isSome) := by
  have hlength : (m.executionIds.map ExecutionEvent.queued).length = m.executionIds.length :=
    List.length_map _
  have hmap : results.map (fun r => ExecutionEvent.queued r.id) =
      m.executionIds.map ExecutionEvent.queued := by
    rw [← hsorted, List.map_map]
    rfl
  rw [hmap]
  constructor
  · rw [h.queued]
    exact List.take_left' hlength
  · conv_lhs => rw [h.queued]
    exact List.drop_left' hlength

/-- The events of one id: the announcement, the start and the end. -/
theorem BatchMemory.Logged.filter_id (h : m.Logged (List.replicate laneCount .exited))
    (hsorted : results.map (·.id) = m.executionIds) (hnodup : (results.map (·.id)).Nodup)
    (hlanes : ∀ l, onLane l m.state.events = (deliveredOn l results).flatMap ExecutionResult.entry)
    {r : ExecutionResult T} (hr : r ∈ results) :
    m.state.events.filter (·.executionId == r.id) = .queued r.id :: r.entry := by
  obtain ⟨htake, hdrop⟩ := h.events_eq hsorted
  have hqueued : (results.map fun r => ExecutionEvent.queued r.id).filter (·.executionId == r.id) =
      [.queued r.id] := by
    have hmap : (results.map fun r => ExecutionEvent.queued r.id) =
        (results.map (·.id)).map .queued := (List.map_map).symm
    have hone : (results.map (·.id)).filter (· == r.id) = [r.id] := by
      rw [List.filter_beq, List.count_eq_one_of_mem hnodup (List.mem_map_of_mem hr)]
      rfl
    rw [hmap, List.filter_map]
    exact congrArg (List.map ExecutionEvent.queued) hone
  rw [← List.take_append_drop m.executionIds.length m.state.events, List.filter_append, hdrop,
    filter_executed hnodup hlanes hr, htake, hqueued]
  rfl

/-- At most the peak of the ids is open in any prefix of the log. -/
theorem BatchMemory.Logged.countP_openIn_le (h : m.Logged (List.replicate laneCount .exited))
    (hsorted : results.map (·.id) = m.executionIds) (hnodup : (results.map (·.id)).Nodup)
    (hlanes : ∀ l, onLane l m.state.events = (deliveredOn l results).flatMap ExecutionResult.entry)
    {log : List ExecutionEvent} (hlog : log <+: m.state.events) :
    (results.map (·.id)).countP (openIn log) ≤ m.state.peakActive.toNat := by
  have hknown : ∀ e ∈ log, ∃ r ∈ results, e.executionId = r.id :=
    fun e he => h.known hsorted hlanes (hlog.subset he)
  have hstarted := total_countP hnodup (·.isStarted) log hknown
  have hterminal := total_countP hnodup (·.isTerminal) log hknown
  have hopen : tally (fun r : ExecutionResult T => openIn log r.id) results +
      log.countP (·.isTerminal) = log.countP (·.isStarted) := by
    rw [← hstarted, ← hterminal, tally, ← total_add]
    apply total_congr
    intro r hr
    apply openIn_add_terminal
    rw [← h.filter_id hsorted hnodup hlanes hr]
    exact hlog.filter _
  have hprefix := h.prefixes log hlog
  rw [List.countP_map]
  rw [tally_eq_countP] at hopen
  change results.countP (fun r => openIn log r.id) ≤ _
  omega

end Assembly

namespace State

/-- What the log of a batch says once the batch has returned. -/
theorem eventLog_of_returned {laneCount : ℕ} {b : RunManyClassified T} {m : BatchMemory T}
    {run : SchedulerRun T} (hlanes : 0 < laneCount) (hcount : b.count ≠ 0)
    (hstage : b.stage = .returned m run)
    (hqueue : b.stage.executionIds.Pairwise (· < ·))
    (hkept : b.stage.Kept laneCount b.count b.classify)
    (hlogged : b.stage.Logged laneCount) : EventLog laneCount b.count m.executionIds run := by
  rw [hstage] at hqueue hkept hlogged
  obtain ⟨hlength, hbooks, rfl⟩ := hkept
  change m.executionIds.Pairwise (· < ·) at hqueue
  change m.Logged (List.replicate laneCount .exited) at hlogged
  have hsorted := hbooks.sortResults_ids hlanes hlength hqueue
  have hincreasing : ((BatchStage.sortResults m.results).map (·.id)).Pairwise (· < ·) :=
    hsorted ▸ hqueue
  have hperm := BatchStage.perm_sortResults m.results
  have hnodup : ((BatchStage.sortResults m.results).map (·.id)).Nodup :=
    hincreasing.imp fun hlt heq => absurd (heq ▸ hlt) (UInt64.lt_irrefl _)
  have hlog := hlogged.onLane_eq hperm hincreasing hqueue
  obtain ⟨htake, hdrop⟩ := hlogged.events_eq hsorted
  rw [hlength] at htake hdrop
  constructor
  · exact hlength
  · exact hsorted
  · exact hincreasing
  · exact htake
  · intro r hr
    rw [show (BatchStage.collect laneCount m).events = m.state.events from rfl, hdrop]
    exact filter_executed hnodup hlog hr
  · exact fun e he => hlogged.known hsorted hlog he
  · exact hlog
  · exact fun log hlog' => hlogged.countP_openIn_le hsorted hnodup hlog hlog'
  · constructor
    · have hpos : 0 < (BatchStage.sortResults m.results).length := by
        rw [← List.length_map (f := (·.id)), hsorted, hlength]
        exact Nat.pos_of_ne_zero fun h₀ => hcount (UInt64.toNat_inj.mp h₀)
      obtain ⟨r, hr⟩ := List.exists_mem_of_length_pos hpos
      have hmem : ∀ e ∈ r.entry, e ∈ m.state.events := by
        rw [← filter_executed hnodup hlog hr]
        exact fun e he => List.mem_of_mem_filter (List.mem_of_mem_filter he)
      apply hlogged.started
      exact List.any_eq_true.mpr ⟨_, hmem _ List.mem_cons_self, rfl⟩
    · obtain ⟨top, htop, hpeak⟩ := hlogged.peak
      rw [List.length_replicate, hlength] at htop
      exact hpeak.peak_le.trans htop

/-- A batch of two jobs on two lanes; the job of lane 1 starts second, fails and
ends first. -/
def twoLaneRun : List (Action Unit) :=
  [[.runManyClassified 2 fun _ => none], List.replicate 10 (.batch 0),
    List.replicate 6 (.worker 0 0 .go), List.replicate 6 (.worker 0 1 .go),
    [.worker 0 0 (.start 0), .worker 0 1 (.start 0), .worker 0 1 (.finish (.error "failed"))],
    List.replicate 7 (.worker 0 1 .go), [.worker 0 0 (.finish (.ok ()))],
    List.replicate 7 (.worker 0 0 .go), [.batch 0]].flatten

end State

end PitBox.Scheduler
