import PitBox.Scheduler.Drain

/-!
# The scheduler from outside

A call of the single-task API as its caller sees it is queued, or it has a lane,
or it has given its lane back with a report. Of all the steps of a scheduler
only two show: that by which a queued call gets the first free lane, and that by
which a call clears its slot.
-/

namespace PitBox.Scheduler

variable {T : Type}

/-- How a call stands. One whose closures unwound is lost, and its lane with it. -/
inductive Standing (T : Type) where
  | queued
  | onLane (lane : LaneId)
  | released (slot : Assignment) (result : ExecutionResult T)
  | lost

def Action.ofCall : Action T → Bool
  | .tick _ | .call _ _ | .notifyOne _ _ => true
  | _ => false

namespace RunOneObserved

def standing : RunOneObserved T → Standing T
  | .waiting _ _ => .queued
  | .owning slot _ => .onLane slot.lane
  | .releasing slot result _ | .returned slot result => .released slot result
  | .unwound _ _ => .lost

variable {now : Instant} {p p' : PitScheduler} {e : Choice T} {c c' : RunOneObserved T}

/-- What a step of a call shows. -/
inductive Shows (now : Instant) (p : PitScheduler) (c : RunOneObserved T) (p' : PitScheduler)
    (c' : RunOneObserved T) : Prop
  | nothing (hstanding : c'.standing = c.standing) (hlanes : p'.sharedLanes = p.sharedLanes)
  | assigned {k : Ticket} {lane : LaneId} (hc : c = .waiting k .scanning)
      (hfree : p.freeLane = some lane) (hc' : c' = .owning ⟨k, lane, now⟩ .assigned)
      (hlanes : p'.sharedLanes = p.sharedLanes.set lane (some k.executionId))
  | cleared {k : Assignment} {r : ExecutionResult T} (hc : c = .owning k (.relocked r))
      (hc' : c' = .releasing k r .cleared) (hlanes : p'.sharedLanes = p.sharedLanes.set k.lane none)

theorem step_shows (h : c.step now p e = some (p', c')) (he : e.unwinds = false) :
    Shows now p c p' c' := by
  revert h he
  fun_cases step now p c e <;> intro h he <;> cases h
  all_goals first
    | exact .nothing rfl rfl
    | exact .assigned rfl ‹_› rfl rfl
    | exact .cleared rfl rfl rfl
    | cases he

theorem step_runs (h : c.step now p e = some (p', c')) (hruns : c.runs = true) :
    e.unwinds = true ∨ ∃ outcome, e = .finish outcome := by
  obtain ⟨slot, timer, rfl⟩ := timer_of_runs hruns
  cases e with
  | unwind => exact .inl rfl
  | finish outcome => exact .inr ⟨outcome, rfl⟩
  | _ => cases h

theorem runs_of_finish {outcome : Except String T}
    (h : c.step now p (.finish outcome) = some (p', c')) : c.runs = true := by
  cases c with
  | owning k stage =>
    cases stage with
    | running timer => rfl
    | _ => cases h
  | waiting k stage => cases stage <;> cases h
  | releasing k r stage => cases stage <;> cases h
  | _ => cases h

end RunOneObserved

namespace State

variable {s t : State T} {a : Action T}

/-- What a step shows of the calls and the slots. -/
inductive Shows (s t : State T) : Prop
  | nothing (hstanding : t.calls.map RunOneObserved.standing = s.calls.map RunOneObserved.standing)
      (hlanes : t.scheduler.sharedLanes = s.scheduler.sharedLanes)
  | assigned {j : ℕ} {k : Ticket} {lane : LaneId} (hj : s.calls[j]? = some (.waiting k .scanning))
      (hfree : s.scheduler.freeLane = some lane)
      (hcalls : t.calls = s.calls.set j (.owning ⟨k, lane, s.now⟩ .assigned))
      (hlanes : t.scheduler.sharedLanes = s.scheduler.sharedLanes.set lane (some k.executionId))
  | cleared {j : ℕ} {k : Assignment} {r : ExecutionResult T}
      (hj : s.calls[j]? = some (.owning k (.relocked r)))
      (hcalls : t.calls = s.calls.set j (.releasing k r .cleared))
      (hlanes : t.scheduler.sharedLanes = s.scheduler.sharedLanes.set k.lane none)

theorem map_standing_set {cs : List (RunOneObserved T)} {i : ℕ} {c : RunOneObserved T}
    (hi : cs[i]? = some c) (c' : RunOneObserved T) (h : c'.standing = c.standing) :
    (cs.set i c').map RunOneObserved.standing = cs.map RunOneObserved.standing := by
  have hmap : (cs.map RunOneObserved.standing)[i]? = some c.standing := by
    rw [List.getElem?_map, hi, Option.map_some]
  obtain ⟨hlt, heq⟩ := List.getElem?_eq_some_iff.mp hmap
  rw [List.map_set, h, ← heq, List.set_getElem_self]

theorem step_shows (h : s.step a = some t) (ha : a.ofCall = true)
    (hunwinds : a.unwindsCall = false) : Shows s t := by
  cases step_cases h with
  | tick d => exact .nothing rfl rfl
  | @call i e c p c' hi hc =>
    cases RunOneObserved.step_shows hc hunwinds with
    | nothing hstanding hlanes => exact .nothing (map_standing_set hi _ hstanding) hlanes
    | assigned hc hfree hc' hlanes =>
      subst hc hc'
      exact .assigned hi hfree rfl hlanes
    | cleared hc hc' hlanes =>
      subst hc hc'
      exact .cleared hi rfl hlanes
  | notifyNobody hi hnone => exact .nothing (map_standing_set hi _ rfl) rfl
  | @notify i j k r ticket hij hi hj hj' =>
    refine .nothing ?_ rfl
    exact (map_standing_set hj' (.waiting ticket (.woken true)) rfl).trans
      (map_standing_set hi (.releasing k r .notified) rfl)
  | _ => cases ha

theorem step_length (h : s.step a = some t) (ha : a.ofCall = true) :
    t.calls.length = s.calls.length := by
  cases step_cases h with
  | tick d => rfl
  | call | notifyNobody | notify => simp
  | _ => cases ha

theorem exists_of_set {E : Prop} {cs : List (RunOneObserved T)} {i j : ℕ}
    {x c : RunOneObserved T} (hx : cs[i]? = some x) (hj : cs[j]? = some c) (x' : RunOneObserved T)
    (hid : x'.executionId = x.executionId) (hruns : i = j → x.runs = true → E) :
    ∃ c', (cs.set i x')[j]? = some c' ∧ c'.executionId = c.executionId ∧
      (c.runs = true → E ∨ c' = c) := by
  rcases eq_or_ne i j with rfl | hne
  · obtain rfl := Option.some.inj (hx.symm.trans hj)
    exact ⟨x', List.getElem?_set_self (List.getElem?_eq_some_iff.mp hx).1, hid,
      fun hrunning => .inl (hruns rfl hrunning)⟩
  · exact ⟨c, by rw [List.getElem?_set_ne hne, hj], rfl, fun _ => .inr rfl⟩

/-- A call keeps its place and its id, and its task runs until it ends. -/
theorem step_keeps (h : s.step a = some t) {j : ℕ} {c : RunOneObserved T}
    (hj : s.calls[j]? = some c) : ∃ c', t.calls[j]? = some c' ∧ c'.executionId = c.executionId ∧
      (c.runs = true →
        (a.unwindsCall = true ∨ ∃ outcome, a = .call j (.finish outcome)) ∨ c' = c) := by
  have hlt := (List.getElem?_eq_some_iff.mp hj).1
  cases step_cases h with
  | runOneObserved =>
    exact ⟨c, by rw [List.getElem?_append_left hlt, hj], rfl, fun _ => .inr rfl⟩
  | @call i e x p x' hi hc =>
    refine exists_of_set hi hj x' (RunOneObserved.step_frame hc).2.2.2 ?_
    rintro rfl hruns
    rcases RunOneObserved.step_runs hc hruns with hu | ⟨outcome, rfl⟩
    · exact .inl hu
    · exact .inr ⟨outcome, rfl⟩
  | notifyNobody hi hnone => exact exists_of_set hi hj _ rfl fun _ hruns => by cases hruns
  | @notify i k slot r ticket hik hi hk hk' =>
    obtain ⟨c₁, hc₁, hid₁, hruns₁⟩ := exists_of_set (E := False) hi hj
      (.releasing slot r .notified) rfl fun _ hruns => by cases hruns
    obtain ⟨c₂, hc₂, hid₂, hruns₂⟩ := exists_of_set (E := False) hk' hc₁
      (.waiting ticket (.woken true)) rfl fun _ hruns => by cases hruns
    refine ⟨c₂, hc₂, hid₂.trans hid₁, fun hruns => ?_⟩
    obtain rfl := (hruns₁ hruns).resolve_left id
    exact .inr ((hruns₂ hruns).resolve_left id)
  | _ => exact ⟨c, hj, rfl, fun _ => .inr rfl⟩

end State

end PitBox.Scheduler
