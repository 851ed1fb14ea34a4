import PitBox.Garage.Responses

/-!
# What a Garage hands over is prepared

A call is handed to the dispatcher under the key of its digest, after a warmup
whose result it may have read off a cell that another call settled, a removal
or a dropped future in between. In every run the dispatcher has the key by
then, so its lookup never misses: a cell serves calls of one digest only, and
is settled with a success only when the artifact has been registered.
-/

namespace PitBox.Garage

open PitBox.Runtime (PreparationReport)
open Singleflight Transition

namespace Execute

variable {g g' : GarageAgent} {r r' : Execute} {e : Choice}

/-- A successful warmup means that the digest is among the prepared keys. -/
def WarmedUp (prepared : List Digest) (digest : Digest) (result : Except String PreparationReport) :
    Prop :=
  ∀ report, result = .ok report → digest ∈ prepared

/-- What a call has learned of its digest. -/
structure Informed (prepared : List Digest) (r : Execute) : Prop where
  registration : ∀ report, r.registration = .finished (.ok (.ok report)) → r.digest ∈ prepared
  warm : r.stage = .warm → r.digest ∈ prepared
  dispatch : r.dispatch.isSpawned = true → r.digest ∈ prepared

theorem subset_keysAfter (prepared : List Digest) (digest : Digest)
    (outcome : Except String (Except String PreparationReport)) :
    prepared ⊆ keysAfter prepared digest outcome := by
  unfold keysAfter
  split
  · exact List.subset_cons_self _ _
  · exact List.Subset.refl _

theorem step_prepared (h : r.step g e = some (g', r')) : g.prepared ⊆ g'.prepared := by
  revert h
  fun_cases step g r e <;> intro h <;> cases h
  case case18 => exact subset_keysAfter _ _ _
  all_goals exact List.Subset.refl _

theorem mem_of_afterWarmup {prepared : List Digest} {digest : Digest}
    {result : Except String PreparationReport} (hwarm : WarmedUp prepared digest result)
    (h : afterWarmup result = .warm) : digest ∈ prepared := by
  cases result with
  | ok report => exact hwarm report rfl
  | error error => cases h

theorem Informed.warmedUp {prepared : List Digest} (h : r.Informed prepared)
    {outcome : Except String (Except String PreparationReport)}
    (hfinished : r.registration = .finished outcome) :
    WarmedUp prepared r.digest (outcome.bind id) := by
  rintro report hreport
  match outcome, hreport with
  | .ok (.ok _), rfl => exact h.registration report hfinished

/-- The results that a call may read are right for its digest. -/
def ReadsRight (g : GarageAgent) (r : Execute) : Prop :=
  ∀ c result, r.use.cell? = some c → g.warmups.cells[c]? = some (.ready result) →
    WarmedUp g.prepared r.digest result

theorem step_informed (hread : r.ReadsRight g) (hr : r.Informed g.prepared)
    (h : r.step g e = some (g', r')) : r'.Informed g'.prepared := by
  revert h hr hread
  fun_cases step g r e <;> intro hread hr h <;> cases h
  case case5 result hready =>
    exact ⟨hr.registration, mem_of_afterWarmup (hread _ _ rfl hready), hr.dispatch⟩
  case case8 hmem => exact ⟨hr.registration, fun _ => hmem, hr.dispatch⟩
  case case12 => exact ⟨fun _ h => (by cases h), fun h => (by cases h), hr.dispatch⟩
  case case14 => exact ⟨hr.registration, mem_of_afterWarmup (hr.warmedUp rfl), hr.dispatch⟩
  case case16 => exact ⟨hr.registration, fun h => (by cases h), fun _ => hr.warm rfl⟩
  case case18 q stage b outcome =>
    have hmono := subset_keysAfter g.prepared q.artifactDigest outcome
    refine ⟨fun report h => ?_, fun h => hmono (hr.warm h), fun h => hmono (hr.dispatch h)⟩
    obtain rfl : outcome = .ok (.ok report) := by simpa using h
    exact List.mem_cons_self
  case case19 => exact ⟨hr.registration, hr.warm, fun _ => hr.dispatch rfl⟩
  all_goals exact ⟨hr.registration, fun h => (by cases h), hr.dispatch⟩

/-- A call settles a cell with a success only if its digest is prepared. -/
theorem step_settles (hread : r.ReadsRight g) (hr : r.Informed g.prepared)
    (h : r.step g e = some (g', r')) {c : ℕ} {result : Except String PreparationReport}
    (hc : r.use = .initializing c) (hready : g'.warmups.cells[c]? = some (.ready result)) :
    WarmedUp g'.prepared r.digest result := by
  have hset {cells : List (OnceCell (Except String PreparationReport))} {x}
      (h : (cells.set c x)[c]? = some (.ready result)) : x = .ready result := by
    have hlt : c < cells.length := by simpa using (List.getElem?_eq_some_iff.mp h).1
    rw [List.getElem?_set_self hlt] at h
    exact Option.some.inj h
  have hcell : r.use.cell? = some c := by rw [hc, Use.cell?]
  revert h hr hread hc hcell hready
  fun_cases step g r e <;> intro hread hr h hc hready hcell <;> cases h
  case case4 | case6 => cases hc
  case case8 hmem =>
    cases hc
    cases hset hready
    exact fun _ _ => hmem
  case case13 =>
    cases hc
    cases hset hready
    exact fun _ h => by cases h
  case case14 =>
    cases hc
    cases hset hready
    exact hr.warmedUp rfl
  case case18 q stage b outcome =>
    exact fun report h => subset_keysAfter _ _ _ (hread c result hcell hready report h)
  case case21 | case22 | case23 =>
    cases hc
    cases hset hready
  all_goals exact hread c result hcell hready

end Execute

namespace State

variable {s t : State} {a : Action}

/-- Cells serve one digest each, and calls know what is prepared. -/
structure Prepared (s : State) : Prop where
  keyed : ∃ keys, Keyed (Execute.WarmedUp s.agent.prepared) Execute.digest Execute.use
    s.agent.warmups keys s.calls
  informed : ∀ r ∈ s.calls, r.Informed s.agent.prepared

theorem prepared_initial (id : GarageId) (protocolVersion maxPending maxPreparations : ℕ) :
    Prepared (initial (.new id protocolVersion maxPending maxPreparations)) where
  keyed := ⟨[], .nil⟩
  informed := by simp [initial]

theorem informed_new (prepared : List Digest) (request : RemoteExecutionRequest) :
    (Execute.new request).Informed prepared where
  registration := fun _ h => by cases h
  warm := fun h => by cases h
  dispatch := fun h => by cases h

theorem Prepared.readsRight (h : Prepared s) {r : Execute} (hr : r ∈ s.calls) :
    r.ReadsRight s.agent := by
  obtain ⟨keys, hkeyed⟩ := h.keyed
  exact fun c result hc hready => hkeyed.result hr hc hready

theorem Prepared.step (h : Prepared s) (hstep : s.step a = some t) : Prepared t := by
  obtain ⟨keys, hkeyed⟩ := h.keyed
  cases step_cases hstep with
  | arrive request =>
    refine ⟨⟨keys, hkeyed.push rfl⟩, fun r hr => ?_⟩
    rcases List.mem_append.mp hr with hr | hr
    · exact h.informed r hr
    · obtain rfl := List.mem_singleton.mp hr
      exact informed_new _ request
  | @call i e r g' r' hi hr =>
    have hmem := List.mem_of_getElem? hi
    have hread := h.readsRight hmem
    have hmono := Execute.step_prepared hr
    have hdigest : r'.digest = r.digest :=
      congrArg RemoteExecutionRequest.artifactDigest (Execute.step_request hr)
    have hgrown : Keyed (Execute.WarmedUp g'.prepared) Execute.digest Execute.use
        s.agent.warmups keys s.calls :=
      hkeyed.mono fun _ _ hwarm report hreport => hmono (hwarm report hreport)
    refine ⟨hgrown.move hi hdigest (Execute.step_warmups hr) fun c result hc hready =>
      Execute.step_settles hread (h.informed r hmem) hr hc hready, fun x hx => ?_⟩
    rcases List.mem_or_eq_of_mem_set hx with hx | rfl
    · have hinformed := h.informed x hx
      exact ⟨fun report hreport => hmono (hinformed.registration report hreport),
        fun hwarm => hmono (hinformed.warm hwarm),
        fun hspawned => hmono (hinformed.dispatch hspawned)⟩
    · exact Execute.step_informed hread (h.informed r hmem) hr

theorem step_prepared (hstep : s.step a = some t) : s.agent.prepared ⊆ t.agent.prepared := by
  cases step_cases hstep with
  | arrive request => exact List.Subset.refl _
  | call hi hr => exact Execute.step_prepared hr

/-- In every run, whatever fails, is removed or is dropped, the dispatcher knows
the digest of every call that has been handed over to it, then and for good. -/
theorem exec_prepared {id : GarageId} {protocolVersion maxPending maxPreparations : ℕ}
    {as bs : List Action}
    (h : exec (initial (.new id protocolVersion maxPending maxPreparations)) as = some s)
    (hlater : exec s bs = some t) :
    (∀ r ∈ s.calls, r.handedOver = true → r.digest ∈ s.agent.prepared) ∧
      s.agent.prepared ⊆ t.agent.prepared := by
  have hprepared : Prepared s :=
    exec_invariant_of_step (fun _ _ _ hs hstep => hs.step hstep)
      (prepared_initial id protocolVersion maxPending maxPreparations) h
  refine ⟨fun r hr => (hprepared.informed r hr).dispatch, ?_⟩
  exact exec_invariant_of_step (I := fun u => s.agent.prepared ⊆ u.agent.prepared)
    (fun _ _ _ hs hstep => List.Subset.trans hs (step_prepared hstep)) (List.Subset.refl _) hlater

section Demo

/-- Two calls share a cell; the first client leaves while its registration runs,
the second starts over and is served. -/
def clientLeavesWarmup : List Action :=
  [[.arrive (requestFor "sha256:a"), .arrive (requestFor "sha256:a")], upToRegistration 0,
    [.call 1 .go, .call 1 .go, .call 0 .drop], List.replicate 3 (.call 1 .go),
    [.call 1 (.opened (.ok ()))], upToDispatch 1].flatten

theorem exec_prepared_clientLeavesWarmup :
    ∃ s, exec (initial (.new "garage-1" 1 4 2)) clientLeavesWarmup = some s ∧
      s.calls.map Execute.handedOver = [false, true] ∧
      (∀ r ∈ s.calls, r.handedOver = true → r.digest ∈ s.agent.prepared) := by
  have hrun : (exec (initial (.new "garage-1" 1 4 2)) clientLeavesWarmup).map
      (fun s => s.calls.map Execute.handedOver) = some [false, true] := by decide +kernel
  obtain ⟨s, hs, hhanded⟩ := Option.map_eq_some_iff.mp hrun
  exact ⟨s, hs, hhanded, (exec_prepared hs (exec_nil s)).1⟩

end Demo

end State

end PitBox.Garage
