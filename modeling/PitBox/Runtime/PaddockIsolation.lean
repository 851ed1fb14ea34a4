import PitBox.Foundations.Trace
import PitBox.Runtime.Paddock

/-!
# Isolation of objects

Whatever a guest calls and whatever the backend answers, the backend is asked
only for what the grants of the invocation cover. A writer in the table carries
the grant its write was begun with, so finding it there is authority enough.
-/

namespace PitBox.Runtime

open Trace

/-- The writer was opened by a granted begin of a write, the operation at its position. -/
def OpenedBy (grants : List PaddockGrant) (calls : List BackendCall) (writer : WriterId) : Prop :=
  ∃ namespaceId key contentType,
    calls[writer]? = some (.beginObjectWrite namespaceId key contentType true) ∧
      ∃ grant ∈ grants, grant.allows namespaceId true = true

/-- An operation of the backend that the grants cover, after the operations before it. -/
def Covered (grants : List PaddockGrant) (before : List BackendCall) : BackendCall → Prop
  | .beginObjectWrite namespaceId _ _ _ => ∃ grant ∈ grants, grant.allows namespaceId true = true
  | .getObject namespaceId _ _ => ∃ grant ∈ grants, grant.allows namespaceId false = true
  | .readBlobRange digest _ _ => ∃ namespaceId key object,
      before.getLast? = some (.getObject namespaceId key (.ok object)) ∧ object.digest = digest ∧
        ∃ grant ∈ grants, grant.allows namespaceId false = true
  | .deleteObject namespaceId _ =>
    ∃ grant ∈ grants, grant.namespaceId = namespaceId ∧ grant.delete = true
  | .listObjects namespaceId _ =>
    ∃ grant ∈ grants, grant.namespaceId = namespaceId ∧ grant.list = true
  | .writeChunk writer _ | .commit writer | .abort writer => OpenedBy grants before writer

theorem OpenedBy.append {grants : List PaddockGrant} {calls : List BackendCall}
    {writer : WriterId} (h : OpenedBy grants calls writer) (later : List BackendCall) :
    OpenedBy grants (calls ++ later) writer := by
  obtain ⟨namespaceId, key, contentType, hopened, hgrant⟩ := h
  refine ⟨namespaceId, key, contentType, ?_, hgrant⟩
  rw [List.getElem?_append_left (List.getElem?_eq_some_iff.mp hopened).1, hopened]

namespace PaddockHost

variable {names : PaddockNames} {s : PaddockHost} {answers : PaddockAnswers}

theorem exists_grant_of_any {p : PaddockGrant → Bool} (h : s.grants.any p = true) :
    ∃ grant ∈ s.grants, p grant = true := List.any_eq_true.mp h

theorem deleteGranted_iff {namespaceId : NamespaceId} : s.deleteGranted namespaceId = true ↔
    ∃ grant ∈ s.grants, grant.namespaceId = namespaceId ∧ grant.delete = true := by
  simp [deleteGranted, List.any_eq_true]

theorem listGranted_iff {namespaceId : NamespaceId} : s.listGranted namespaceId = true ↔
    ∃ grant ∈ s.grants, grant.namespaceId = namespaceId ∧ grant.list = true := by
  simp [listGranted, List.any_eq_true]

/-- An operation on objects is refused with the host as it was, or its names
parse, a grant allows it, and it goes on with them. -/
theorem guarded_spec {κ : Type} {P : PaddockHost × PaddockResult → Prop} {namespaceName : String}
    {key : Except String κ} {granted : NamespaceId → Bool} {access : String}
    {operation : NamespaceId → κ → PaddockHost × PaddockResult}
    (hrefused : ∀ error, P (s, .error error))
    (hgranted : ∀ namespaceId k, names.namespaceId namespaceName = .ok namespaceId →
      key = .ok k → granted namespaceId = true → P (operation namespaceId k)) :
    P (s.guarded names namespaceName key granted access operation) := by
  unfold guarded
  split
  · exact hrefused _
  · exact hrefused _
  · rename_i namespaceId k hnamespace
    split_ifs with hdenied
    · exact hrefused _
    · exact hrefused _
    · exact hgranted _ _ hnamespace rfl (by simpa using hdenied)

/-! ### The invariant -/

/-- Everything asked for was covered, and the writers in the table were opened
by granted writes. -/
structure Isolated (s : PaddockHost) : Prop where
  covered : Justified (Covered s.grants) s.trace
  opened : ∀ handle writer, s.table handle = some (some writer) →
    OpenedBy s.grants s.trace writer

theorem isolated_new (state : HttpHostState) (configured : Bool) :
    (new state configured).Isolated where
  covered := justified_nil
  opened := by
    intro handle writer h
    cases h

theorem Isolated.ask (h : s.Isolated) {call : BackendCall} (hcall : Covered s.grants s.trace call) :
    (s.ask call).Isolated where
  covered := h.covered.concat hcall
  opened handle writer hentry := (h.opened handle writer hentry).append _

theorem Isolated.update (h : s.Isolated) {handle : ℕ} {entry : Option (Option WriterId)}
    (hentry : ∀ writer, entry = some (some writer) → OpenedBy s.grants s.trace writer) :
    ({ s with table := Function.update s.table handle entry } : PaddockHost).Isolated where
  covered := h.covered
  opened other writer hother := by
    rcases eq_or_ne other handle with rfl | hne
    · simp only [Function.update_self] at hother
      exact hentry writer hother
    · simp only [Function.update_of_ne hne] at hother
      exact h.opened other writer hother

theorem Isolated.finalize (h : s.Isolated) (handle : ℕ) : (s.finalize handle).Isolated :=
  h.update fun _ heq => by cases heq

theorem writerOf_ok {handle : ℕ} {writer : WriterId} (h : s.writerOf answers handle = .ok writer) :
    s.table handle = some (some writer) := by
  unfold writerOf at h
  split at h <;> cases h
  assumption

theorem Isolated.beginWrite (h : s.Isolated) (namespaceName key : String)
    (contentType : Option String) :
    (s.beginWrite names answers namespaceName key contentType).1.Isolated := by
  apply guarded_spec (P := fun r => r.1.Isolated) (fun _ => h)
  intro namespaceId k _ _ hgranted
  have hgrant := exists_grant_of_any hgranted
  cases answers.beginObjectWrite with
  | error error => exact h.ask hgrant
  | ok _ =>
    have hasked : (s.ask (.beginObjectWrite namespaceId k contentType true)).Isolated :=
      h.ask hgrant
    cases answers.push with
    | error error => exact hasked
    | ok handle =>
      apply hasked.update
      intro writer hwriter
      obtain rfl := Option.some.inj (Option.some.inj hwriter)
      exact ⟨namespaceId, k, contentType, List.getElem?_concat_length, hgrant⟩

theorem Isolated.get (h : s.Isolated) (namespaceName key : String) :
    (s.get names answers namespaceName key).1.Isolated := by
  apply guarded_spec (P := fun r => r.1.Isolated) (fun _ => h)
  intro namespaceId k _ _ hgranted
  exact h.ask (exists_grant_of_any hgranted)

theorem Isolated.readRange (h : s.Isolated) (namespaceName key : String) (offset length : ℕ) :
    (s.readRange names answers namespaceName key offset length).1.Isolated := by
  apply guarded_spec (P := fun r => r.1.Isolated) (fun _ => h)
  intro namespaceId k _ _ hgranted
  have hgrant := exists_grant_of_any hgranted
  have hasked : (s.ask (.getObject namespaceId k answers.getObject)).Isolated := h.ask hgrant
  cases hobject : answers.getObject with
  | error error =>
    rw [hobject] at hasked
    exact hasked
  | ok object =>
    rw [hobject] at hasked
    exact hasked.ask ⟨namespaceId, k, object, List.getLast?_concat, rfl, hgrant⟩

theorem Isolated.delete (h : s.Isolated) (namespaceName key : String) :
    (s.delete names answers namespaceName key).1.Isolated := by
  apply guarded_spec (P := fun r => r.1.Isolated) (fun _ => h)
  intro namespaceId k _ _ hgranted
  exact h.ask (deleteGranted_iff.mp hgranted)

theorem Isolated.listObjects (h : s.Isolated) (namespaceName : String) (pre : Option String) :
    (s.listObjects names answers namespaceName pre).1.Isolated := by
  apply guarded_spec (P := fun r => r.1.Isolated) (fun _ => h)
  intro namespaceId _ _ _ hgranted
  exact h.ask (listGranted_iff.mp hgranted)

theorem Isolated.write (h : s.Isolated) (handle : ℕ) (chunk : Bytes) :
    (s.write answers handle chunk).1.Isolated := by
  unfold PaddockHost.write
  cases hwriter : s.writerOf answers handle with
  | error error => exact h
  | ok writer => exact h.ask (h.opened handle writer (writerOf_ok hwriter))

theorem Isolated.commit (h : s.Isolated) (handle : ℕ) : (s.commit answers handle).1.Isolated := by
  unfold PaddockHost.commit
  cases hwriter : s.writerOf answers handle with
  | error error => exact h
  | ok writer => exact (h.finalize handle).ask (h.opened handle writer (writerOf_ok hwriter))

theorem Isolated.abort (h : s.Isolated) (handle : ℕ) : (s.abort answers handle).1.Isolated := by
  unfold PaddockHost.abort
  split
  · exact h
  · exact h
  · exact (h.finalize handle).ask (h.opened handle _ ‹_›)

theorem Isolated.drop (h : s.Isolated) (handle : ℕ) : (s.drop answers handle).1.Isolated := by
  unfold PaddockHost.drop
  split
  · exact h
  · exact h.update fun _ heq => by cases heq

theorem Isolated.call (h : s.Isolated) (call : PaddockCall) :
    (s.call names answers call).1.Isolated := by
  cases call with
  | beginWrite namespaceName key contentType => exact h.beginWrite _ _ _
  | get namespaceName key => exact h.get _ _
  | readRange namespaceName key offset length => exact h.readRange _ _ _ _
  | delete namespaceName key => exact h.delete _ _
  | listObjects namespaceName pre => exact h.listObjects _ _
  | write handle chunk => exact h.write _ _
  | commit handle => exact h.commit _
  | abort handle => exact h.abort _
  | drop handle => exact h.drop _

/-! ### Calls that are refused -/

/-- A call whose names do not parse or that no grant allows, or whose handle has
no writer. -/
def Refused (names : PaddockNames) (s : PaddockHost) : PaddockCall → Prop
  | .beginWrite namespaceName key _ => ∀ namespaceId k, names.namespaceId namespaceName =
      .ok namespaceId → names.objectKey key = .ok k → s.paddockGranted namespaceId true = false
  | .get namespaceName key | .readRange namespaceName key _ _ => ∀ namespaceId k,
      names.namespaceId namespaceName = .ok namespaceId → names.objectKey key = .ok k →
        s.paddockGranted namespaceId false = false
  | .delete namespaceName key => ∀ namespaceId k, names.namespaceId namespaceName =
      .ok namespaceId → names.objectKey key = .ok k → s.deleteGranted namespaceId = false
  | .listObjects namespaceName _ => ∀ namespaceId, names.namespaceId namespaceName =
      .ok namespaceId → s.listGranted namespaceId = false
  | .write handle _ | .commit handle | .abort handle | .drop handle =>
    ∀ writer, s.table handle ≠ some (some writer)

theorem guarded_of_refused {κ : Type} {namespaceName : String} {key : Except String κ}
    {granted : NamespaceId → Bool} {access : String}
    {operation : NamespaceId → κ → PaddockHost × PaddockResult}
    (h : ∀ namespaceId k, names.namespaceId namespaceName = .ok namespaceId → key = .ok k →
      granted namespaceId = false) :
    (s.guarded names namespaceName key granted access operation).1 = s := by
  apply guarded_spec (P := fun r => r.1 = s) (fun _ => rfl)
  intro namespaceId k hnamespace hkey hgranted
  rw [h namespaceId k hnamespace hkey] at hgranted
  cases hgranted

theorem writerOf_of_refused (answers : PaddockAnswers) {handle : ℕ}
    (h : ∀ writer, s.table handle ≠ some (some writer)) :
    ∃ error, s.writerOf answers handle = .error error := by
  cases hwriter : s.writerOf answers handle with
  | error error => exact ⟨error, rfl⟩
  | ok writer => exact absurd (writerOf_ok hwriter) (h writer)

theorem trace_of_refused {call : PaddockCall} (h : s.Refused names call) :
    (s.call names answers call).1.trace = s.trace := by
  cases call with
  | beginWrite | get | readRange | delete => exact congrArg trace (guarded_of_refused h)
  | listObjects namespaceName pre =>
    exact congrArg trace (guarded_of_refused fun namespaceId _ hname _ => h namespaceId hname)
  | write handle chunk =>
    obtain ⟨error, herror⟩ := writerOf_of_refused answers h
    simp only [PaddockHost.call, PaddockHost.write, herror]
  | commit handle =>
    obtain ⟨error, herror⟩ := writerOf_of_refused answers h
    simp only [PaddockHost.call, PaddockHost.commit, herror]
  | abort handle =>
    simp only [PaddockHost.call, PaddockHost.abort]
    split
    · rfl
    · rfl
    · exact absurd ‹_› (h _)
  | drop handle =>
    simp only [PaddockHost.call, PaddockHost.drop]
    split <;> rfl

theorem answer_ne_denied {α : Type} (value : α → PaddockValue) (reply : Except String α)
    (message : String) : answer value reply ≠ .error (.denied message) := by
  cases reply <;> simp [answer, paddockError]

theorem guarded_of_denied {κ : Type} {namespaceName : String} {key : Except String κ}
    {granted : NamespaceId → Bool} {access message : String}
    {operation : NamespaceId → κ → PaddockHost × PaddockResult}
    (hoperation : ∀ namespaceId k, (operation namespaceId k).2 ≠ .error (.denied message))
    (h : (s.guarded names namespaceName key granted access operation).2 =
      .error (.denied message)) :
    (s.guarded names namespaceName key granted access operation).1 = s := by
  revert h
  apply guarded_spec (P := fun r => r.2 = .error (.denied message) → r.1 = s) (fun _ _ => rfl)
  intro namespaceId k _ _ _ hdenied
  exact absurd hdenied (hoperation namespaceId k)

/-- A call that comes back as denied has asked for nothing. -/
theorem trace_of_denied {call : PaddockCall} {message : String}
    (h : (s.call names answers call).2 = .error (.denied message)) :
    (s.call names answers call).1.trace = s.trace := by
  cases call with
  | beginWrite namespaceName key contentType =>
    refine congrArg trace (guarded_of_denied (fun namespaceId k => ?_) h)
    cases answers.beginObjectWrite with
    | error error => simp [paddockError]
    | ok _ => cases answers.push <;> simp [paddockError]
  | get namespaceName key =>
    exact congrArg trace (guarded_of_denied (fun _ _ => answer_ne_denied _ _ _) h)
  | readRange namespaceName key offset length =>
    refine congrArg trace (guarded_of_denied (fun namespaceId k => ?_) h)
    cases answers.getObject with
    | error error => simp [paddockError]
    | ok object => exact answer_ne_denied _ _ _
  | delete namespaceName key =>
    exact congrArg trace (guarded_of_denied (fun _ _ => answer_ne_denied _ _ _) h)
  | listObjects namespaceName pre =>
    exact congrArg trace (guarded_of_denied (fun _ _ => answer_ne_denied _ _ _) h)
  | write handle chunk =>
    simp only [PaddockHost.call, PaddockHost.write] at h ⊢
    cases hwriter : s.writerOf answers handle with
    | error error => rfl
    | ok writer =>
      rw [hwriter] at h
      exact absurd h (answer_ne_denied _ _ _)
  | commit handle =>
    simp only [PaddockHost.call, PaddockHost.commit] at h ⊢
    cases hwriter : s.writerOf answers handle with
    | error error => rfl
    | ok writer =>
      rw [hwriter] at h
      exact absurd h (answer_ne_denied _ _ _)
  | abort handle =>
    simp only [PaddockHost.call, PaddockHost.abort] at h ⊢
    split at h
    · rfl
    · rfl
    · exact absurd h (answer_ne_denied _ _ _)
  | drop handle =>
    simp only [PaddockHost.call, PaddockHost.drop] at h ⊢
    split <;> rfl

/-- No call changes the grants. -/
theorem call_grants (call : PaddockCall) : (s.call names answers call).1.grants = s.grants := by
  cases call with
  | beginWrite namespaceName key contentType =>
    apply guarded_spec (P := fun r => r.1.grants = s.grants) (fun _ => rfl)
    intro namespaceId k _ _ _
    cases answers.beginObjectWrite with
    | error error => rfl
    | ok _ => cases answers.push <;> rfl
  | readRange namespaceName key offset length =>
    apply guarded_spec (P := fun r => r.1.grants = s.grants) (fun _ => rfl)
    intro namespaceId k _ _ _
    cases answers.getObject <;> rfl
  | get | delete | listObjects =>
    exact guarded_spec (P := fun r => r.1.grants = s.grants) (fun _ => rfl) fun _ _ _ _ _ => rfl
  | write handle chunk =>
    simp only [PaddockHost.call, PaddockHost.write]
    cases s.writerOf answers handle <;> rfl
  | commit handle =>
    simp only [PaddockHost.call, PaddockHost.commit]
    cases s.writerOf answers handle <;> rfl
  | abort handle =>
    simp only [PaddockHost.call, PaddockHost.abort]
    split <;> rfl
  | drop handle =>
    simp only [PaddockHost.call, PaddockHost.drop]
    split <;> rfl

theorem exec_invariants {state : HttpHostState} {configured : Bool}
    {as : List (PaddockCall × PaddockAnswers)} (h : exec names (new state configured) as = some s) :
    s.grants = state.paddockGrants ∧ s.Isolated := by
  apply Transition.exec_invariant_of_step
    (I := fun s => s.grants = state.paddockGrants ∧ s.Isolated) ?_
    ⟨rfl, isolated_new state configured⟩ h
  rintro s a t ⟨hgrants, hs⟩ hstep
  unfold step at hstep
  split_ifs at hstep
  obtain rfl := Option.some.inj hstep
  exact ⟨(call_grants a.1).trans hgrants, hs.call a.1⟩

/-- Over a run of any calls of a guest, with any answers: each operation the
backend was asked for is covered by the grants of the invocation, and a call
that is refused or comes back as denied asks for none. -/
theorem exec_isolated {state : HttpHostState} {configured : Bool}
    {as : List (PaddockCall × PaddockAnswers)} (h : exec names (new state configured) as = some s) :
    Justified (Covered state.paddockGrants) s.trace ∧
      ∀ (call : PaddockCall) (answers : PaddockAnswers),
        (s.Refused names call ∨
            ∃ message, (s.call names answers call).2 = .error (.denied message)) →
          (s.call names answers call).1.trace = s.trace := by
  obtain ⟨hgrants, hisolated⟩ := exec_invariants h
  refine ⟨hgrants ▸ hisolated.covered, fun call answers hrefused => ?_⟩
  rcases hrefused with hrefused | ⟨message, hdenied⟩
  · exact trace_of_refused hrefused
  · exact trace_of_denied hdenied

/-- A write that is begun, continued and committed, and a read in between that
no grant allows. -/
def writeRun : List (PaddockCall × PaddockAnswers) :=
  let answers : PaddockAnswers := ⟨.ok (), .error "", .error "", .ok (), .ok [], .ok (), .error "",
    .ok (), .ok 7, "absent"⟩
  [(.beginWrite "photos" "a.png" none, answers),
    (.get "mail" "inbox", { answers with push := .error "" }),
    (.write 7 [1, 2], { answers with push := .error "" }),
    (.commit 7, { answers with push := .error "" })]

/-- An invocation that may write one namespace. -/
def photoHost : HttpHostState where
  parentExecutionId := none
  invocationDepth := 0
  sourceGarageId := none
  visitedGarages := []
  applicationId := none
  releaseId := none
  paddockGrants :=
    [⟨"photos", fun namespaceId write => namespaceId == "photos" && write, false, false⟩]
  paddockAuth := none
  requestMethod := []
  requestPath := []
  requestHeaders := []
  requestPayloadHash := []

theorem exec_isolated_writeRun :
    ∃ s, exec ⟨.ok, .ok⟩ (new photoHost true) writeRun = some s ∧ s.trace.length = 3 ∧
      Justified (Covered photoHost.paddockGrants) s.trace := by
  have hrun : exec ⟨.ok, .ok⟩ (new photoHost true) writeRun = some _ := rfl
  exact ⟨_, hrun, rfl, (exec_isolated hrun).1⟩

end PaddockHost

end PitBox.Runtime
