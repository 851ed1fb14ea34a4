import PitBox.Foundations.Checked
import PitBox.Runtime.PaddockIsolation

/-!
# Writers of objects

A handle stands for one writer from the begin of the write that handed it out
until it is dropped. Its calls in between are a session, and what reaches the
writer is read off the session: the chunks, then at most one commit or abort,
then nothing, whatever the backend answers.
-/

namespace PitBox.Runtime

def BackendCall.writer? : BackendCall → Option WriterId
  | .writeChunk writer _ | .commit writer | .abort writer => some writer
  | _ => none

def PaddockCall.handle? : PaddockCall → Option ℕ
  | .write handle _ | .commit handle | .abort handle | .drop handle => some handle
  | _ => none

/-- The calls of a session, and what they make reach the writer. -/
inductive Linear (handle : ℕ) (writer : WriterId) : List PaddockCall → List BackendCall → Prop
  | idle : Linear handle writer [] []
  | write {chunk calls sent} : Linear handle writer calls sent →
    Linear handle writer (.write handle chunk :: calls) (.writeChunk writer chunk :: sent)
  | commit {calls} : Linear handle writer (.commit handle :: calls) [.commit writer]
  | abort {calls} : Linear handle writer (.abort handle :: calls) [.abort writer]
  | drop {calls} : Linear handle writer (.drop handle :: calls) []

/-- What a handle is good for. -/
inductive WriterPhase where
  | writing
  | finalized
  | dropped
  deriving DecidableEq, Repr

namespace WriterPhase

/-- The phase after a call through the handle, whatever the backend answers. -/
def next : WriterPhase → PaddockCall → WriterPhase
  | .writing, .commit _ | .writing, .abort _ => .finalized
  | .writing, .drop _ | .finalized, .drop _ => .dropped
  | phase, _ => phase

def after (phase : WriterPhase) (session : List PaddockCall) : WriterPhase :=
  session.foldl next phase

/-- The entry of the table. -/
def entry (writer : WriterId) : WriterPhase → Option (Option WriterId)
  | .writing => some (some writer)
  | .finalized => some none
  | .dropped => none

end WriterPhase

namespace PaddockHost

variable {names : PaddockNames} {s t : PaddockHost} {answers : PaddockAnswers}

def sentTo (s : PaddockHost) (writer : WriterId) : List BackendCall :=
  s.trace.filter fun call => call.writer? = some writer

/-- What one call of a guest is. -/
inductive Effect (s : PaddockHost) : PaddockCall → PaddockHost → PaddockResult → Prop
  /-- No writer is involved. -/
  | asked {call : PaddockCall} {t : PaddockHost} {result : PaddockResult}
      {later : List BackendCall} (hcall : call.handle? = none) (htable : t.table = s.table)
      (htrace : t.trace = s.trace ++ later) (hlater : ∀ c ∈ later, c.writer? = none)
      (hresult : ∀ handle, result ≠ .ok (.writer handle)) :
    Effect s call t result
  | begun {call : PaddockCall} {t : PaddockHost} {handle : ℕ} {begin : BackendCall}
      (hcall : call.handle? = none) (hbegin : begin.writer? = none)
      (hfree : s.table handle = none)
      (htable : t.table = Function.update s.table handle (some (some s.trace.length)))
      (htrace : t.trace = s.trace ++ [begin]) :
    Effect s call t (.ok (.writer handle))
  /-- The handle has no writer. -/
  | rejected {call : PaddockCall} {handle : ℕ} {result : PaddockResult}
      (hcall : call.handle? = some handle)
      (hentry : ∀ writer, s.table handle ≠ some (some writer))
      (hdrop : s.table handle = some none → call ≠ .drop handle)
      (hresult : ∀ handle, result ≠ .ok (.writer handle)) :
    Effect s call s result
  | written {handle : ℕ} {chunk : Bytes} {writer : WriterId} {result : PaddockResult}
      (hentry : s.table handle = some (some writer))
      (hresult : ∀ handle, result ≠ .ok (.writer handle)) :
    Effect s (.write handle chunk) (s.ask (.writeChunk writer chunk)) result
  | committed {handle : ℕ} {writer : WriterId} {result : PaddockResult}
      (hentry : s.table handle = some (some writer))
      (hresult : ∀ handle, result ≠ .ok (.writer handle)) :
    Effect s (.commit handle) ((s.finalize handle).ask (.commit writer)) result
  | aborted {handle : ℕ} {writer : WriterId} {result : PaddockResult}
      (hentry : s.table handle = some (some writer))
      (hresult : ∀ handle, result ≠ .ok (.writer handle)) :
    Effect s (.abort handle) ((s.finalize handle).ask (.abort writer)) result
  | dropped {handle : ℕ} {entry : Option WriterId} (hentry : s.table handle = some entry) :
    Effect s (.drop handle) { s with table := Function.update s.table handle none } (.ok .unit)

theorem answer_ne_writer {α : Type} {value : α → PaddockValue}
    (hvalue : ∀ a handle, value a ≠ .writer handle) (reply : Except String α) (handle : ℕ) :
    answer value reply ≠ .ok (.writer handle) := by
  cases reply with
  | error error => simp [answer]
  | ok a =>
    intro h
    exact hvalue a handle (Except.ok.inj h)

theorem Effect.guarded {call : PaddockCall} (hcall : call.handle? = none) {κ : Type}
    {namespaceName : String} {key : Except String κ} {granted : NamespaceId → Bool}
    {access : String} {operation : NamespaceId → κ → PaddockHost × PaddockResult}
    (h : ∀ namespaceId k,
      Effect s call (operation namespaceId k).1 (operation namespaceId k).2) :
    Effect s call (s.guarded names namespaceName key granted access operation).1
      (s.guarded names namespaceName key granted access operation).2 := by
  apply guarded_spec (P := fun r => Effect s call r.1 r.2)
  · intro error
    exact .asked hcall rfl (List.append_nil _).symm (by simp) (by simp)
  · intro namespaceId k _ _ _
    exact h namespaceId k

theorem writerOf_error {handle : ℕ} {error : PaddockError}
    (h : s.writerOf answers handle = .error error) (writer : WriterId) :
    s.table handle ≠ some (some writer) := by
  intro hentry
  rw [writerOf, hentry] at h
  cases h

theorem call_effect (hfresh : s.pushesFresh answers = true) (call : PaddockCall) :
    Effect s call (s.call names answers call).1 (s.call names answers call).2 := by
  cases call with
  | beginWrite namespaceName key contentType =>
    apply Effect.guarded rfl
    intro namespaceId k
    cases answers.beginObjectWrite with
    | error error => exact .asked rfl rfl rfl (by simp [BackendCall.writer?]) (by simp)
    | ok _ =>
      cases hpush : answers.push with
      | error error => exact .asked rfl rfl rfl (by simp [BackendCall.writer?]) (by simp)
      | ok handle =>
        have hfree : s.table handle = none := by simpa [pushesFresh, hpush] using hfresh
        exact .begun rfl rfl hfree rfl rfl
  | get namespaceName key =>
    apply Effect.guarded rfl
    intro namespaceId k
    exact .asked rfl rfl rfl (by simp [BackendCall.writer?]) (answer_ne_writer (by simp) _)
  | readRange namespaceName key offset length =>
    apply Effect.guarded rfl
    intro namespaceId k
    cases answers.getObject with
    | error error => exact .asked rfl rfl rfl (by simp [BackendCall.writer?]) (by simp)
    | ok object =>
      exact .asked rfl rfl (List.append_assoc _ _ _) (by simp [BackendCall.writer?])
        (answer_ne_writer (by simp) _)
  | delete namespaceName key =>
    apply Effect.guarded rfl
    intro namespaceId k
    exact .asked rfl rfl rfl (by simp [BackendCall.writer?]) (answer_ne_writer (by simp) _)
  | listObjects namespaceName pre =>
    apply Effect.guarded rfl
    intro namespaceId k
    exact .asked rfl rfl rfl (by simp [BackendCall.writer?]) (answer_ne_writer (by simp) _)
  | write handle chunk =>
    simp only [PaddockHost.call, PaddockHost.write]
    cases hwriter : s.writerOf answers handle with
    | error error => exact .rejected rfl (writerOf_error hwriter) (by simp) (by simp)
    | ok writer => exact .written (writerOf_ok hwriter) (answer_ne_writer (by simp) _)
  | commit handle =>
    simp only [PaddockHost.call, PaddockHost.commit]
    cases hwriter : s.writerOf answers handle with
    | error error => exact .rejected rfl (writerOf_error hwriter) (by simp) (by simp)
    | ok writer => exact .committed (writerOf_ok hwriter) (answer_ne_writer (by simp) _)
  | abort handle =>
    simp only [PaddockHost.call, PaddockHost.abort]
    split
    · exact .rejected rfl (by simp [*]) (by simp) (by simp)
    · exact .rejected rfl (by simp [*]) (by simp) (by simp)
    · exact .aborted ‹_› (answer_ne_writer (by simp) _)
  | drop handle =>
    simp only [PaddockHost.call, PaddockHost.drop]
    split
    · exact .rejected rfl (by simp [*]) (by simp [*]) (by simp)
    · exact .dropped ‹_›

theorem step_effect {a : PaddockCall × PaddockAnswers} (h : step names s a = some t) :
    Effect s a.1 t (s.call names a.2 a.1).2 := by
  unfold step at h
  split_ifs at h with hfresh
  obtain rfl := Option.some.inj h
  exact call_effect hfresh a.1

/-! ### The writer of one handle -/

/-- The writer is opened, and no handle but this one can stand for it. -/
structure Owned (handle : ℕ) (writer : WriterId) (s : PaddockHost) : Prop where
  opened : writer < s.trace.length
  only : ∀ other, s.table other = some (some writer) → other = handle

variable {handle : ℕ} {writer : WriterId} {call : PaddockCall} {result : PaddockResult}

theorem sentTo_append {later : List BackendCall} (htrace : t.trace = s.trace ++ later) :
    t.sentTo writer =
      s.sentTo writer ++ later.filter fun call => call.writer? = some writer := by
  rw [sentTo, htrace, List.filter_append, sentTo]

theorem sentTo_of_none {later : List BackendCall} (htrace : t.trace = s.trace ++ later)
    (hlater : ∀ c ∈ later, c.writer? = none) : t.sentTo writer = s.sentTo writer := by
  rw [sentTo_append htrace, List.filter_eq_nil_iff.mpr, List.append_nil]
  intro c hc
  simp [hlater c hc]

/-- A writer in the table was there before, or is the one that was opened. -/
theorem Effect.writer_cases (h : Effect s call t result) {other : ℕ} {w : WriterId}
    (hentry : t.table other = some (some w)) :
    s.table other = some (some w) ∨ w = s.trace.length := by
  have hupdate {new : ℕ} {e : Option (Option WriterId)}
      (h : Function.update s.table new e other = some (some w)) :
      s.table other = some (some w) ∨ e = some (some w) := by
    rcases eq_or_ne other new with rfl | hne
    · exact .inr (by rwa [Function.update_self] at h)
    · exact .inl (by rwa [Function.update_of_ne hne] at h)
  cases h with
  | asked _ htable => exact .inl (htable ▸ hentry)
  | begun _ _ _ htable =>
    rw [htable] at hentry
    exact (hupdate hentry).imp_right fun he => (Option.some.inj (Option.some.inj he)).symm
  | rejected | written => exact .inl hentry
  | committed | aborted | dropped => exact .inl ((hupdate hentry).resolve_right (by simp))

theorem Effect.length_le (h : Effect s call t result) : s.trace.length ≤ t.trace.length := by
  cases h with
  | asked _ _ htrace | begun _ _ _ _ htrace =>
    rw [htrace, List.length_append]
    exact Nat.le_add_right _ _
  | rejected | dropped => exact le_rfl
  | written | committed | aborted => simp [ask, finalize]

theorem Effect.owned (h : Effect s call t result) (ho : Owned handle writer s) :
    Owned handle writer t where
  opened := ho.opened.trans_le h.length_le
  only other hother := by
    rcases h.writer_cases hother with hbefore | hnew
    · exact ho.only other hbefore
    · exact absurd hnew ho.opened.ne

theorem Effect.table_of_ne (h : Effect s call t result) (hcall : call.handle? ≠ some handle)
    (hresult : result ≠ .ok (.writer handle)) : t.table handle = s.table handle := by
  cases h with
  | asked _ htable => rw [htable]
  | begun _ _ _ htable =>
    rw [htable, Function.update_of_ne]
    rintro rfl
    exact hresult rfl
  | rejected | written => rfl
  | committed | aborted | dropped =>
    apply Function.update_of_ne
    rintro rfl
    exact hcall rfl

/-- Nothing reaches a writer but through its handle. -/
theorem Effect.sentTo_of_ne (h : Effect s call t result) (ho : Owned handle writer s)
    (hcall : s.table handle = some (some writer) → call.handle? ≠ some handle) :
    t.sentTo writer = s.sentTo writer := by
  have hother {other w : ℕ} (hentry : s.table other = some (some w))
      (hcall' : call.handle? = some other) : w ≠ writer := by
    rintro rfl
    obtain rfl := ho.only other hentry
    exact hcall hentry hcall'
  cases h with
  | asked _ _ htrace hlater => exact sentTo_of_none htrace hlater
  | begun _ hbegin _ _ htrace => exact sentTo_of_none htrace (by simpa using hbegin)
  | rejected | dropped => rfl
  | written hentry | committed hentry | aborted hentry =>
    have hne := hother hentry rfl
    rw [sentTo_append rfl]
    simp [BackendCall.writer?, hne, sentTo, finalize]

theorem WriterPhase.eq_writing {phase : WriterPhase} {writer w : WriterId}
    (h : some (some w) = phase.entry writer) : phase = .writing ∧ w = writer := by
  cases phase with
  | writing => exact ⟨rfl, Option.some.inj (Option.some.inj h)⟩
  | finalized => cases h
  | dropped => cases h

/-- A call through the handle moves its entry to the next phase. -/
theorem Effect.table_of_handle (h : Effect s call t result) (hcall : call.handle? = some handle)
    {phase : WriterPhase} (hentry : s.table handle = phase.entry writer) :
    t.table handle = (phase.next call).entry writer := by
  cases h with
  | asked hnone | begun hnone => simp [hnone] at hcall
  | rejected hcall' hnone hdrop =>
    obtain rfl := Option.some.inj (hcall'.symm.trans hcall)
    rw [hentry]
    cases phase with
    | writing => exact absurd hentry (hnone writer)
    | finalized =>
      cases call <;> simp_all [WriterPhase.next, WriterPhase.entry, PaddockCall.handle?]
    | dropped => cases call <;> rfl
  | written hopen =>
    obtain rfl := Option.some.inj hcall
    obtain ⟨rfl, rfl⟩ := WriterPhase.eq_writing (hopen.symm.trans hentry)
    exact hopen
  | committed hopen | aborted hopen =>
    obtain rfl := Option.some.inj hcall
    obtain ⟨rfl, rfl⟩ := WriterPhase.eq_writing (hopen.symm.trans hentry)
    exact Function.update_self ..
  | dropped hopen =>
    obtain rfl := Option.some.inj hcall
    refine (Function.update_self ..).trans ?_
    cases phase <;> rfl

theorem Effect.handedOut (h : Effect s call t result) (hresult : result = .ok (.writer handle)) :
    call.handle? = none ∧ s.table handle = none := by
  cases h with
  | begun hcall _ hfree =>
    cases hresult
    exact ⟨hcall, hfree⟩
  | asked _ _ _ _ hne | rejected _ _ _ hne | written _ hne | committed _ hne | aborted _ hne =>
    exact absurd hresult (hne handle)
  | dropped => cases hresult

theorem Effect.kept (h : Effect s call t result) {entry : Option WriterId}
    (hentry : s.table handle = some entry) : result ≠ .ok (.writer handle) := by
  intro hresult
  rw [(h.handedOut hresult).2] at hentry
  cases hentry

/-- A call through a handle that has its writer writes a chunk, or ends what can
be sent. -/
theorem Effect.linear (h : Effect s call t result) (hcall : call.handle? = some handle)
    (hentry : s.table handle = some (some writer)) :
    (∃ chunk, call = .write handle chunk ∧ t.table handle = some (some writer) ∧
        t.sentTo writer = s.sentTo writer ++ [.writeChunk writer chunk]) ∨
      t.table handle ≠ some (some writer) ∧
        ∃ sent, (∀ calls, Linear handle writer (call :: calls) sent) ∧
          t.sentTo writer = s.sentTo writer ++ sent := by
  cases h with
  | asked hnone | begun hnone => simp [hnone] at hcall
  | rejected hcall' hnone =>
    obtain rfl := Option.some.inj (hcall'.symm.trans hcall)
    exact absurd hentry (hnone writer)
  | @written _ chunk _ _ hopen =>
    obtain rfl := Option.some.inj hcall
    obtain rfl := Option.some.inj (Option.some.inj (hopen.symm.trans hentry))
    refine .inl ⟨chunk, rfl, hopen, ?_⟩
    rw [sentTo_append rfl]
    simp [BackendCall.writer?]
  | committed hopen =>
    obtain rfl := Option.some.inj hcall
    obtain rfl := Option.some.inj (Option.some.inj (hopen.symm.trans hentry))
    refine .inr ⟨by simp [ask, finalize], _, fun _ => .commit, ?_⟩
    rw [sentTo_append rfl]
    simp [BackendCall.writer?, sentTo, finalize]
  | aborted hopen =>
    obtain rfl := Option.some.inj hcall
    obtain rfl := Option.some.inj (Option.some.inj (hopen.symm.trans hentry))
    refine .inr ⟨by simp [ask, finalize], _, fun _ => .abort, ?_⟩
    rw [sentTo_append rfl]
    simp [BackendCall.writer?, sentTo, finalize]
  | dropped =>
    obtain rfl := Option.some.inj hcall
    exact .inr ⟨by simp, [], fun _ => .drop, (List.append_nil _).symm⟩

/-! ### Sessions -/

/-- The calls through a handle, up to where it is handed out again. -/
def session (names : PaddockNames) (handle : ℕ) :
    PaddockHost → List (PaddockCall × PaddockAnswers) → List PaddockCall
  | _, [] => []
  | s, a :: as =>
    let after := s.call names a.2 a.1
    if after.2 = .ok (.writer handle) then []
    else if a.1.handle? = some handle then a.1 :: session names handle after.1 as
    else session names handle after.1 as

def Kept (names : PaddockNames) (handle : ℕ) (s : PaddockHost)
    (a : PaddockCall × PaddockAnswers) : Prop :=
  (s.call names a.2 a.1).2 ≠ .ok (.writer handle)

instance (names : PaddockNames) (handle : ℕ) (s : PaddockHost)
    (a : PaddockCall × PaddockAnswers) : Decidable (Kept names handle s a) :=
  inferInstanceAs (Decidable ((s.call names a.2 a.1).2 ≠ .ok (.writer handle)))

theorem step_eq {a : PaddockCall × PaddockAnswers} (h : step names s a = some t) :
    t = (s.call names a.2 a.1).1 := by
  unfold step at h
  split_ifs at h
  exact (Option.some.inj h).symm

variable {as : List (PaddockCall × PaddockAnswers)}

/-- The entry of a handle has the phase of its session. -/
theorem exec_table {phase : WriterPhase} (hentry : s.table handle = phase.entry writer)
    (hkept : Transition.Along (step names) (Kept names handle) s as)
    (h : exec names s as = some t) :
    t.table handle = (phase.after (session names handle s as)).entry writer := by
  induction as generalizing s phase with
  | nil =>
    cases h
    exact hentry
  | cons a as ih =>
    obtain ⟨u, hu, hrest⟩ := Transition.exec_cons.mp h
    have heffect := step_effect hu
    have hu' := step_eq hu
    rw [session, if_neg hkept.1, ← hu']
    split_ifs with hcall
    · exact ih (heffect.table_of_handle hcall hentry) (hkept.2 u hu) hrest
    · exact ih ((heffect.table_of_ne hcall hkept.1).trans hentry) (hkept.2 u hu) hrest

theorem exec_owned (ho : Owned handle writer s) (h : exec names s as = some t) :
    Owned handle writer t :=
  Transition.exec_invariant_of_step (fun _ _ _ ho hstep => (step_effect hstep).owned ho) ho h

/-- Nothing reaches a writer that is not in the table any more. -/
theorem exec_sentTo_of_gone (ho : Owned handle writer s)
    (hgone : s.table handle ≠ some (some writer)) (h : exec names s as = some t) :
    t.sentTo writer = s.sentTo writer := by
  have hinv : Owned handle writer t ∧ t.table handle ≠ some (some writer) ∧
      t.sentTo writer = s.sentTo writer := by
    apply Transition.exec_invariant_of_step (I := fun t => Owned handle writer t ∧
      t.table handle ≠ some (some writer) ∧ t.sentTo writer = s.sentTo writer) ?_
      ⟨ho, hgone, rfl⟩ h
    rintro t a u ⟨ho, hgone, hsent⟩ hstep
    have heffect := step_effect hstep
    refine ⟨heffect.owned ho, fun hentry => ?_, ?_⟩
    · rcases heffect.writer_cases hentry with hbefore | hnew
      · exact hgone hbefore
      · exact ho.opened.ne hnew
    · rw [heffect.sentTo_of_ne ho fun hentry => absurd hentry hgone, hsent]
  exact hinv.2.2

/-- What reaches a writer is what its session makes reach it. -/
theorem exec_sentTo (ho : Owned handle writer s) (hentry : s.table handle = some (some writer))
    (h : exec names s as = some t) :
    ∃ sent, Linear handle writer (session names handle s as) sent ∧
      t.sentTo writer = s.sentTo writer ++ sent := by
  induction as generalizing s with
  | nil =>
    cases h
    exact ⟨[], .idle, (List.append_nil _).symm⟩
  | cons a as ih =>
    obtain ⟨u, hu, hrest⟩ := Transition.exec_cons.mp h
    have heffect := step_effect hu
    have hu' := step_eq hu
    have howned := heffect.owned ho
    rw [session, if_neg (heffect.kept hentry), ← hu']
    split_ifs with hcall
    · rcases heffect.linear hcall hentry with
        ⟨chunk, hchunk, hwriting, hsent⟩ | ⟨hgone, sent, hlinear, hsent⟩
      · obtain ⟨sent, hlinear, hlater⟩ := ih howned hwriting hrest
        rw [hchunk]
        refine ⟨_, .write hlinear, ?_⟩
        rw [hlater, hsent, List.append_assoc, List.singleton_append]
      · exact ⟨sent, hlinear _, (exec_sentTo_of_gone howned hgone hrest).trans hsent⟩
    · have hkept := heffect.table_of_ne hcall (heffect.kept hentry)
      obtain ⟨sent, hlinear, hlater⟩ := ih howned (hkept.trans hentry) hrest
      exact ⟨sent, hlinear, hlater.trans (by rw [heffect.sentTo_of_ne ho fun _ => hcall])⟩

/-! ### Calls without a writer -/

/-- What the calls through a handle come to in a phase, with any answers: after
a commit or an abort nothing is asked of the backend, and after a drop every
call fails. -/
def Honoured (names : PaddockNames) (s : PaddockHost) (handle : ℕ) : WriterPhase → Prop
  | .writing => True
  | .finalized => ∀ answers,
      (∀ chunk, s.call names answers (.write handle chunk) =
        (s, .error (.conflict "writer finalized"))) ∧
      s.call names answers (.commit handle) = (s, .error (.conflict "writer finalized")) ∧
      s.call names answers (.abort handle) = (s, .ok .unit)
  | .dropped => ∀ answers call, call.handle? = some handle →
      ∃ error, s.call names answers call = (s, .error error)

theorem honoured_of_entry {phase : WriterPhase} (hentry : s.table handle = phase.entry writer) :
    Honoured names s handle phase := by
  cases phase with
  | writing => trivial
  | finalized =>
    intro answers
    have hwriter : s.writerOf answers handle = .error (.conflict "writer finalized") := by
      rw [writerOf, hentry]
      rfl
    refine ⟨fun chunk => ?_, ?_, ?_⟩
    · simp only [PaddockHost.call, PaddockHost.write, hwriter]
    · simp only [PaddockHost.call, PaddockHost.commit, hwriter]
    · simp only [PaddockHost.call, PaddockHost.abort, hentry, WriterPhase.entry]
  | dropped =>
    intro answers call hcall
    have hwriter : s.writerOf answers handle = .error (paddockError answers.absent) := by
      rw [writerOf, hentry]
      rfl
    refine ⟨paddockError answers.absent, ?_⟩
    cases call with
    | beginWrite | get | readRange | delete | listObjects => cases hcall
    | write _ chunk =>
      obtain rfl := Option.some.inj hcall
      simp only [PaddockHost.call, PaddockHost.write, hwriter]
    | commit =>
      obtain rfl := Option.some.inj hcall
      simp only [PaddockHost.call, PaddockHost.commit, hwriter]
    | abort =>
      obtain rfl := Option.some.inj hcall
      simp only [PaddockHost.call, PaddockHost.abort, hentry, WriterPhase.entry]
    | drop =>
      obtain rfl := Option.some.inj hcall
      simp only [PaddockHost.call, PaddockHost.drop, hentry, WriterPhase.entry]

theorem Isolated.sentTo_eq_nil (h : s.Isolated) (hwriter : s.trace.length ≤ writer) :
    s.sentTo writer = [] := by
  apply List.filter_eq_nil_iff.mpr
  intro c hc hsent
  obtain ⟨before, after, htrace⟩ := List.append_of_mem hc
  have hopened : OpenedBy s.grants before writer := by
    have hcovered := h.covered before c after htrace
    cases c <;> simp_all [BackendCall.writer?, Covered]
  obtain ⟨_, _, _, hat, _⟩ := hopened
  have hlt := (List.getElem?_eq_some_iff.mp hat).1
  rw [htrace, List.length_append] at hwriter
  omega

/-- The writer that a begin of a write opens is new to the backend. -/
theorem owned_of_begun {state : HttpHostState} {configured : Bool}
    {before : List (PaddockCall × PaddockAnswers)} {a : PaddockCall × PaddockAnswers}
    (hbefore : exec names (new state configured) before = some s) (hstep : step names s a = some t)
    (hbegun : (s.call names a.2 a.1).2 = .ok (.writer handle)) :
    Owned handle s.trace.length t ∧ t.table handle = some (some s.trace.length) ∧
      t.sentTo s.trace.length = [] := by
  have hisolated := (exec_invariants hbefore).2
  have heffect := step_effect hstep
  rw [hbegun] at heffect
  generalize a.1 = call at heffect
  cases heffect with
  | asked _ _ _ _ hresult | rejected _ _ _ hresult | written _ hresult | committed _ hresult
  | aborted _ hresult => exact absurd rfl (hresult handle)
  | begun _ hbegin _ htable htrace =>
    refine ⟨⟨?_, fun other hother => ?_⟩, ?_, ?_⟩
    · rw [htrace, List.length_append]
      exact Nat.lt_succ_self _
    · by_contra hne
      rw [htable, Function.update_of_ne hne] at hother
      obtain ⟨_, _, _, hat, _⟩ := hisolated.opened other _ hother
      exact lt_irrefl _ (List.getElem?_eq_some_iff.mp hat).1
    · rw [htable, Function.update_self]
    · rw [sentTo_of_none htrace (by simpa using hbegin)]
      exact hisolated.sentTo_eq_nil le_rfl

/-- In every run of calls of a guest, with any answers, from the begin of a write
that handed out a handle: the session of the handle makes reach its writer
chunks in order, then at most one commit or abort, then nothing; as long as the
handle is not handed out again its calls come to what its phase says; and calls
through other handles reach neither the writer nor its entry. -/
theorem exec_linear {state : HttpHostState} {configured : Bool}
    {before after : List (PaddockCall × PaddockAnswers)} {a : PaddockCall × PaddockAnswers}
    {u : PaddockHost} (hbefore : exec names (new state configured) before = some s)
    (hstep : step names s a = some t)
    (hbegun : (s.call names a.2 a.1).2 = .ok (.writer handle))
    (hafter : exec names t after = some u) :
    Linear handle s.trace.length (session names handle t after) (u.sentTo s.trace.length) ∧
      (Transition.Along (step names) (Kept names handle) t after →
        Honoured names u handle (WriterPhase.after .writing (session names handle t after))) ∧
      ∀ b v other, step names u b = some v → b.1.handle? = some other → other ≠ handle →
        v.table handle = u.table handle ∧ v.sentTo s.trace.length = u.sentTo s.trace.length := by
  obtain ⟨howned, hentry, hnone⟩ := owned_of_begun hbefore hstep hbegun
  obtain ⟨sent, hlinear, hsent⟩ := exec_sentTo howned hentry hafter
  refine ⟨?_, fun hkept => ?_, fun b v other hv hother hne => ?_⟩
  · rw [hsent, hnone]
    exact hlinear
  · exact honoured_of_entry (exec_table hentry hkept hafter)
  · have heffect := step_effect hv
    have hcall : b.1.handle? ≠ some handle := by
      rw [hother]
      exact fun heq => hne (Option.some.inj heq)
    have hresult : (u.call names b.2 b.1).2 ≠ .ok (.writer handle) := by
      intro hresult
      rw [(heffect.handedOut hresult).1] at hother
      cases hother
    exact ⟨heffect.table_of_ne hcall hresult,
      heffect.sentTo_of_ne (exec_owned howned hafter) fun _ => hcall⟩

/-- The begin of a write of `a.png` that gets the handle 7. -/
def beginFirst : PaddockCall × PaddockAnswers :=
  (.beginWrite "photos" "a.png" none,
    ⟨.ok (), .error "", .error "", .ok (), .ok [], .ok (), .error "", .ok (), .ok 7, "absent"⟩)

/-- A second write next to it: the first is committed in vain, called again and
dropped, the second is aborted. -/
def sideBySide : List (PaddockCall × PaddockAnswers) :=
  let answers : PaddockAnswers := ⟨.ok (), .error "", .error "", .ok (), .ok [], .ok (),
    .error "disk full", .ok (), .error "", "absent"⟩
  [(.beginWrite "photos" "b.png" none, { answers with push := .ok 8 }), (.write 7 [1], answers),
    (.write 8 [2], { answers with writeChunk := .error "disk full" }), (.write 7 [3], answers),
    (.commit 7, answers), (.write 7 [4], answers), (.abort 8, answers), (.drop 7, answers)]

theorem exec_linear_sideBySide :
    ∃ u, u.sentTo 0 = [.writeChunk 0 [1], .writeChunk 0 [3], .commit 0] ∧
      Linear 7 0 [.write 7 [1], .write 7 [3], .commit 7, .write 7 [4], .drop 7] (u.sentTo 0) ∧
      Honoured ⟨.ok, .ok⟩ u 7 .dropped := by
  let t := ((new photoHost true).call ⟨.ok, .ok⟩ beginFirst.2 beginFirst.1).1
  have hbefore : exec ⟨.ok, .ok⟩ (new photoHost true) [] = some (new photoHost true) := rfl
  have hstep : step ⟨.ok, .ok⟩ (new photoHost true) beginFirst = some t := rfl
  have hafter : exec ⟨.ok, .ok⟩ t sideBySide = some _ := rfl
  have hlinear := exec_linear hbefore hstep rfl hafter
  exact ⟨_, rfl, hlinear.1, hlinear.2.1 (by decide +kernel)⟩

end PaddockHost

end PitBox.Runtime
