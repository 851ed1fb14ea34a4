import PitBox.Runtime.CachePublication
import PitBox.Runtime.Transparency

/-!
# What a shared cache restores

The file that a lookup finds is the whole output of compiling the source it was
asked for, whatever other threads and processes do to the directory meanwhile.
Every step of a thread is a step of an atomic writer, a removal or neither, so
a file under its final name is always one that some call offered for its place.
-/

namespace PitBox.Runtime

open AtomicWrite Transition

variable {M C : Type} {host : Host} {precompile : Text → Bytes → Except Error Bytes}
  {calls : Set (CacheCall M C)}

/-- The 64 digits of a digest, with or without its prefix, are those of the
SHA-256 of a source. -/
def DigestOf (host : Host) (digest : Text) (source : Bytes) : Prop :=
  Hex.decode ((stripPrefix digestPrefix digest).getD digest) = some (host.sha256 source).toList

theorem digestOf_digestText (source : Bytes) :
    DigestOf host (digestText (host.sha256 source)) source := by
  rw [DigestOf, stripPrefix_digestText, Option.getD_some, hexDigest, Hex.decode_encode]

/-- What is known of the calls that are made: the digest is that of the source,
the compiled output is a function of the fingerprint and the source, and SHA-256
has no collision on the sources. -/
structure Keyed (host : Host) (precompile : Text → Bytes → Except Error Bytes)
    (calls : Set (CacheCall M C)) : Prop where
  digest : ∀ call ∈ calls, DigestOf host call.digest call.source
  precompile : ∀ call ∈ calls,
    call.engine.precompile call.format call.source = precompile call.fingerprint call.source
  sha256_injOn : ∀ a ∈ calls, ∀ b ∈ calls,
    host.sha256 a.source = host.sha256 b.source → a.source = b.source

theorem Keyed.of_path_eq (h : Keyed host precompile calls) {a b : CacheCall M C} (ha : a ∈ calls)
    (hb : b ∈ calls) (hpath : a.path = b.path) :
    a.source = b.source ∧ a.fingerprint = b.fingerprint := by
  obtain ⟨-, hhex, hfingerprint⟩ := EntryPath.mk.inj hpath
  have hda := h.digest a ha
  have hdb := h.digest b hb
  rw [DigestOf, hhex] at hda
  have hsha := Vector.toList_inj.mp (Option.some.inj (hda.symm.trans hdb))
  exact ⟨h.sha256_injOn a ha b hb hsha, hfingerprint⟩

def CacheCall.published (host : Host) (call : CacheCall M C) (out : Bytes) : PublishedFile → Bytes
  | .artifactCwasm => out
  | .metadataJson => host.toVecPretty (call.metadata host out)

/-- The files that the calls offer for the places under the root. -/
def Offered (host : Host) (calls : Set (CacheCall M C)) (path : EntryPath) (file : PublishedFile)
    (bytes : Bytes) : Prop :=
  ∃ call ∈ calls, call.path = path ∧
    ∃ out, call.engine.precompile call.format call.source = .ok out ∧
      bytes = call.published host out file

theorem Keyed.of_offered (h : Keyed host precompile calls) {call : CacheCall M C}
    (hcall : call ∈ calls) {bytes : Bytes}
    (hbytes : Offered host calls call.path .artifactCwasm bytes) :
    precompile call.fingerprint call.source = .ok bytes := by
  obtain ⟨other, hother, hpath, out, hout, rfl⟩ := hbytes
  obtain ⟨hsource, hfingerprint⟩ := h.of_path_eq hother hcall hpath
  rw [← hsource, ← hfingerprint, ← h.precompile other hother]
  exact hout

theorem exists_artifact_of_restores {call : CacheCall M C} {metadataBytes : Bytes}
    {artifact : Option Bytes}
    (h : call.restores host metadataBytes (artifact.map List.length)) :
    ∃ bytes, artifact = some bytes := by
  cases artifact with
  | some bytes => exact ⟨bytes, rfl⟩
  | none => simp [CacheCall.restores] at h

namespace Stage

/-- The writer of a thread that is in `write_atomic`. -/
def writer? : Stage M C → Option CacheWriter
  | .publish _ _ writer => some writer
  | _ => none

/-- The lookup that a thread is in. -/
def call? : Stage M C → Option (CacheCall M C)
  | .idle => none
  | .readMetadata call | .statArtifact call _ | .removeDirectory call | .removeMetadata call
  | .precompile call | .publish call _ _ | .returned call _ => some call
  | .scan evictor _ | .evict evictor _ _ | .evictDirectory evictor _ _ _ => evictor.call

def isWarm : Stage M C → Bool
  | .returned _ (.ok .warmRestored) => true
  | _ => false

/-- A thread that writes, writes what its call publishes. -/
def Publishes (host : Host) : Stage M C → Prop
  | .publish call out writer => call.engine.precompile call.format call.source = .ok out ∧
      writer.dir = call.path ∧ writer.data = call.published host out writer.target
  | _ => True

theorem eq_returned_of_isWarm {stage : Stage M C} (h : stage.isWarm) :
    ∃ call, stage = .returned call (.ok .warmRestored) := by
  unfold isWarm at h
  split at h
  case h_1 call => exact ⟨call, rfl⟩
  case h_2 => cases h

variable {stage stage' : Stage M C} {store store' : CacheStore} {pid : ℕ} {choice : Choice}

theorem writer_evicted (evictor : Evictor M C) : (evicted evictor).writer? = none := by
  unfold evicted
  split <;> rfl

theorem call_evicted (evictor : Evictor M C) : (evicted evictor).call? = evictor.call := by
  unfold evicted
  split
  case h_1 call hcall => exact hcall.symm
  case h_2 hcall => exact hcall.symm

theorem isWarm_evicted (evictor : Evictor M C) : (evicted evictor).isWarm = false := by
  unfold evicted
  split <;> rfl

theorem publishes_of_writer (h : stage.writer? = none) : stage.Publishes host := by
  cases stage <;> trivial

theorem publishes_writeArtifact {call : CacheCall M C} {out : Bytes}
    (h : call.engine.precompile call.format call.source = .ok out) :
    (publish call out (call.writeArtifact out)).Publishes host :=
  ⟨h, rfl, rfl⟩

/-- What one call of a thread does to the store, which lookup it belongs to, what
it writes, and that a lookup only restores what it finds. -/
structure StepOf (host : Host) (pid : ℕ) (store : CacheStore) (stage : Stage M C)
    (store' : CacheStore) (stage' : Stage M C) : Prop where
  move : Move pid store stage.writer? store' stage'.writer?
  call : stage'.call? = stage.call?
  publishes : stage.Publishes host → stage'.Publishes host
  restores : stage'.isWarm → ∃ call bytes, stage.call? = some call ∧
    view store.fs call.path .artifactCwasm = some bytes

theorem StepOf.stay (hwriter : stage'.writer? = none) (hcall : stage'.call? = stage.call?)
    (hwarm : stage'.isWarm = false) : StepOf host pid store stage store stage' where
  move := .stay (by simp [hwriter])
  call := hcall
  publishes _ := publishes_of_writer hwriter
  restores h := by simp [hwarm] at h

theorem stepOf_removeAll {path : EntryPath} {again next : Stage M C}
    (h : removeAll store path again next choice = some (store', stage'))
    (hstage : stage.writer? = none) (hagain : again.writer? = none) (hnext : next.writer? = none)
    (hcallAgain : again.call? = stage.call?) (hcallNext : next.call? = stage.call?)
    (hwarmAgain : again.isWarm = false) (hwarmNext : next.isWarm = false) :
    StepOf host pid store stage store' stage' := by
  cases choice with
  | unlink name =>
    simp only [removeAll, Option.some.injEq, Prod.mk.injEq] at h
    obtain ⟨rfl, rfl⟩ := h
    refine ⟨?_, hcallAgain, fun _ => publishes_of_writer hagain, by simp [hwarmAgain]⟩
    rw [hstage, hagain]
    exact .unlink path name
  | proceed =>
    simp only [removeAll, Option.map_eq_some_iff, Prod.mk.injEq] at h
    obtain ⟨fs, hfs, rfl, rfl⟩ := h
    refine ⟨?_, hcallNext, fun _ => publishes_of_writer hnext, by simp [hwarmNext]⟩
    rw [hstage, hnext]
    exact .removeDir hfs
  | fail error =>
    simp only [removeAll, Option.some.injEq, Prod.mk.injEq] at h
    obtain ⟨rfl, rfl⟩ := h
    exact .stay hnext hcallNext hwarmNext
  | write count => cases h
  | visit path modified => cases h

theorem stepOf_publishStep {call : CacheCall M C} {out : Bytes} {writer : CacheWriter} {count : ℕ}
    (h : publishStep host store pid call out writer count = some (store', stage')) :
    StepOf host pid store (.publish call out writer) store' stage' := by
  obtain ⟨⟨store₁, writer'⟩, hadvance, h⟩ := Option.map_eq_some_iff.mp h
  cases writer' with
  | some writer' =>
    simp only [Prod.mk.injEq] at h
    obtain ⟨rfl, rfl⟩ := h
    refine ⟨.advance hadvance, rfl, fun ⟨hout, hdir, hdata⟩ => ?_, by simp [isWarm]⟩
    obtain ⟨hd, ht, hb⟩ := advance_job hadvance
    exact ⟨hout, hd.trans hdir, by rw [hb, hdata, ht]⟩
  | none =>
    cases htarget : writer.target with
    | artifactCwasm =>
      simp only [htarget, Prod.mk.injEq] at h
      obtain ⟨rfl, rfl⟩ := h
      refine ⟨.finish hadvance ?_, rfl, fun hpublish => ⟨hpublish.1, rfl, rfl⟩, by simp [isWarm]⟩
      rintro v ⟨⟩
      rfl
    | metadataJson =>
      simp only [htarget, Prod.mk.injEq] at h
      obtain ⟨rfl, rfl⟩ := h
      refine ⟨.finish hadvance ?_, rfl, fun _ => trivial, by simp [isWarm]⟩
      rintro v ⟨⟩

/-- Every step of a thread. -/
theorem stepOf_step (h : stage.step host store pid choice = some (store', stage')) :
    StepOf host pid store stage store' stage' := by
  cases stage with
  | idle => cases choice <;> cases h
  | returned call result => cases choice <;> cases h
  | readMetadata call =>
    cases choice with
    | proceed =>
      simp only [step] at h
      split at h <;> cases h <;> exact .stay rfl rfl rfl
    | fail error =>
      cases h
      exact .stay rfl rfl rfl
    | _ => cases h
  | statArtifact call metadataBytes =>
    cases choice with
    | proceed =>
      simp only [step] at h
      split_ifs at h with hrestores
      · cases h
        obtain ⟨bytes, hbytes⟩ := exists_artifact_of_restores hrestores
        exact ⟨.stay (by simp [writer?]), rfl, id, fun _ => ⟨call, bytes, rfl, hbytes⟩⟩
      · cases h
        exact .stay rfl rfl rfl
    | fail error =>
      cases h
      exact .stay rfl rfl rfl
    | _ => cases h
  | removeDirectory call =>
    rw [step] at h
    exact stepOf_removeAll h rfl rfl rfl rfl rfl rfl rfl
  | removeMetadata call =>
    cases choice with
    | proceed =>
      cases h
      exact ⟨.unlink call.path (.target PublishedFile.metadataJson), rfl, fun _ => trivial,
        by simp [isWarm]⟩
    | fail error =>
      cases h
      exact .stay rfl rfl rfl
    | _ => cases h
  | precompile call =>
    cases choice with
    | proceed =>
      simp only [step] at h
      split at h
      case h_1 out hout =>
        cases h
        refine ⟨.stay ?_, rfl, fun _ => publishes_writeArtifact hout, by simp [isWarm]⟩
        rintro v ⟨⟩
        rfl
      case h_2 error herror =>
        cases h
        exact .stay rfl rfl rfl
    | _ => cases h
  | publish call out writer =>
    cases choice with
    | proceed => exact stepOf_publishStep h
    | write count => exact stepOf_publishStep h
    | fail error =>
      cases h
      exact .stay rfl rfl rfl
    | _ => cases h
  | scan evictor entries =>
    cases choice with
    | visit path modified =>
      simp only [step] at h
      split at h <;> cases h <;> exact .stay rfl rfl rfl
    | proceed =>
      cases h
      exact .stay rfl rfl rfl
    | _ => cases h
  | evict evictor total entries =>
    cases entries with
    | nil =>
      cases choice with
      | proceed =>
        cases h
        exact .stay (writer_evicted evictor) (call_evicted evictor) (isWarm_evicted evictor)
      | _ => cases h
    | cons entry entries =>
      cases choice with
      | proceed =>
        simp only [step] at h
        split_ifs at h <;> cases h
        · exact .stay (writer_evicted evictor) (call_evicted evictor) (isWarm_evicted evictor)
        · exact .stay rfl rfl rfl
      | _ => cases h
  | evictDirectory evictor total entry entries =>
    rw [step] at h
    exact stepOf_removeAll h rfl rfl rfl rfl rfl rfl rfl

end Stage

namespace SharedCache

def writers (s : SharedCache M C) : Thread → Option CacheWriter :=
  fun thread => (s.stage thread).writer?

/-- The calls that a run makes are among `calls`. -/
def Action.Among (calls : Set (CacheCall M C)) (action : Action M C) : Prop :=
  ∀ thread call, action = .call thread call → call ∈ calls

structure Inv (host : Host) (calls : Set (CacheCall M C)) (s : SharedCache M C) : Prop where
  sound : Sound Thread.pid s.writers s.store
  call_mem : ∀ thread call, (s.stage thread).call? = some call → call ∈ calls
  publishes : ∀ thread, (s.stage thread).Publishes host
  offered : AllOffered (Offered host calls) (view s.store.fs)

theorem inv_initial : Inv host calls (initial : SharedCache M C) where
  sound := sound_initial
  call_mem thread call h := by cases h
  publishes thread := trivial
  offered path file bytes h := by cases h

variable {s t : SharedCache M C}

theorem writers_setStage (thread : Thread) (stage : Stage M C) :
    (s.setStage thread stage).writers = Function.update s.writers thread stage.writer? := by
  funext other
  by_cases ho : other = thread
  · subst ho
    simp [writers, setStage]
  · simp [writers, setStage, ho]

theorem Inv.offered_writer (h : Inv host calls s) {thread : Thread} {writer : CacheWriter}
    (hwriter : (s.stage thread).writer? = some writer) :
    Offered host calls writer.dir writer.target writer.data := by
  have hpublishes := h.publishes thread
  have hmem := h.call_mem thread
  cases hstage : s.stage thread <;> simp only [hstage, Stage.writer?, reduceCtorEq] at hwriter
  case publish call out w =>
    obtain rfl := Option.some.inj hwriter
    rw [hstage] at hpublishes hmem
    obtain ⟨hout, hdir, hdata⟩ := hpublishes
    exact ⟨call, hmem call rfl, hdir.symm, out, hout, hdata⟩

theorem stage_setStage_self (thread : Thread) (stage : Stage M C) :
    (s.setStage thread stage).stage thread = stage :=
  Function.update_self ..

theorem stage_setStage_of_ne {thread other : Thread} (h : other ≠ thread) (stage : Stage M C) :
    (s.setStage thread stage).stage other = s.stage other :=
  Function.update_of_ne h ..

/-- A new stage of a thread, and what its step left of the store. -/
theorem Inv.update (h : Inv host calls s) {store : CacheStore} {thread : Thread}
    {stage : Stage M C}
    (hsound : Sound Thread.pid (Function.update s.writers thread stage.writer?) store)
    (hcall : ∀ call, stage.call? = some call → call ∈ calls) (hpublishes : stage.Publishes host)
    (hoffered : AllOffered (Offered host calls) (view store.fs)) :
    Inv host calls ({ s with store }.setStage thread stage) where
  sound := by
    rw [writers_setStage]
    exact hsound
  call_mem := by
    intro other call hother
    by_cases ho : other = thread
    · subst ho
      rw [stage_setStage_self] at hother
      exact hcall call hother
    · rw [stage_setStage_of_ne ho] at hother
      exact h.call_mem other call hother
  publishes := by
    intro other
    by_cases ho : other = thread
    · subst ho
      rw [stage_setStage_self]
      exact hpublishes
    · rw [stage_setStage_of_ne ho]
      exact h.publishes other
  offered := hoffered

theorem Inv.begin (h : Inv host calls s) {thread : Thread} {stage : Stage M C}
    (hwriter : stage.writer? = none) (hcall : ∀ call, stage.call? = some call → call ∈ calls) :
    Inv host calls (s.setStage thread stage) := by
  have hsound : Sound Thread.pid (Function.update s.writers thread stage.writer?) s.store :=
    h.sound.replace (by simp [hwriter])
  exact h.update hsound hcall (Stage.publishes_of_writer hwriter) h.offered

/-- The files change by one replacement or removal at a time, and only offered
files are published. -/
theorem view_step (h : Inv host calls s) {action : Action M C}
    (hstep : step host s action = some t) :
    view t.store.fs = view s.store.fs ∨
      Replaces (Offered host calls) (view s.store.fs) (view t.store.fs) := by
  cases action with
  | call thread call =>
    simp only [step, Option.ite_none_right_eq_some, Option.some.injEq] at hstep
    obtain ⟨-, rfl⟩ := hstep
    exact .inl rfl
  | evict thread maxBytes =>
    simp only [step, Option.ite_none_right_eq_some, Option.some.injEq] at hstep
    obtain ⟨-, rfl⟩ := hstep
    exact .inl rfl
  | run thread choice =>
    simp only [step, Option.ite_none_left_eq_some, Option.map_eq_some_iff] at hstep
    obtain ⟨-, ⟨store, stage⟩, hnext, rfl⟩ := hstep
    have hmove := (Stage.stepOf_step hnext).move
    exact view_move (x := thread) h.sound rfl (fun w hw => h.offered_writer hw) hmove
  | crash pid =>
    simp only [step, Option.some.injEq] at hstep
    obtain rfl := hstep
    exact .inl rfl

/-- The step lemma of the invariant. -/
theorem Inv.step (h : Inv host calls s) {action : Action M C} (haction : action.Among calls)
    (hstep : SharedCache.step host s action = some t) : Inv host calls t := by
  have hoffered : AllOffered (Offered host calls) (view t.store.fs) := by
    rcases view_step h hstep with heq | hreplaces
    · rw [heq]
      exact h.offered
    · exact hreplaces.allOffered h.offered
  cases action with
  | call thread call =>
    simp only [SharedCache.step, Option.ite_none_right_eq_some, Option.some.injEq] at hstep
    obtain ⟨-, rfl⟩ := hstep
    apply h.begin
    · rfl
    · rintro other ⟨⟩
      exact haction thread call rfl
  | evict thread maxBytes =>
    simp only [SharedCache.step, Option.ite_none_right_eq_some, Option.some.injEq] at hstep
    obtain ⟨-, rfl⟩ := hstep
    apply h.begin
    · rfl
    · rintro other ⟨⟩
  | run thread choice =>
    simp only [SharedCache.step, Option.ite_none_left_eq_some, Option.map_eq_some_iff] at hstep
    obtain ⟨-, ⟨store, stage⟩, hnext, rfl⟩ := hstep
    have hof := Stage.stepOf_step hnext
    apply h.update
    · exact h.sound.move rfl hof.move
    · intro call hcall
      rw [hof.call] at hcall
      exact h.call_mem thread call hcall
    · exact hof.publishes (h.publishes thread)
    · exact hoffered
  | crash pid =>
    simp only [SharedCache.step, Option.some.injEq] at hstep
    obtain rfl := hstep
    exact ⟨h.sound, h.call_mem, h.publishes, h.offered⟩

theorem inv_exec {actions : List (Action M C)} (hcalls : ∀ action ∈ actions, action.Among calls)
    (hrun : exec (SharedCache.step host) initial actions = some s) : Inv host calls s :=
  exec_invariant (C := fun _ action => Action.Among calls action)
    (fun _ _ _ h haction hstep => h.step haction hstep) inv_initial
    (along_of_forall (fun _ => hcalls) _) hrun

/-- A thread comes to have restored an entry only by a step of its own. -/
theorem run_of_isWarm {action : Action M C} (hstep : SharedCache.step host s action = some t)
    {thread : Thread} (hbefore : s.stage thread ≠ t.stage thread)
    (hafter : (t.stage thread).isWarm) :
    ∃ choice store, (s.stage thread).step host s.store thread.pid choice =
      some (store, t.stage thread) := by
  cases action with
  | call other call =>
    simp only [SharedCache.step, Option.ite_none_right_eq_some, Option.some.injEq] at hstep
    obtain ⟨-, rfl⟩ := hstep
    by_cases ho : thread = other
    · subst ho
      rw [stage_setStage_self] at hafter
      cases hafter
    · exact absurd (stage_setStage_of_ne ho _).symm hbefore
  | evict other maxBytes =>
    simp only [SharedCache.step, Option.ite_none_right_eq_some, Option.some.injEq] at hstep
    obtain ⟨-, rfl⟩ := hstep
    by_cases ho : thread = other
    · subst ho
      rw [stage_setStage_self] at hafter
      cases hafter
    · exact absurd (stage_setStage_of_ne ho _).symm hbefore
  | run other choice =>
    simp only [SharedCache.step, Option.ite_none_left_eq_some, Option.map_eq_some_iff] at hstep
    obtain ⟨-, ⟨store, stage⟩, hnext, rfl⟩ := hstep
    by_cases ho : thread = other
    · subst ho
      rw [stage_setStage_self]
      exact ⟨choice, store, hnext⟩
    · exact absurd (stage_setStage_of_ne (s := { s with store }) ho _).symm hbefore
  | crash pid =>
    simp only [SharedCache.step, Option.some.injEq] at hstep
    obtain rfl := hstep
    exact absurd rfl hbefore

/-- A lookup that restores an entry found the whole output of compiling its
source for its fingerprint. -/
theorem warmRestored_complete (hkeyed : Keyed host precompile calls)
    {actions : List (Action M C)} (hcalls : ∀ action ∈ actions, action.Among calls)
    (hrun : exec (SharedCache.step host) initial actions = some s) {action : Action M C}
    (hstep : SharedCache.step host s action = some t) {thread : Thread} {call : CacheCall M C}
    (hbefore : s.stage thread ≠ t.stage thread)
    (hafter : t.stage thread = .returned call (.ok .warmRestored)) :
    ∃ out, precompile call.fingerprint call.source = .ok out ∧
      s.store.fs.read? call.path (.target .artifactCwasm) = some out := by
  have hinv := inv_exec hcalls hrun
  have hwarm : (t.stage thread).isWarm := by rw [hafter, Stage.isWarm]
  obtain ⟨choice, store, hnext⟩ := run_of_isWarm hstep hbefore hwarm
  have hof := Stage.stepOf_step hnext
  obtain ⟨found, out, hfound, hout⟩ := hof.restores hwarm
  have hcall : (s.stage thread).call? = some call := by
    rw [← hof.call, hafter]
    rfl
  obtain rfl := Option.some.inj (hcall.symm.trans hfound)
  have hmem := hinv.call_mem thread call hcall
  exact ⟨out, hkeyed.of_offered hmem (hinv.offered _ _ _ hout), hout⟩

/-! ### Two processes -/

def componentCall : CacheCall Unit Bytes where
  config := ⟨"/var/cache/pit", 16⟩
  engine := elfEngine
  fingerprint := fingerprintText
  digest := digestText (linuxHost.sha256 componentA)
  source := componentA
  format := .component
  world := "wasi:http/proxy"

theorem keyed_componentCall :
    Keyed linuxHost (fun _ source => .ok (elfMagic ++ source)) {componentCall} where
  digest := by
    rintro call rfl
    exact digestOf_digestText componentA
  precompile := by
    rintro call rfl
    rfl
  sha256_injOn := by
    rintro a rfl b rfl _
    rfl

/-- The calls of `write_atomic`, with a file of `n` bytes written in one part. -/
def writeAll (thread : Thread) (n : ℕ) : List (Action Unit Bytes) :=
  [.proceed, .proceed, .proceed, .write n, .proceed, .proceed, .proceed, .proceed].map (.run thread)

/-- One process compiles and publishes and crashes before it evicts, and another
one reads the metadata. -/
def publishThenCrash : List (Action Unit Bytes) :=
  [.call ⟨1, 0⟩ componentCall, .run ⟨1, 0⟩ .proceed, .run ⟨1, 0⟩ .proceed] ++
    writeAll ⟨1, 0⟩ 16 ++ writeAll ⟨1, 0⟩ 1000 ++
    [.crash 1, .call ⟨2, 0⟩ componentCall, .run ⟨2, 0⟩ .proceed]

/-- The second process restores what the first one published. -/
theorem warmRestored_complete_publishThenCrash :
    ∃ s, exec (SharedCache.step linuxHost) initial publishThenCrash = some s ∧
      s.store.fs.read? componentCall.path (.target .artifactCwasm) =
        some (elfMagic ++ componentA) := by
  have hruns : ((exec (SharedCache.step linuxHost) initial publishThenCrash).bind fun s =>
      (SharedCache.step linuxHost s (.run ⟨2, 0⟩ .proceed)).map fun t =>
        ((s.stage ⟨2, 0⟩).isWarm, (t.stage ⟨2, 0⟩).isWarm)) = some (false, true) := by
    decide +kernel
  obtain ⟨s, hs, hruns⟩ := Option.bind_eq_some_iff.mp hruns
  obtain ⟨t, ht, hwarm⟩ := Option.map_eq_some_iff.mp hruns
  obtain ⟨hcold, hwarm⟩ := Prod.mk.inj hwarm
  have hcalls : ∀ action ∈ publishThenCrash, action.Among {componentCall} := by
    rintro action haction thread call rfl
    simp [publishThenCrash, writeAll] at haction
    rcases haction with ⟨-, rfl⟩ | ⟨-, rfl⟩ <;> rfl
  obtain ⟨call, hafter⟩ := Stage.eq_returned_of_isWarm hwarm
  have hinv : Inv linuxHost {componentCall} t := (inv_exec hcalls hs).step (by rintro _ _ ⟨⟩) ht
  obtain rfl : call = componentCall := hinv.call_mem ⟨2, 0⟩ call (by rw [hafter]; rfl)
  have hbefore : s.stage ⟨2, 0⟩ ≠ t.stage ⟨2, 0⟩ := by
    intro heq
    rw [heq, hwarm] at hcold
    cases hcold
  obtain ⟨out, hout, hread⟩ :=
    warmRestored_complete keyed_componentCall hcalls hs ht hbefore hafter
  obtain rfl := Except.ok.inj hout
  exact ⟨s, hs, hread⟩

end SharedCache

end PitBox.Runtime
