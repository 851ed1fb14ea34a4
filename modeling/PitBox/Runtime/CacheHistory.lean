import PitBox.Foundations.Transition
import PitBox.Runtime.Transparency

/-!
# Histories of a shared cache directory

Artifacts are constructed, the files behind their paths change, and clones of
the artifacts are prepared one after another through one cache directory. The
digest of an artifact is computed once and the bytes are read anew by each
preparation, so the digests that entries are keyed by are those of the bytes
only as long as no preparation reads a file that has changed since its digest
was memoised.
-/

namespace PitBox.Runtime

open Transition

variable {ι M C : Type}

/-- A successful preparation: the runtime, the bytes it read and what it serves. -/
structure ServedCall (ι M C : Type) where
  runtime : ι
  bytes : Bytes
  prepared : PreparedArtifact M C

/-- The clones of one artifact are one member of `artifacts`. -/
structure History (ι M C : Type) where
  files : Files
  artifacts : List WasmArtifact
  dir : CacheDir
  published : List PublishedEntry
  served : List (ServedCall ι M C)

/-- A step of a history. -/
inductive Event (ι : Type) where
  | newFromPath (path : String)
  | newFromBytes (bytes : Bytes)
  | changeFile (path : String) (node : FileNode)
  | prepare (artifact : ℕ) (runtime : ι) (cache : CompiledCacheConfig) (publication : Publication)

/-- What the histories rely on: SHA-256 has no collision on the bytes of `K`,
restoring gives back what was compiled, and a fingerprint belongs to one engine. -/
structure Trusted (host : Host) (runtimes : ι → PitRuntime M C) (K : List Bytes) : Prop where
  sha256_injOn : ∀ a ∈ K, ∀ b ∈ K, host.sha256 a = host.sha256 b → a = b
  faithful : ∀ r, (runtimes r).httpEngine.Faithful
  engine_eq : ∀ r r', (runtimes r).httpComponentFingerprint =
    (runtimes r').httpComponentFingerprint → (runtimes r).httpEngine = (runtimes r').httpEngine

namespace History

def initial (files : Files) : History ι M C where
  files
  artifacts := []
  dir := []
  published := []
  served := []

variable (host : Host) (runtimes : ι → PitRuntime M C)

/-- A preparation of one of the clones of an artifact. -/
def prepareArtifact (s : History ι M C) (i : ℕ) (artifact : WasmArtifact) (runtime : ι)
    (cache : CompiledCacheConfig) (publication : Publication) : History ι M C :=
  let p := prepareHttpCached host (runtimes runtime) s.files artifact cache publication s.dir
  { s with
    artifacts := s.artifacts.set i { artifact with digest := p.digest }
    dir := p.dir
    published := s.published ++ p.published
    served := s.served ++
      match readArtifactBytes s.files artifact.source, p.result with
      | .ok bytes, .ok (prepared, _) => [⟨runtime, bytes, prepared⟩]
      | _, _ => [] }

def step (s : History ι M C) : Event ι → Option (History ι M C)
  | .newFromPath path => some { s with artifacts := s.artifacts ++ [.fromPath path] }
  | .newFromBytes bytes => some { s with artifacts := s.artifacts ++ [.fromBytes host bytes] }
  | .changeFile path node => some { s with files := Function.update s.files path node }
  | .prepare i runtime cache publication =>
    s.artifacts[i]?.map fun artifact =>
      s.prepareArtifact host runtimes i artifact runtime cache publication

end History

/-- What a preparation serves was compiled from the given bytes. -/
def PreparedArtifact.CompiledFrom (runtime : PitRuntime M C) (bytes : Bytes)
    (prepared : PreparedArtifact M C) : Prop :=
  (∃ component, prepared.httpProxy = some component ∧
      runtime.httpEngine.componentNew bytes = .ok component) ∨
    ∃ coreModule, prepared.coreModule = some coreModule ∧
      runtime.engine.moduleFromBinary bytes = .ok coreModule

namespace History

variable {host : Host} {runtimes : ι → PitRuntime M C} {s t : History ι M C}

/-- Every entry was published under the digest of its source, and every
preparation that succeeded serves what is compiled from the bytes it read. -/
structure Truthful (host : Host) (runtimes : ι → PitRuntime M C) (s : History ι M C) : Prop where
  published : ∀ p ∈ s.published, p.digest = artifactDigest host p.source
  served : ∀ call ∈ s.served, call.prepared.CompiledFrom (runtimes call.runtime) call.bytes

/-- A preparation finds no memo, or the digest of the bytes that it reads, and
reads bytes of `K`. -/
def MemoCurrent (host : Host) (K : List Bytes) (s : History ι M C) : Event ι → Prop
  | .prepare i _ _ _ => ∀ artifact ∈ s.artifacts[i]?,
      ∀ bytes ∈ (readArtifactBytes s.files artifact.source).toOption,
        bytes ∈ K ∧ ∀ digest ∈ artifact.digest, digest = artifactDigest host bytes
  | _ => True

instance (K : List Bytes) (s : History ι M C) : ∀ event, Decidable (MemoCurrent host K s event)
  | .newFromPath _ => isTrue trivial
  | .newFromBytes _ => isTrue trivial
  | .changeFile _ _ => isTrue trivial
  | .prepare i _ _ _ => inferInstanceAs (Decidable (∀ artifact ∈ s.artifacts[i]?,
      ∀ bytes ∈ (readArtifactBytes s.files artifact.source).toOption,
        bytes ∈ K ∧ ∀ digest ∈ artifact.digest, digest = artifactDigest host bytes))

/-- An entry holds what its source compiles to, under the digest of its source. -/
def EntryTruthful (host : Host) (runtimes : ι → PitRuntime M C) (K : List Bytes) (e : EntryDir) :
    Prop :=
  ∃ runtime, ∃ source ∈ K, ∃ file,
    e.path = cacheEntryPaths (artifactDigest host source)
      (runtimes runtime).httpComponentFingerprint ∧
    e.artifact = some file ∧
    (runtimes runtime).httpEngine.precompile .component source = .ok file.bytes

section Lookup

variable {K : List Bytes} {dir : CacheDir} {r : ι} {bytes : Bytes}

/-- A truthful entry under the digest of bytes of `K` holds what they compile to. -/
theorem componentNew_of_stored (hK : Trusted host runtimes K)
    (hdir : ∀ e ∈ dir, EntryTruthful host runtimes K e) (hbytes : bytes ∈ K) {component : C}
    (h : dir.stored (runtimes r).httpEngine (cacheEntryPaths (artifactDigest host bytes)
      (runtimes r).httpComponentFingerprint) = some component) :
    (runtimes r).httpEngine.componentNew bytes = .ok component := by
  obtain ⟨stored, hstored, hcomponent⟩ := Option.bind_eq_some_iff.mp h
  obtain ⟨e, he, hfile⟩ := Option.bind_eq_some_iff.mp hstored
  obtain ⟨r', source, hsource, file, hpath, hartifact, hprecompile⟩ :=
    hdir e (List.mem_of_find?_eq_some he)
  have hkey : e.path = cacheEntryPaths (artifactDigest host bytes)
      (runtimes r).httpComponentFingerprint := by
    simpa using List.find?_some he
  rw [hkey] at hpath
  have hsame := hK.engine_eq r r' (congrArg EntryPath.fingerprint hpath)
  have hfingerprint : (runtimes r').httpComponentFingerprint =
      (runtimes r).httpComponentFingerprint := (congrArg EntryPath.fingerprint hpath).symm
  rw [hfingerprint] at hpath
  obtain rfl := hK.sha256_injOn bytes hbytes source hsource (cacheEntryPaths_injective hpath)
  have hstored' : file.bytes = stored := by
    rw [hartifact] at hfile
    exact Option.some.inj hfile
  rw [hstored', ← hsame] at hprecompile
  rw [← (hK.faithful r).deserialize_precompile _ _ hprecompile]
  cases hd : (runtimes r).httpEngine.deserialize stored with
  | error error => simp [hd, Except.toOption] at hcomponent
  | ok c => simpa [hd, Except.toOption] using hcomponent

theorem entryTruthful_publishedDir (cache : CompiledCacheConfig) (publication : Publication)
    (world : String) {out : Bytes} (hdir : ∀ e ∈ dir, EntryTruthful host runtimes K e)
    (hbytes : bytes ∈ K)
    (hout : (runtimes r).httpEngine.precompile .component bytes = .ok out) :
    ∀ e ∈ publishedDir host cache (runtimes r).httpComponentFingerprint (artifactDigest host bytes)
      bytes .component world publication out dir, EntryTruthful host runtimes K e := by
  intro e he
  rcases CacheDir.mem_write (evictCompiledCache_subset _ _ he) with he | rfl
  · exact hdir e he
  · exact ⟨r, bytes, hbytes, _, rfl, rfl, hout⟩

/-- A lookup under the digest of the bytes keeps the entries truthful, publishes
under that digest, and gives the component compiled from the bytes. -/
theorem restoreComponent_truthful (hK : Trusted host runtimes K)
    (hdir : ∀ e ∈ dir, EntryTruthful host runtimes K e) (hbytes : bytes ∈ K)
    (cache : CompiledCacheConfig) (world : String) (publication : Publication) :
    let o := restoreComponent host cache (runtimes r) (artifactDigest host bytes) bytes .component
      world publication dir
    (∀ e ∈ o.dir, EntryTruthful host runtimes K e) ∧
      (∀ p ∈ o.published, p.digest = artifactDigest host p.source) ∧
      ∀ component report, o.result = .ok (component, report) →
        (runtimes r).httpEngine.componentNew bytes = .ok component := by
  intro o
  cases hrestored : restored host (runtimes r) (artifactDigest host bytes) bytes world dir with
  | some c =>
    have ho : o = ⟨dir, [], .ok (c, ⟨.warm, .warmRestored⟩)⟩ :=
      restoreComponent_restored (hK.faithful r) hrestored
    rw [ho]
    refine ⟨hdir, by simp, fun component report hresult => ?_⟩
    have hc : c = component := congrArg Prod.fst (Except.ok.inj hresult)
    exact componentNew_of_stored hK hdir hbytes (hc ▸ (restored_eq_some.mp hrestored).2)
  | none =>
    cases hout : (runtimes r).httpEngine.precompile .component bytes with
    | error error =>
      obtain ⟨left, hleft, ho⟩ :=
        restoreComponent_precompile_error cache publication (hK.faithful r) hrestored hout
      simp only [o, ho]
      exact ⟨fun e he => hdir e (hleft he), by simp, fun _ _ hresult => by cases hresult⟩
    | ok out =>
      obtain ⟨result, ho, hresult⟩ :=
        restoreComponent_published cache publication (hK.faithful r) hrestored hout
      have hdir' := entryTruthful_publishedDir cache publication world hdir hbytes hout
      simp only [o, ho]
      refine ⟨hdir', by simp, fun component report hserved => ?_⟩
      exact componentNew_of_stored hK hdir' hbytes ((hresult component).mp ⟨report, hserved⟩)

theorem prepareCoreModule_compiled {runtime : PitRuntime M C} {artifact : WasmArtifact}
    {prepared : PreparedArtifact M C}
    (h : prepareCoreModule runtime artifact bytes = .ok prepared) :
    ∃ coreModule, prepared.coreModule = some coreModule ∧
      runtime.engine.moduleFromBinary bytes = .ok coreModule := by
  obtain ⟨coreModule, hmodule, h⟩ := bind_eq_ok.mp h
  obtain ⟨linker, -, h⟩ := bind_eq_ok.mp h
  cases h
  exact ⟨coreModule, rfl, context_eq_ok.mp hmodule⟩

/-- The same for a whole preparation whose memo is current. -/
theorem prepareHttpCached_truthful (hK : Trusted host runtimes K)
    (hdir : ∀ e ∈ dir, EntryTruthful host runtimes K e) {files : Files} {artifact : WasmArtifact}
    (hread : readArtifactBytes files artifact.source = .ok bytes) (hbytes : bytes ∈ K)
    (hmemo : ∀ digest ∈ artifact.digest, digest = artifactDigest host bytes)
    (cache : CompiledCacheConfig) (publication : Publication) :
    let p := prepareHttpCached host (runtimes r) files artifact cache publication dir
    (∀ e ∈ p.dir, EntryTruthful host runtimes K e) ∧
      (∀ q ∈ p.published, q.digest = artifactDigest host q.source) ∧
      ∀ prepared report, p.result = .ok (prepared, report) →
        prepared.CompiledFrom (runtimes r) bytes := by
  have hdigest : artifact.digestOf host bytes = artifactDigest host bytes := by
    unfold WasmArtifact.digestOf
    cases hd : artifact.digest with
    | none => rfl
    | some digest => exact hmemo digest hd
  simp only [prepareHttpCached, prepareWithWorld, hread, hdigest]
  cases host.detectFormat bytes with
  | error error => exact ⟨hdir, by simp, fun _ _ h => by cases h⟩
  | ok format =>
    cases format with
    | coreModule =>
      refine ⟨hdir, by simp, fun prepared report h => Or.inr ?_⟩
      cases hprepared : prepareCoreModule (runtimes r)
          { artifact with digest := some (artifactDigest host bytes) } bytes with
      | error error => simp [hprepared, Except.map] at h
      | ok prepared' =>
        have heq : prepared' = prepared := by
          simp only [hprepared, Except.map] at h
          exact congrArg Prod.fst (Except.ok.inj h)
        exact heq ▸ prepareCoreModule_compiled hprepared
    | component =>
      obtain ⟨hdir', hpublished, hserved⟩ :=
        restoreComponent_truthful (r := r) hK hdir hbytes cache "wasi:http/proxy" publication
      simp only [Option.getD_some]
      generalize restoreComponent host cache (runtimes r) (artifactDigest host bytes) bytes
        .component "wasi:http/proxy" publication dir = o at hdir' hpublished hserved ⊢
      rcases o with ⟨dir', published, error | ⟨component, report⟩⟩
      · exact ⟨hdir', hpublished, fun _ _ h => by cases h⟩
      · refine ⟨hdir', hpublished, fun prepared report' h => Or.inl ⟨component, ?_, ?_⟩⟩
        · exact prepareRestored_httpProxy h
        · exact hserved component report rfl

end Lookup

/-- The invariant of a history whose preparations all find a current memo. -/
structure Invariant (host : Host) (runtimes : ι → PitRuntime M C) (K : List Bytes)
    (s : History ι M C) : Prop extends Truthful host runtimes s where
  entries : ∀ e ∈ s.dir, EntryTruthful host runtimes K e

theorem invariant_initial (K : List Bytes) (files : Files) :
    Invariant host runtimes K (initial files) where
  published := by simp [initial]
  served := by simp [initial]
  entries := by simp [initial]

theorem prepareHttpCached_unread (host : Host) (runtime : PitRuntime M C) {files : Files}
    {artifact : WasmArtifact} {error : Error}
    (hread : readArtifactBytes files artifact.source = .error error) (cache : CompiledCacheConfig)
    (publication : Publication) (dir : CacheDir) :
    prepareHttpCached host runtime files artifact cache publication dir =
      ⟨dir, [], artifact.digest, .error error⟩ := by
  simp only [prepareHttpCached, prepareWithWorld, hread]

theorem Invariant.step {K : List Bytes} (hK : Trusted host runtimes K)
    (h : Invariant host runtimes K s) {event : Event ι} (hmemo : MemoCurrent host K s event)
    (hstep : s.step host runtimes event = some t) : Invariant host runtimes K t := by
  cases event with
  | newFromPath path =>
    obtain rfl := Option.some.inj hstep
    exact ⟨⟨h.published, h.served⟩, h.entries⟩
  | newFromBytes bytes =>
    obtain rfl := Option.some.inj hstep
    exact ⟨⟨h.published, h.served⟩, h.entries⟩
  | changeFile path node =>
    obtain rfl := Option.some.inj hstep
    exact ⟨⟨h.published, h.served⟩, h.entries⟩
  | prepare i r cache publication =>
    obtain ⟨artifact, hartifact, rfl⟩ := Option.map_eq_some_iff.mp hstep
    cases hread : readArtifactBytes s.files artifact.source with
    | error error =>
      have hp := prepareHttpCached_unread host (runtimes r) hread cache publication s.dir
      refine ⟨⟨?_, ?_⟩, ?_⟩ <;> simp only [prepareArtifact, hp, hread, List.append_nil]
      · exact h.published
      · exact h.served
      · exact h.entries
    | ok bytes =>
      obtain ⟨hbytes, hcurrent⟩ := hmemo artifact hartifact bytes (by simp [hread, Except.toOption])
      obtain ⟨hdir, hpublished, hserved⟩ := prepareHttpCached_truthful (r := r) hK h.entries hread
        hbytes hcurrent cache publication
      refine ⟨⟨?_, ?_⟩, hdir⟩
      · intro p hp
        rcases List.mem_append.mp hp with hp | hp
        · exact h.published p hp
        · exact hpublished p hp
      · intro call hcall
        rcases List.mem_append.mp hcall with hcall | hcall
        · exact h.served call hcall
        · simp only [hread] at hcall
          cases hresult : (prepareHttpCached host (runtimes r) s.files artifact cache publication
              s.dir).result with
          | error error => simp [hresult] at hcall
          | ok prepared =>
            simp only [hresult, List.mem_singleton] at hcall
            subst hcall
            exact hserved prepared.1 prepared.2 hresult

/-- In every history whose preparations find no memo or the digest of what they
read, every entry was published under the digest of its source and every
successful preparation serves what is compiled from the bytes it read. -/
theorem exec_truthful {K : List Bytes} (hK : Trusted host runtimes K) {files : Files}
    {events : List (Event ι)}
    (hmemo : Along (step host runtimes) (MemoCurrent host K) (initial files) events)
    (h : exec (step host runtimes) (initial files) events = some s) :
    Truthful host runtimes s := by
  have hinvariant : Invariant host runtimes K s :=
    exec_invariant (fun _ _ _ hs hcurrent hstep => hs.step hK hcurrent hstep)
      (invariant_initial K files) hmemo h
  exact hinvariant.toTruthful

end History

/-! ### Histories of a file that changes -/

section Demo

def appFiles : Files := fun path => if path = "/srv/app.wasm" then .file componentA else .missing

def appCache : CompiledCacheConfig := ⟨"/var/cache/pit", 1024⟩

def appRuntime (_ : Unit) : PitRuntime Unit Bytes := fileBackedRuntime

theorem trusted_app : Trusted linuxHost appRuntime [componentA, componentB] where
  sha256_injOn := by decide +kernel
  faithful _ := elfEngine_faithful
  engine_eq _ _ _ := rfl

/-- A file is replaced and the artifact of its path is built anew. -/
def rebuiltEvents : List (Event Unit) :=
  [.newFromPath "/srv/app.wasm", .prepare 0 () appCache ⟨1, 0⟩, .prepare 0 () appCache ⟨2, 0⟩,
    .changeFile "/srv/app.wasm" (.file componentB), .newFromPath "/srv/app.wasm",
    .prepare 1 () appCache ⟨3, 1⟩, .newFromBytes componentA, .prepare 2 () appCache ⟨4, 0⟩]

def staleEvents : List (Event Unit) :=
  [.newFromPath "/srv/app.wasm", .prepare 0 () appCache ⟨1, 0⟩,
    .changeFile "/srv/app.wasm" (.file componentB), .prepare 0 () appCache ⟨2, 0⟩]

def History.serving (s : History Unit Unit Bytes) : List (Bytes × Option Bytes × Option Unit) :=
  s.served.map fun call => (call.bytes, call.prepared.httpProxy, call.prepared.coreModule)

/-- The replaced file is served under its own digest. -/
theorem exec_truthful_rebuiltEvents :
    ∃ s, exec (History.step linuxHost appRuntime) (History.initial appFiles) rebuiltEvents =
        some s ∧
      s.serving = [(componentA, some componentA, none), (componentA, some componentA, none),
        (componentB, some componentB, none), (componentA, some componentA, none)] ∧
      History.Truthful linuxHost appRuntime s := by
  have hrun : (exec (History.step linuxHost appRuntime) (History.initial appFiles)
      rebuiltEvents).map History.serving = some [(componentA, some componentA, none),
        (componentA, some componentA, none), (componentB, some componentB, none),
        (componentA, some componentA, none)] := by decide +kernel
  obtain ⟨s, hs, hserving⟩ := Option.map_eq_some_iff.mp hrun
  exact ⟨s, hs, hserving, History.exec_truthful trusted_app (by decide +kernel) hs⟩

/-- After the replacement the first artifact still serves the old component. -/
theorem staleEvents_not_truthful :
    Trusted linuxHost appRuntime [componentA, componentB] ∧
      ∃ s, exec (History.step linuxHost appRuntime) (History.initial appFiles) staleEvents =
        some s ∧ ¬ History.Truthful linuxHost appRuntime s := by
  have hrun : (exec (History.step linuxHost appRuntime) (History.initial appFiles)
      staleEvents).map History.serving =
        some [(componentA, some componentA, none), (componentB, some componentA, none)] := by
    decide +kernel
  obtain ⟨s, hs, hserving⟩ := Option.map_eq_some_iff.mp hrun
  refine ⟨trusted_app, s, hs, fun htruthful => ?_⟩
  have hlast : (componentB, some componentA, none) ∈ s.serving := by simp [hserving]
  obtain ⟨call, hcall, heq⟩ := List.mem_map.mp hlast
  simp only [Prod.mk.injEq] at heq
  obtain ⟨hbytes, hproxy, hmodule⟩ := heq
  rcases htruthful.served call hcall with ⟨component, hserved, hnew⟩ | ⟨_, hserved, -⟩
  · rw [hproxy] at hserved
    rw [hbytes, ← Option.some.inj hserved] at hnew
    exact absurd (Except.ok.inj hnew) (by decide)
  · rw [hmodule] at hserved
    cases hserved

end Demo

end PitBox.Runtime
