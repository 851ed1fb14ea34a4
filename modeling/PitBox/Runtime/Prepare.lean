import PitBox.Runtime.Cache

/-!
# Preparing an artifact

`prepareWithWorld` reads an artifact, memoises its digest and prepares it: a
core module, a component, or with a compiled cache an HTTP component that is
restored from its entry. An entry that is restored but does not deserialize is
removed, and the artifact is compiled again.
-/

namespace PitBox.Runtime

inductive CompiledCacheRestoreMode where
  | bytes
  | fileBacked
  deriving DecidableEq, Repr

structure PitRuntimeConfig where
  compiledCacheRestore : CompiledCacheRestoreMode
  preResolvedImports : Bool
  deriving DecidableEq, Repr

structure PitRuntime (M C : Type) where
  engine : Wasmtime M C
  httpEngine : Wasmtime M C
  httpComponentFingerprint : Text
  config : PitRuntimeConfig

inductive ReadinessState where
  | cold
  | warm
  | hot
  deriving DecidableEq, Repr

structure PreparationReport where
  readiness : ReadinessState
  source : CompiledCacheSource
  deriving DecidableEq, Repr

def PreparationReport.default : PreparationReport := ⟨.cold, .coldCompiled⟩

/-- The interfaces of a linker. -/
abbrev Linker := List Interface

/-- A compiled artifact. `httpPre` keeps the component it was resolved from. -/
structure PreparedArtifact (M C : Type) where
  coreModule : Option M
  p1Linker : Option Linker
  component : Option C
  p2Linker : Option Linker
  httpPre : Option C
  httpComponent : Option C
  httpLinker : Option Linker
  artifact : WasmArtifact

namespace PreparedArtifact

variable {M C : Type}

/-- The component that serves HTTP requests. -/
def httpProxy (prepared : PreparedArtifact M C) : Option C :=
  match prepared.httpPre with
  | some component => some component
  | none => prepared.httpComponent

end PreparedArtifact

section Linkers

variable {M C : Type} (engine : Wasmtime M C)

def coreLinker : Except Error Linker := do
  context "failed to link WASI Preview 1 imports" (engine.addToLinker .preview1)
  return [.preview1]

def componentLinker : Except Error Linker := do
  context "failed to link WASI Preview 2" (engine.addToLinker .preview2)
  return [.preview2]

def httpLinker : Except Error Linker := do
  context "failed to link WASI Preview 2 HTTP base" (engine.addToLinker .httpBase)
  context "failed to link PitFast service capability" (engine.addToLinker .service)
  context "failed to link generic Paddock capability" (engine.addToLinker .paddock)
  context "failed to link WASI HTTP" (engine.addToLinker .http)
  return [.httpBase, .service, .paddock, .http]

/-- `ProxyPre` of a component over a linker. -/
def proxyPre (component : C) : Except Error C := do
  engine.instantiatePre component
  return component

end Linkers

section Restore

variable {M C : Type} (host : Host) (config : CompiledCacheConfig) (runtime : PitRuntime M C)

/-- Reads an entry back. The outer error is a failed read of the file. -/
def readBack (path : EntryPath) (dir : CacheDir) : Except Error (Except Error C) :=
  match runtime.config.compiledCacheRestore with
  | .bytes =>
    match dir.readArtifact path with
    | some bytes => .ok (runtime.httpEngine.deserialize bytes)
    | none => .error ["No such file or directory (os error 2)"]
  | .fileBacked => .ok (runtime.httpEngine.deserializeFile (dir.readArtifact path))

/-- The component of an entry. At most one of the two lookups publishes. -/
def restoreComponent (digest : Text) (source : Bytes) (format : ArtifactFormat) (world : String)
    (publication : Publication) (dir : CacheDir) : CacheOutcome (C × PreparationReport) :=
  let fingerprint := runtime.httpComponentFingerprint
  let path := cacheEntryPaths digest fingerprint
  let lookup :=
    compiledCacheEntry host config runtime.httpEngine fingerprint digest source format world
      publication
  match lookup dir with
  | ⟨dir, published, .error error⟩ => ⟨dir, published, .error error⟩
  | ⟨dir, published, .ok entrySource⟩ =>
    let report : PreparationReport :=
      match entrySource with
      | .warmRestored => ⟨.warm, .warmRestored⟩
      | .coldCompiled => ⟨.cold, .coldCompiled⟩
    let reading := context
      ("failed to read compiled cache " ++ path.directory config.root ++ "/artifact.cwasm")
      (readBack runtime path dir)
    match reading with
    | .error error => ⟨dir, published, .error error⟩
    | .ok (.ok component) => ⟨dir, published, .ok (component, report)⟩
    | .ok (.error error) =>
      match entrySource with
      | .warmRestored =>
        match lookup (dir.remove path) with
        | ⟨dir, republished, .error error⟩ => ⟨dir, published ++ republished, .error error⟩
        | ⟨dir, republished, .ok rebuiltSource⟩ =>
          match readBack runtime path dir with
          | .error error => ⟨dir, published ++ republished, .error error⟩
          | .ok result =>
            let result := context
              ("compiled HTTP component deserialization failed after cache rebuild: "
                ++ error.headD "") result
            ⟨dir, published ++ republished,
              result.map fun component => (component, ⟨.cold, rebuiltSource⟩)⟩
      | .coldCompiled =>
        ⟨dir, published, context "compiled HTTP component deserialization failed" (.error error)⟩

/-- A restored component ready for HTTP requests. -/
def prepareRestored (artifact : WasmArtifact) (component : C) (report : PreparationReport) :
    Except Error (PreparedArtifact M C × PreparationReport) := do
  let linker ← httpLinker runtime.httpEngine
  if runtime.config.preResolvedImports then
    let pre ← proxyPre runtime.httpEngine component
    return (⟨none, none, none, none, some pre, none, none, artifact⟩, report)
  else
    return (⟨none, none, none, none, none, some component, some linker, artifact⟩, report)

end Restore

/-- What a preparation leaves: the cache directory, what was published, the memo
that the clones of the artifact share, and the result. -/
structure Preparation (M C : Type) where
  dir : CacheDir
  published : List PublishedEntry
  digest : Option Text
  result : Except Error (PreparedArtifact M C × PreparationReport)

section Prepare

variable {M C : Type} (host : Host) (runtime : PitRuntime M C) (files : Files)
  (artifact : WasmArtifact)

def prepareCoreModule (bytes : Bytes) : Except Error (PreparedArtifact M C) := do
  let coreModule ← context "WASM module preparation failed" (runtime.engine.moduleFromBinary bytes)
  let linker ← coreLinker runtime.engine
  return ⟨some coreModule, some linker, none, none, none, none, none, artifact⟩

def prepareComponent (bytes : Bytes) (requestedWorld : Option String) :
    Except Error (PreparedArtifact M C) := do
  let linker ← componentLinker runtime.engine
  let component ← context "WASM component preparation failed" (runtime.engine.componentNew bytes)
  let httpComponent ←
    context "WASM HTTP component preparation failed" (runtime.httpEngine.componentNew bytes)
  let _ ← httpLinker runtime.httpEngine
  let httpPre ←
    if requestedWorld = some "wasi:http/proxy" then
      some <$> proxyPre runtime.httpEngine httpComponent
    else pure none
  return ⟨none, none, some component, some linker, httpPre, none, none, artifact⟩

def prepareWithWorld (requestedWorld : Option String) (cache : Option CompiledCacheConfig)
    (publication : Publication) (dir : CacheDir) : Preparation M C :=
  match readArtifactBytes files artifact.source with
  | .error error => ⟨dir, [], artifact.digest, .error error⟩
  | .ok bytes =>
    let digest := artifact.digestOf host bytes
    let artifact := { artifact with digest := some digest }
    match host.detectFormat bytes with
    | .error error => ⟨dir, [], digest, .error error⟩
    | .ok .coreModule =>
      ⟨dir, [], digest, (prepareCoreModule runtime artifact bytes).map (·, .default)⟩
    | .ok .component =>
      match cache with
      | none =>
        ⟨dir, [], digest,
          (prepareComponent runtime artifact bytes requestedWorld).map (·, .default)⟩
      | some config =>
        match restoreComponent host config runtime digest bytes .component
            (requestedWorld.getD "component") publication dir with
        | ⟨dir, published, .error error⟩ => ⟨dir, published, digest, .error error⟩
        | ⟨dir, published, .ok (component, report)⟩ =>
          ⟨dir, published, digest, prepareRestored runtime artifact component report⟩

def prepare (dir : CacheDir) : Except Error (PreparedArtifact M C) :=
  (prepareWithWorld host runtime files artifact none none ⟨0, 0⟩ dir).result.map Prod.fst

def prepareHttp (dir : CacheDir) : Except Error (PreparedArtifact M C) :=
  (prepareWithWorld host runtime files artifact (some "wasi:http/proxy") none ⟨0, 0⟩ dir).result.map
    Prod.fst

def prepareHttpCached (cache : CompiledCacheConfig) (publication : Publication) (dir : CacheDir) :
    Preparation M C :=
  prepareWithWorld host runtime files artifact (some "wasi:http/proxy") cache publication dir

end Prepare

/-! ### What a lookup restores -/

section Restored

variable {M C : Type} {host : Host} {config : CompiledCacheConfig} {runtime : PitRuntime M C}
  {digest : Text} {world : String} {source : Bytes} {publication : Publication} {dir : CacheDir}

def CacheDir.stored (engine : Wasmtime M C) (path : EntryPath) (dir : CacheDir) : Option C :=
  (dir.readArtifact path).bind fun bytes => (engine.deserialize bytes).toOption

/-- The component that a lookup restores without compiling. -/
def restored (host : Host) (runtime : PitRuntime M C) (digest : Text) (source : Bytes)
    (world : String) (dir : CacheDir) : Option C :=
  let fingerprint := runtime.httpComponentFingerprint
  if entryValid host fingerprint digest source .component world dir then
    dir.stored runtime.httpEngine (cacheEntryPaths digest fingerprint)
  else none

theorem readBack_eq_ok (h : runtime.httpEngine.Faithful) {path : EntryPath} {c : C} :
    readBack runtime path dir = .ok (.ok c) ↔ dir.stored runtime.httpEngine path = some c := by
  obtain ⟨error, herror⟩ := h.deserializeFile_none
  unfold readBack CacheDir.stored
  cases runtime.config.compiledCacheRestore with
  | bytes =>
    cases dir.readArtifact path with
    | none => simp
    | some bytes => cases hd : runtime.httpEngine.deserialize bytes <;> simp [hd, Except.toOption]
  | fileBacked =>
    cases dir.readArtifact path with
    | none => simp [herror]
    | some bytes =>
      rw [h.deserializeFile_some]
      cases hd : runtime.httpEngine.deserialize bytes <;> simp [hd, Except.toOption]

theorem restored_eq_some {c : C} :
    restored host runtime digest source world dir = some c ↔
      entryValid host runtime.httpComponentFingerprint digest source .component world dir ∧
        dir.stored runtime.httpEngine (cacheEntryPaths digest runtime.httpComponentFingerprint) =
          some c := by
  simp [restored]

theorem readBack_of_refused (h : runtime.httpEngine.Faithful)
    (hvalid : entryValid host runtime.httpComponentFingerprint digest source .component world dir)
    (hnone : restored host runtime digest source world dir = none) :
    ∃ error, readBack runtime (cacheEntryPaths digest runtime.httpComponentFingerprint) dir =
      .ok (.error error) := by
  obtain ⟨bytes, hbytes⟩ := exists_artifact_of_entryValid hvalid
  have hrefused : (runtime.httpEngine.deserialize bytes).toOption = none := by
    simpa [restored, hvalid, CacheDir.stored, hbytes] using hnone
  cases hd : runtime.httpEngine.deserialize bytes with
  | ok c => simp [hd, Except.toOption] at hrefused
  | error error =>
    refine ⟨error, ?_⟩
    unfold readBack
    cases runtime.config.compiledCacheRestore <;> simp [hbytes, hd, h.deserializeFile_some]

theorem restoreComponent_restored (h : runtime.httpEngine.Faithful) {c : C}
    (hc : restored host runtime digest source world dir = some c) :
    restoreComponent host config runtime digest source .component world publication dir =
      ⟨dir, [], .ok (c, ⟨.warm, .warmRestored⟩)⟩ := by
  obtain ⟨hvalid, hstored⟩ := restored_eq_some.mp hc
  have hread := (readBack_eq_ok h).mpr hstored
  unfold restoreComponent
  simp only [compiledCacheEntry_valid hvalid, hread, context_ok]

variable (config publication) in
theorem restoreComponent_precompile_error (h : runtime.httpEngine.Faithful)
    (hnone : restored host runtime digest source world dir = none) {error : Error}
    (herror : runtime.httpEngine.precompile .component source = .error error) :
    ∃ left ⊆ dir, restoreComponent host config runtime digest source .component world publication
      dir = ⟨left, [], .error error⟩ := by
  unfold restoreComponent
  by_cases hvalid :
      entryValid host runtime.httpComponentFingerprint digest source .component world dir
  · obtain ⟨refusal, hread⟩ := readBack_of_refused h hvalid hnone
    simp only [compiledCacheEntry_valid hvalid, hread, context_ok,
      compiledCacheEntry_error not_entryValid_remove herror]
    exact ⟨_, List.Subset.trans CacheDir.withoutInvalid_subset (List.filter_subset_self dir), rfl⟩
  · simp only [compiledCacheEntry_error hvalid herror]
    exact ⟨_, CacheDir.withoutInvalid_subset, rfl⟩

variable (config publication) in
/-- Otherwise the artifact is compiled and published, and served exactly when
its entry can be read back. -/
theorem restoreComponent_published (h : runtime.httpEngine.Faithful)
    (hnone : restored host runtime digest source world dir = none) {out : Bytes}
    (hout : runtime.httpEngine.precompile .component source = .ok out) :
    let dir' := publishedDir host config runtime.httpComponentFingerprint digest source .component
      world publication out dir
    ∃ result,
      restoreComponent host config runtime digest source .component world publication dir =
        ⟨dir', [⟨digest, runtime.httpComponentFingerprint, source⟩], result⟩ ∧
      ∀ c, (∃ report, result = .ok (c, report)) ↔ dir'.stored runtime.httpEngine
        (cacheEntryPaths digest runtime.httpComponentFingerprint) = some c := by
  intro dir'
  simp only [← readBack_eq_ok h]
  unfold restoreComponent
  by_cases hvalid :
      entryValid host runtime.httpComponentFingerprint digest source .component world dir
  · obtain ⟨refusal, hrefusal⟩ := readBack_of_refused h hvalid hnone
    simp only [compiledCacheEntry_valid hvalid, hrefusal, context_ok,
      compiledCacheEntry_remove hout]
    rcases readBack runtime _ dir' with _ | _ | _ <;> simp [dir', Except.map]
  · simp only [compiledCacheEntry_invalid hvalid hout]
    rcases readBack runtime _ dir' with _ | _ | _ <;> simp [dir']

end Restored

end PitBox.Runtime
