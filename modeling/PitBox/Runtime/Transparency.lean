import PitBox.Runtime.Prepare

/-!
# Preparing through the cache

Whether a preparation through the compiled cache serves the component of the
canonical bytes. A lookup that restores nothing publishes its own output, runs
eviction over the whole cache and then reads the output back, so a budget that
the new entry does not survive turns the preparation into an error.
-/

namespace PitBox.Runtime

variable {M C : Type} {host : Host} {runtime : PitRuntime M C} {files : Files}
  {artifact : WasmArtifact} {cache : CompiledCacheConfig} {publication : Publication}
  {dir : CacheDir} {bytes out : Bytes} {component : C}

def Preparation.served (preparation : Preparation M C) : Option C :=
  preparation.result.toOption.bind fun prepared => prepared.1.httpProxy

/-- A component artifact whose bytes compile, deserialize and link for the HTTP
engine. -/
structure Prepares (host : Host) (runtime : PitRuntime M C) (files : Files)
    (artifact : WasmArtifact) (bytes out : Bytes) (component : C) : Prop where
  read : readArtifactBytes files artifact.source = .ok bytes
  format : host.detectFormat bytes = .ok .component
  precompile : runtime.httpEngine.precompile .component bytes = .ok out
  componentNew : runtime.httpEngine.componentNew bytes = .ok component
  links : ∃ linker, httpLinker runtime.httpEngine = .ok linker
  instantiatePre : runtime.httpEngine.instantiatePre component = .ok ()

theorem prepareRestored_served {report : PreparationReport}
    (hlinks : ∃ linker, httpLinker runtime.httpEngine = .ok linker)
    (hpre : runtime.httpEngine.instantiatePre component = .ok ()) :
    ((prepareRestored runtime artifact component report).toOption.bind
      fun prepared => prepared.1.httpProxy) = some component := by
  obtain ⟨linker, hlinker⟩ := hlinks
  unfold prepareRestored proxyPre
  rw [hlinker]
  cases hconfig : runtime.config.preResolvedImports <;>
    simp [hpre, bind, Except.bind, pure, Except.pure, Except.toOption, PreparedArtifact.httpProxy]

theorem prepareRestored_httpProxy {report : PreparationReport}
    {prepared : PreparedArtifact M C × PreparationReport}
    (h : prepareRestored runtime artifact component report = .ok prepared) :
    prepared.1.httpProxy = some component := by
  obtain ⟨linker, -, h⟩ := bind_eq_ok.mp h
  split_ifs at h
  · obtain ⟨pre, hpre, h⟩ := bind_eq_ok.mp h
    obtain ⟨_, -, hpre⟩ := bind_eq_ok.mp hpre
    cases hpre
    cases h
    rfl
  · cases h
    rfl

theorem prepareRestored_served_eq {report : PreparationReport} {served : C}
    (h : ((prepareRestored runtime artifact component report).toOption.bind
      fun prepared => prepared.1.httpProxy) = some served) : served = component := by
  cases hprepared : prepareRestored runtime artifact component report with
  | error error => simp [hprepared, Except.toOption] at h
  | ok prepared =>
    rw [hprepared] at h
    exact Option.some.inj (h.symm.trans (prepareRestored_httpProxy hprepared))

theorem prepareHttpCached_served (hread : readArtifactBytes files artifact.source = .ok bytes)
    (hformat : host.detectFormat bytes = .ok .component) :
    (prepareHttpCached host runtime files artifact cache publication dir).served =
      (restoreComponent host cache runtime (artifact.digestOf host bytes) bytes .component
        "wasi:http/proxy" publication dir).result.toOption.bind fun restored =>
          (prepareRestored runtime
            { artifact with digest := some (artifact.digestOf host bytes) } restored.1
              restored.2).toOption.bind fun prepared => prepared.1.httpProxy := by
  simp only [Preparation.served, prepareHttpCached, prepareWithWorld, hread, hformat,
    Option.getD_some]
  rcases restoreComponent host cache runtime (artifact.digestOf host bytes) bytes .component
    "wasi:http/proxy" publication dir with ⟨_, _, _ | _⟩ <;> rfl

theorem stored_publishedDir (h : runtime.httpEngine.Faithful) {digest : Text} {world : String}
    (hout : runtime.httpEngine.precompile .component bytes = .ok out)
    (hnew : runtime.httpEngine.componentNew bytes = .ok component) :
    (publishedDir host cache runtime.httpComponentFingerprint digest bytes .component world
        publication out dir).stored runtime.httpEngine
        (cacheEntryPaths digest runtime.httpComponentFingerprint) =
      if out.length + dir.newerBytes publication
          (cacheEntryPaths digest runtime.httpComponentFingerprint) ≤ cache.maxBytes then
        some component
      else none := by
  rw [CacheDir.stored, readArtifact_publishedDir]
  split_ifs
  · simp [h.deserialize_precompile _ _ hout, hnew, Except.toOption]
  · rfl

section Demo

def componentHeader : Bytes := [0x00, 0x61, 0x73, 0x6d, 0x0d, 0x00, 0x01, 0x00]

def moduleHeader : Bytes := [0x00, 0x61, 0x73, 0x6d, 0x01, 0x00, 0x00, 0x00]

def elfMagic : Bytes := [0x7f, 0x45, 0x4c, 0x46]

def detectHeader (bytes : Bytes) : Except Error ArtifactFormat :=
  if componentHeader.isPrefixOf bytes then .ok .component
  else if moduleHeader.isPrefixOf bytes then .ok .coreModule
  else .error ["invalid WebAssembly artifact"]

/-- An engine whose compiled output is the source behind the magic of an ELF file. -/
def elfEngine : Wasmtime Unit Bytes where
  moduleFromBinary _ := .ok ()
  componentNew := .ok
  precompile _ source := .ok (elfMagic ++ source)
  deserialize bytes :=
    if elfMagic.isPrefixOf bytes then .ok (bytes.drop elfMagic.length)
    else .error ["could not parse ELF header"]
  deserializeFile
    | some bytes =>
      if elfMagic.isPrefixOf bytes then .ok (bytes.drop elfMagic.length)
      else .error ["could not parse ELF header"]
    | none => .error ["failed to open file"]
  addToLinker _ := .ok ()
  instantiatePre _ := .ok ()

theorem elfEngine_faithful : elfEngine.Faithful where
  deserialize_precompile source out h := by
    obtain rfl := Except.ok.inj h
    simp [elfEngine, elfMagic]
  deserializeFile_some _ := rfl
  deserializeFile_none := ⟨_, rfl⟩

/-- Two components that differ in the name of a custom section. -/
def componentNamed (name : UInt8) : Bytes := componentHeader ++ [0x00, 0x02, 0x01, name]

def componentA : Bytes := componentNamed 0x61

def componentB : Bytes := componentNamed 0x62

def digestA : Sha256 :=
  #v[0x81, 0x36, 0x53, 0x0e, 0xd2, 0x93, 0x13, 0xba, 0x89, 0x6a, 0x55, 0xd7, 0x27, 0xee, 0xf1, 0xe5,
    0x93, 0x99, 0xd9, 0xb0, 0x6d, 0xa9, 0xa0, 0xe7, 0x16, 0x54, 0xa8, 0xc4, 0x0a, 0x18, 0x60, 0xb4]

def digestB : Sha256 :=
  #v[0xa9, 0x0f, 0x91, 0xf3, 0x5f, 0xb2, 0x20, 0xf6, 0x69, 0x97, 0x54, 0x16, 0xa6, 0x99, 0x4e, 0x9e,
    0x26, 0x96, 0xa8, 0x27, 0x76, 0x62, 0xf6, 0xe3, 0x77, 0xe2, 0x06, 0x0f, 0x06, 0x6c, 0xe7, 0x41]

/-- SHA-256 on the two components. -/
def sha256Table (bytes : Bytes) : Sha256 := if bytes = componentB then digestB else digestA

def formatText : ArtifactFormat → String
  | .coreModule => "core-module"
  | .component => "component"

/-- Metadata as pretty-printed JSON. -/
def metadataText (m : CompiledCacheMetadata) : Text :=
  let text (name : String) (value : Text) : Text :=
    "  \"".toList ++ name.toList ++ "\": \"".toList ++ value ++ "\"".toList
  let number (name : String) (value : ℕ) : Text :=
    "  \"".toList ++ name.toList ++ "\": ".toList ++ (toString value).toList
  let fields := [number "schema_version" m.schemaVersion, text "artifact_digest" m.artifactDigest,
    text "fingerprint" m.fingerprint, text "wasmtime" m.wasmtime.toList,
    text "target" m.target.toList, text "architecture" m.architecture.toList,
    text "format" m.format.toList, text "world" m.world.toList,
    number "wasm_size_bytes" m.wasmSizeBytes, number "compiled_size_bytes" m.compiledSizeBytes]
  "\x7b\n".toList ++ ",\n".toList.intercalate fields ++ "\n\x7d".toList

def metadataBytes (m : CompiledCacheMetadata) : Bytes :=
  (metadataText m).map fun c => UInt8.ofNat c.toNat

def fingerprintText : Text := ['v', '2', '-'] ++ hexDigest digestB

/-- The metadata of the entry of one of the two components. -/
def metadataOf (digest : Sha256) : CompiledCacheMetadata where
  schemaVersion := compiledCacheSchema
  artifactDigest := digestText digest
  fingerprint := fingerprintText
  wasmtime := wasmtimeVersion
  target := "x86_64-linux-unix"
  architecture := "x86_64"
  format := "component"
  world := "wasi:http/proxy"
  wasmSizeBytes := 12
  compiledSizeBytes := 16

def linuxHost : Host where
  sha256 := sha256Table
  detectFormat := detectHeader
  formatName := formatText
  fromSlice bytes := [metadataOf digestA, metadataOf digestB].find? (metadataBytes · == bytes)
  toVecPretty := metadataBytes
  arch := "x86_64"
  os := "linux"
  family := "unix"

def fileBackedRuntime : PitRuntime Unit Bytes where
  engine := elfEngine
  httpEngine := elfEngine
  httpComponentFingerprint := fingerprintText
  config := ⟨.fileBacked, true⟩

theorem prepares_componentA : Prepares linuxHost fileBackedRuntime (fun _ => .missing)
    (.fromBytes linuxHost componentA) componentA (elfMagic ++ componentA) componentA where
  read := rfl
  format := rfl
  precompile := rfl
  componentNew := rfl
  links := ⟨_, rfl⟩
  instantiatePre := rfl

end Demo

end PitBox.Runtime
