import Mathlib.Data.Char
import Mathlib.Data.List.Lex
import PitBox.Foundations.Checked
import PitBox.Runtime.CacheTree
import PitBox.Runtime.Transparency

/-!
# Digests that are reported warm

A dispatcher reports the digests for which a scan of the cache finds an entry,
and it restores an artifact from the entry of its own engine. The scan knows
neither the engine nor what the artifact is, so it looks at less than the lookup
and at more directories. What both check of a directory is `Recorded`. The two
agree on a digest of which no other engine has an entry, as long as its own entry
was published for the bytes that are registered.
-/

namespace PitBox.Runtime

namespace CacheTree

variable (host : Host) (tree : CacheTree)

/-- The check that the scan makes of a fingerprint directory. -/
def warmEntry (digest fingerprint : FileName) (e : EntryNode) : Bool :=
  match e.artifact, e.metadata with
  | some cacheMetadata, some metadataBytes =>
    match host.fromSlice metadataBytes, digest.toStr with
    | some metadata, some name =>
      metadata.schemaVersion == compiledCacheSchema
        && metadata.artifactDigest == digestPrefix ++ name
        && fingerprint.toStr == some metadata.fingerprint
        && metadata.wasmtime == wasmtimeVersion
        && metadata.target == host.target
        && metadata.architecture == host.arch
        && cacheMetadata.isFile
        && metadata.compiledSizeBytes == cacheMetadata.len
        && decide (0 < cacheMetadata.len)
    | _, _ => false
  | _, _ => false

/-- The digests that have an entry, sorted and without repetitions. -/
def warmDigests : List Text :=
  let values := (contents tree.prefixes).flatMap fun hexPrefix =>
    (contents hexPrefix.2).filterMap fun digest =>
      if (contents digest.2).any fun entry => warmEntry host digest.1 entry.1 entry.2 then
        digest.1.toStr.map (digestPrefix ++ ·)
      else none
  (values.insertionSort (· ≤ ·)).dedup

/-- The check of `compiled_cache_entry`: its entry is restored. -/
def entryValid (fingerprint digest : Text) (source : Bytes) (format : ArtifactFormat)
    (world : String) : Bool :=
  let entry := tree.find (cacheEntryPaths digest fingerprint).names
  match entry.bind EntryNode.metadata with
  | some metadataBytes =>
    let compiledSize := (entry.bind EntryNode.artifact).map ArtifactNode.len
    let valid := ((host.fromSlice metadataBytes).map
      (metadataValid host fingerprint digest source format world compiledSize)).getD false
    valid && compiledSize.getD 0 != 0
  | none => false

theorem Describes.find {dir : CacheDir} {tree : CacheTree} (h : Describes dir tree)
    (path : EntryPath) :
    tree.find path.names = (dir.find path).map fun e => e.node.2 := by
  cases hfind : dir.find path with
  | some d =>
    have hpath : d.path = path := by simpa using List.find?_some hfind
    apply mem_dirs.mp
    rw [h, ← hpath]
    exact List.mem_map.mpr ⟨d, List.mem_of_find?_eq_some hfind, rfl⟩
  | none =>
    apply Option.eq_none_iff_forall_not_mem.mpr
    intro e he
    have hmem := mem_dirs.mpr he
    rw [h] at hmem
    obtain ⟨d, hd, heq⟩ := List.mem_map.mp hmem
    have hpath : d.path = path := EntryPath.names_injective (Prod.mk.inj heq).1
    exact List.find?_eq_none.mp hfind d hd (by simpa using hpath)

/-- A lookup in a tree is a lookup in the list that describes it. -/
theorem Describes.entryValid {dir : CacheDir} {tree : CacheTree} (h : Describes dir tree)
    (fingerprint digest : Text) (source : Bytes) (format : ArtifactFormat) (world : String) :
    tree.entryValid host fingerprint digest source format world =
      Runtime.entryValid host fingerprint digest source format world dir := by
  have hmetadata : (tree.find (cacheEntryPaths digest fingerprint).names).bind EntryNode.metadata =
      dir.readMetadata (cacheEntryPaths digest fingerprint) := by
    rw [h.find, CacheDir.readMetadata]
    cases dir.find (cacheEntryPaths digest fingerprint) <;> rfl
  have hartifact : ((tree.find (cacheEntryPaths digest fingerprint).names).bind
      EntryNode.artifact).map ArtifactNode.len =
        (dir.readArtifact (cacheEntryPaths digest fingerprint)).map List.length := by
    rw [h.find, CacheDir.readArtifact]
    cases dir.find (cacheEntryPaths digest fingerprint) with
    | none => rfl
    | some e => cases hfile : e.artifact <;> simp [EntryDir.node, hfile, ArtifactNode.len]
  cases hread : dir.readMetadata (cacheEntryPaths digest fingerprint) <;>
    simp only [CacheTree.entryValid, Runtime.entryValid, hmetadata, hartifact, hread]

/-! ### What the scan and the lookup check -/

/-- What the scan and the lookup both check of a directory: its metadata agree
with its names, with the machine and with the size of its artifact. -/
structure Recorded (host : Host) (hex fingerprint : Text) (e : EntryNode)
    (metadata : CompiledCacheMetadata) : Prop where
  parsed : e.metadata.bind host.fromSlice = some metadata
  schemaVersion : metadata.schemaVersion = compiledCacheSchema
  artifactDigest : metadata.artifactDigest = digestPrefix ++ hex
  fingerprint : metadata.fingerprint = fingerprint
  wasmtime : metadata.wasmtime = wasmtimeVersion
  target : metadata.target = host.target
  architecture : metadata.architecture = host.arch
  compiledSize : e.artifact.map ArtifactNode.len = some metadata.compiledSizeBytes
  notEmpty : 0 < metadata.compiledSizeBytes

variable {host} {hex : Text} {e : EntryNode}

/-- The scan asks for a regular file besides. -/
theorem warmEntry_iff {fingerprint : FileName} :
    warmEntry host (.text hex) fingerprint e = true ↔
      ∃ metadata, fingerprint = .text metadata.fingerprint ∧
        Recorded host hex metadata.fingerprint e metadata ∧
          e.artifact.any ArtifactNode.isFile = true := by
  obtain ⟨artifact, metadataBytes⟩ := e
  constructor
  · intro h
    match artifact, metadataBytes with
    | none, _ | some _, none => simp [warmEntry] at h
    | some artifact, some metadataBytes =>
      cases hparsed : host.fromSlice metadataBytes with
      | none => simp [warmEntry, hparsed] at h
      | some metadata =>
        simp only [warmEntry, hparsed, FileName.toStr, Bool.and_eq_true, beq_iff_eq,
          decide_eq_true_eq] at h
        obtain ⟨⟨⟨⟨⟨⟨⟨⟨hschema, hdigest⟩, hname⟩, hwasmtime⟩, htarget⟩, harch⟩, hfile⟩, hsize⟩,
          hpos⟩ := h
        refine ⟨metadata, FileName.toStr_eq_some.mp hname, ⟨hparsed, hschema, hdigest, rfl,
          hwasmtime, htarget, harch, congrArg some hsize.symm, hsize ▸ hpos⟩, hfile⟩
  · rintro ⟨metadata, rfl, h, hfile⟩
    obtain ⟨artifact, rfl, hsize⟩ := Option.map_eq_some_iff.mp h.compiledSize
    obtain ⟨metadataBytes, rfl, hparsed⟩ := Option.bind_eq_some_iff.mp h.parsed
    have hisFile : artifact.isFile = true := hfile
    simp [warmEntry, hparsed, FileName.toStr, h.schemaVersion, h.artifactDigest, h.wasmtime,
      h.target, h.architecture, hisFile, hsize, h.notEmpty]

theorem mem_warmDigests {tree : CacheTree} :
    digestPrefix ++ hex ∈ tree.warmDigests host ↔ ∃ hexPrefix fingerprint e,
      ((hexPrefix, .text hex, fingerprint), e) ∈ tree.dirs ∧
        warmEntry host (.text hex) fingerprint e = true := by
  unfold warmDigests
  simp only [List.mem_dedup, List.mem_insertionSort, List.mem_flatMap, List.mem_filterMap, dirs,
    mem_below]
  constructor
  · rintro ⟨⟨hexPrefix, digests⟩, hprefix, ⟨digest, fingerprints⟩, hdigest, hvalue⟩
    split_ifs at hvalue with hany
    obtain ⟨name, hname, hvalue⟩ := Option.map_eq_some_iff.mp hvalue
    obtain rfl := List.append_cancel_left hvalue
    obtain rfl := FileName.toStr_eq_some.mp hname
    obtain ⟨⟨fingerprint, e⟩, he, hwarm⟩ := List.any_eq_true.mp hany
    exact ⟨hexPrefix, fingerprint, e, ⟨digests, hprefix, fingerprints, hdigest, he⟩, hwarm⟩
  · rintro ⟨hexPrefix, fingerprint, e, ⟨digests, hprefix, fingerprints, hdigest, he⟩, hwarm⟩
    refine ⟨_, hprefix, _, hdigest, ?_⟩
    rw [if_pos (List.any_eq_true.mpr ⟨_, he, hwarm⟩)]
    rfl

/-- The entry of a dispatcher records what it is looked up for. -/
structure Matches (host : Host) (source : Bytes) (format : ArtifactFormat) (world : String)
    (metadata : CompiledCacheMetadata) : Prop where
  format : metadata.format = host.formatName format
  world : metadata.world = world
  wasmSize : metadata.wasmSizeBytes = source.length

/-- The lookup asks for a match besides. -/
theorem entryValid_iff {tree : CacheTree} {digest : Sha256} {fingerprint : Text} {source : Bytes}
    {format : ArtifactFormat} {world : String} :
    tree.entryValid host fingerprint (digestText digest) source format world = true ↔
      ∃ e metadata, tree.find (cacheEntryPaths (digestText digest) fingerprint).names = some e ∧
        Recorded host (hexDigest digest) fingerprint e metadata ∧
          Matches host source format world metadata := by
  unfold entryValid
  cases hfind : tree.find (cacheEntryPaths (digestText digest) fingerprint).names with
  | none => simp
  | some e =>
    constructor
    · intro h
      cases hmetadata : e.metadata with
      | none => simp [hmetadata] at h
      | some metadataBytes =>
        cases hparsed : host.fromSlice metadataBytes with
        | none => simp [hmetadata, hparsed] at h
        | some metadata =>
          simp only [Option.bind_some, hmetadata, hparsed, Option.map_some, Option.getD_some,
            metadataValid, Bool.and_eq_true, beq_iff_eq, bne_iff_ne] at h
          obtain ⟨⟨⟨⟨⟨⟨⟨⟨⟨⟨hschema, hdigest⟩, hname⟩, hwasmtime⟩, htarget⟩, harch⟩, hformat⟩,
            hworld⟩, hwasm⟩, hsize⟩, hpos⟩ := h
          rw [hsize, Option.getD_some] at hpos
          refine ⟨e, metadata, rfl, ⟨?_, hschema, hdigest, hname, hwasmtime, htarget, harch, hsize,
            Nat.pos_of_ne_zero hpos⟩, ⟨hformat, hworld, hwasm⟩⟩
          rw [hmetadata, Option.bind_some, hparsed]
    · rintro ⟨_, metadata, heq, h, hmatches⟩
      obtain rfl := Option.some.inj heq
      obtain ⟨metadataBytes, hmetadata, hparsed⟩ := Option.bind_eq_some_iff.mp h.parsed
      simp [hmetadata, hparsed, metadataValid, h.schemaVersion, h.artifactDigest, h.fingerprint,
        h.wasmtime, h.target, h.architecture, h.compiledSize, h.notEmpty.ne', hmatches.format,
        hmatches.world, hmatches.wasmSize, digestText]

def ownPath (digest : Sha256) (fingerprint : Text) : TreePath :=
  (cacheEntryPaths (digestText digest) fingerprint).names

theorem ownPath_eq (digest : Sha256) (fingerprint : Text) :
    ownPath digest fingerprint =
      (.text ((hexDigest digest).take 2), .text (hexDigest digest), .text fingerprint) := by
  simp only [ownPath, EntryPath.names, cacheEntryPaths, stripPrefix_digestText, Option.getD_some]

/-- A directory of the digest that the scan accepts though it is not the own one. -/
def Foreign (host : Host) (tree : CacheTree) (digest : Sha256) (fingerprint : Text) : Prop :=
  ∃ path e, (path, e) ∈ tree.dirs ∧ path.2.1 = .text (hexDigest digest) ∧
    path ≠ ownPath digest fingerprint ∧ warmEntry host path.2.1 path.2.2 e = true

/-- No other directory of the digest passes the scan, and what is recorded in the
own one has been published for these bytes, with a regular file as its artifact. -/
structure PublishedAlone (host : Host) (tree : CacheTree) (digest : Sha256)
    (fingerprint : Text) (source : Bytes) (world : String) : Prop where
  alone : ¬ Foreign host tree digest fingerprint
  own : ∀ e metadata, tree.find (ownPath digest fingerprint) = some e →
    Recorded host (hexDigest digest) fingerprint e metadata →
      metadata = publishedMetadata host fingerprint (digestText digest) source .component world
          metadata.compiledSizeBytes ∧
        e.artifact.any ArtifactNode.isFile = true

variable {tree : CacheTree} {digest : Sha256} {fingerprint : Text} {source : Bytes}
  {world : String}

theorem warmEntry_own {metadata : CompiledCacheMetadata}
    (h : Recorded host (hexDigest digest) fingerprint e metadata)
    (hfile : e.artifact.any ArtifactNode.isFile = true) :
    warmEntry host (.text (hexDigest digest)) (.text fingerprint) e = true := by
  obtain rfl := h.fingerprint
  exact warmEntry_iff.mpr ⟨metadata, rfl, h, hfile⟩

/-- The scan accepts the digest for a directory of others or for the own one. -/
theorem mem_warmDigests_digestText :
    digestText digest ∈ tree.warmDigests host ↔ Foreign host tree digest fingerprint ∨
      ∃ e metadata, tree.find (ownPath digest fingerprint) = some e ∧
        Recorded host (hexDigest digest) fingerprint e metadata ∧
          e.artifact.any ArtifactNode.isFile = true := by
  rw [digestText, mem_warmDigests]
  constructor
  · rintro ⟨hexPrefix, name, e, he, hwarm⟩
    by_cases hown : (hexPrefix, FileName.text (hexDigest digest), name) = ownPath digest fingerprint
    · obtain ⟨metadata, hname, hrecorded, hfile⟩ := warmEntry_iff.mp hwarm
      have hfingerprint : metadata.fingerprint = fingerprint := by
        rw [ownPath_eq, hname] at hown
        exact FileName.text.inj (Prod.mk.inj (Prod.mk.inj hown).2).2
      rw [hown] at he
      exact .inr ⟨e, metadata, mem_dirs.mp he, hfingerprint ▸ hrecorded, hfile⟩
    · exact .inl ⟨_, e, he, rfl, hown, hwarm⟩
  · rintro (⟨⟨hexPrefix, hex, name⟩, e, he, rfl, -, hwarm⟩ | ⟨e, metadata, he, hrecorded, hfile⟩)
    · exact ⟨hexPrefix, name, e, he, hwarm⟩
    · have hmem := mem_dirs.mpr he
      rw [ownPath_eq] at hmem
      exact ⟨_, _, e, hmem, warmEntry_own hrecorded hfile⟩

theorem matches_of_published {metadata : CompiledCacheMetadata} {size : ℕ}
    (h : metadata = publishedMetadata host fingerprint (digestText digest) source .component world
      size) : Matches host source .component world metadata :=
  h ▸ ⟨rfl, rfl, rfl⟩

theorem PublishedAlone.mem_warmDigests_iff
    (h : PublishedAlone host tree digest fingerprint source world) :
    digestText digest ∈ tree.warmDigests host ↔
      tree.entryValid host fingerprint (digestText digest) source .component world = true := by
  rw [mem_warmDigests_digestText, entryValid_iff]
  constructor
  · rintro (hforeign | ⟨e, metadata, he, hrecorded, -⟩)
    · exact absurd hforeign h.alone
    · exact ⟨e, metadata, he, hrecorded, matches_of_published (h.own e metadata he hrecorded).1⟩
  · rintro ⟨e, metadata, he, hrecorded, -⟩
    exact .inr ⟨e, metadata, he, hrecorded, (h.own e metadata he hrecorded).2⟩

end CacheTree

/-! ### The dispatcher -/

/-- The part of a dispatcher that registers artifacts. -/
structure PitHttpDispatcher (M C : Type) where
  runtime : PitRuntime M C
  compiledCache : Option CompiledCacheConfig

namespace PitHttpDispatcher

variable {M C : Type} (host : Host) (disk : String → CacheTree) (files : Files)
  (dispatcher : PitHttpDispatcher M C) (artifact : WasmArtifact)

def warmKeys : List Text :=
  (dispatcher.compiledCache.map fun cache => (disk cache.root).warmDigests host).getD []

/-- `register_with_report` of an artifact finds an entry to restore: the artifact
is read, it is a component, and the lookup of its digest succeeds. -/
def findsWarm : Bool :=
  match dispatcher.compiledCache, readArtifactBytes files artifact.source with
  | some cache, .ok bytes =>
    match host.detectFormat bytes with
    | .ok .component =>
      (disk cache.root).entryValid host dispatcher.runtime.httpComponentFingerprint
        (artifact.digestOf host bytes) bytes .component "wasi:http/proxy"
    | _ => false
  | _, _ => false

variable {host disk files dispatcher artifact} {cache : CompiledCacheConfig} {bytes : Bytes}

theorem findsWarm_eq (hcache : dispatcher.compiledCache = some cache)
    (hread : readArtifactBytes files artifact.source = .ok bytes)
    (hformat : host.detectFormat bytes = .ok .component) :
    dispatcher.findsWarm host disk files artifact =
      (disk cache.root).entryValid host dispatcher.runtime.httpComponentFingerprint
        (artifact.digestOf host bytes) bytes .component "wasi:http/proxy" := by
  simp only [findsWarm, hcache, hread, hformat]

/-- Of a cache that is described by a list, the lookup is that of the list. -/
theorem findsWarm_iff {dir : CacheDir} (hdir : CacheTree.Describes dir (disk cache.root))
    (hcache : dispatcher.compiledCache = some cache)
    (hread : readArtifactBytes files artifact.source = .ok bytes)
    (hformat : host.detectFormat bytes = .ok .component) (publication : Publication) :
    dispatcher.findsWarm host disk files artifact = true ↔
      (compiledCacheEntry host cache dispatcher.runtime.httpEngine
        dispatcher.runtime.httpComponentFingerprint (artifact.digestOf host bytes) bytes .component
        "wasi:http/proxy" publication dir).result = .ok .warmRestored := by
  rw [findsWarm_eq hcache hread hformat, hdir.entryValid]
  by_cases hvalid : entryValid host dispatcher.runtime.httpComponentFingerprint
      (artifact.digestOf host bytes) bytes .component "wasi:http/proxy" dir
  · rw [compiledCacheEntry_valid hvalid]
    exact iff_of_true hvalid rfl
  · cases hout : dispatcher.runtime.httpEngine.precompile .component bytes with
    | ok out =>
      rw [compiledCacheEntry_invalid hvalid hout]
      exact iff_of_false hvalid (by simp)
    | error error =>
      rw [compiledCacheEntry_error hvalid hout]
      exact iff_of_false hvalid (by simp)

theorem warmKeys_eq (hcache : dispatcher.compiledCache = some cache) :
    dispatcher.warmKeys host disk = (disk cache.root).warmDigests host := by
  rw [warmKeys, hcache, Option.map_some, Option.getD_some]

theorem mem_warmKeys_of_foreign {digest : Sha256} (hcache : dispatcher.compiledCache = some cache)
    (h : CacheTree.Foreign host (disk cache.root) digest
      dispatcher.runtime.httpComponentFingerprint) :
    digestText digest ∈ dispatcher.warmKeys host disk := by
  rw [warmKeys_eq hcache]
  exact CacheTree.mem_warmDigests_digestText.mpr (.inl h)

section Demo

/-- A cache with one entry. -/
def cacheOf (path : EntryPath) (e : EntryNode) : CacheTree where
  prefixes := some
    { entries := [(.text path.hexPrefix, some
        { entries := [(.text path.hex, some
            { entries := [(.text path.fingerprint, e)]
              nodup := List.nodup_singleton _ })]
          nodup := List.nodup_singleton _ })]
      nodup := List.nodup_singleton _ }

/-- The entry of the first component, compiled under `fingerprintText`. -/
def entryA : EntryNode where
  artifact := some (.file (some 7) (elfMagic ++ componentA))
  metadata := some (metadataBytes (metadataOf digestA))

def diskA (_ : String) : CacheTree :=
  cacheOf (cacheEntryPaths (digestText digestA) fingerprintText) entryA

def dispatcherOf (runtime : PitRuntime Unit Bytes) : PitHttpDispatcher Unit Bytes where
  runtime
  compiledCache := some ⟨"/var/cache/pit", 1024⟩

/-- A runtime whose engine is configured in another way. -/
def otherRuntime : PitRuntime Unit Bytes :=
  { fileBackedRuntime with httpComponentFingerprint := ['v', '2', '-'] ++ hexDigest digestA }

theorem publishedAlone_diskA : CacheTree.PublishedAlone linuxHost (diskA "")
    digestA fingerprintText componentA "wasi:http/proxy" := by
  have hdirs {path : TreePath} {e : EntryNode} (h : (path, e) ∈ (diskA "").dirs) :
      (path, e) = (CacheTree.ownPath digestA fingerprintText, entryA) := List.mem_singleton.mp h
  have hparsed : entryA.metadata.bind linuxHost.fromSlice = some (metadataOf digestA) := by
    decide +kernel
  refine ⟨?_, fun e metadata he h => ?_⟩
  · rintro ⟨path, e, he, -, hne, -⟩
    exact absurd (Prod.mk.inj (hdirs he)).1 hne
  · obtain rfl : e = entryA := (Prod.mk.inj (hdirs (CacheTree.mem_dirs.mpr he))).2
    obtain rfl := Option.some.inj (hparsed.symm.trans h.parsed)
    exact ⟨rfl, rfl⟩

def dirA : CacheDir :=
  [⟨cacheEntryPaths (digestText digestA) fingerprintText, some ⟨7, elfMagic ++ componentA⟩,
    some (metadataBytes (metadataOf digestA))⟩]

end Demo

end PitHttpDispatcher

end PitBox.Runtime
