import PitBox.Foundations.Eviction
import PitBox.Runtime.Artifact

/-!
# The compiled cache

The directory of the compiled cache and the functions that look an entry up,
publish it and evict. The directory is the list of its fingerprint directories
in the order a scan meets them. File operations succeed, so publishing is one
step that leaves an artifact and a metadata file behind; the clock and the
place a scan gives to the new directory belong to the environment.

Sizes are natural numbers: the sizes of files on a disk sum below `2^64`.
-/

namespace PitBox.Runtime

open Table Eviction

def compiledCacheSchema : ℕ := 2

def wasmtimeVersion : String := "39.0.2"

structure CompiledCacheConfig where
  root : String
  maxBytes : ℕ
  deriving DecidableEq, Repr

/-- The names of a fingerprint directory under the root. -/
structure EntryPath where
  hexPrefix : Text
  hex : Text
  fingerprint : Text
  deriving DecidableEq, Repr

namespace EntryPath

def directory (path : EntryPath) (root : String) : String :=
  root ++ "/sha256/" ++ String.ofList path.hexPrefix ++ "/" ++ String.ofList path.hex ++ "/" ++
    String.ofList path.fingerprint

end EntryPath

/-- `artifact.cwasm` with its modification time. -/
structure CacheFile where
  modified : ℕ
  bytes : Bytes
  deriving DecidableEq, Repr

/-- A fingerprint directory. -/
structure EntryDir where
  path : EntryPath
  artifact : Option CacheFile
  metadata : Option Bytes
  deriving DecidableEq, Repr

abbrev CacheDir := List EntryDir

/-- The directory of an entry. A digest is ASCII text, so that the first two
bytes of its digits are two characters. -/
def cacheEntryPaths (digest fingerprint : Text) : EntryPath where
  hexPrefix := ((stripPrefix digestPrefix digest).getD digest).take 2
  hex := (stripPrefix digestPrefix digest).getD digest
  fingerprint

theorem cacheEntryPaths_digestText (digest : Sha256) (fingerprint : Text) :
    (cacheEntryPaths (digestText digest) fingerprint).hex = hexDigest digest := by
  rw [cacheEntryPaths, stripPrefix_digestText, Option.getD_some]

theorem cacheEntryPaths_injective {fingerprint : Text} :
    Function.Injective fun digest : Sha256 => cacheEntryPaths (digestText digest) fingerprint := by
  intro a b h
  have hhex := congrArg EntryPath.hex h
  simp only [cacheEntryPaths_digestText] at hhex
  exact hexDigest_injective hhex

/-- What the environment decides when an entry is published. -/
structure Publication where
  now : ℕ
  place : ℕ
  deriving DecidableEq, Repr

/-- An entry as eviction sees it. -/
structure CacheUsage where
  modified : ℕ
  size : ℕ
  path : EntryPath
  deriving DecidableEq, Repr

def EntryDir.usage? (e : EntryDir) : Option CacheUsage :=
  e.artifact.map fun file => ⟨file.modified, file.bytes.length, e.path⟩

namespace CacheDir

variable (dir : CacheDir)

def find (path : EntryPath) : Option EntryDir := List.find? (·.path == path) dir

def readArtifact (path : EntryPath) : Option Bytes :=
  (find dir path).bind fun e => e.artifact.map CacheFile.bytes

def readMetadata (path : EntryPath) : Option Bytes := (find dir path).bind EntryDir.metadata

/-- `remove_dir_all` of a fingerprint directory. -/
def remove (path : EntryPath) : CacheDir := List.filter (·.path != path) dir

/-- An entry with metadata that is not valid is removed. -/
def withoutInvalid (path : EntryPath) : CacheDir :=
  if (readMetadata dir path).isSome then remove dir path else dir

/-- The artifact and the metadata of an entry are written. -/
def write (publication : Publication) (path : EntryPath) (artifact metadata : Bytes) : CacheDir :=
  let others := remove dir path
  others.take publication.place ++
    ⟨path, some ⟨publication.now, artifact⟩, some metadata⟩ :: others.drop publication.place

def usages : List CacheUsage := List.filterMap EntryDir.usage? dir

end CacheDir

/-- The loop of `evict_compiled_cache` over the sorted entries. -/
def evictLoop (maxBytes : ℕ) : ℕ → List CacheUsage → CacheDir → CacheDir
  | _, [], dir => dir
  | total, u :: us, dir =>
    if total ≤ maxBytes then dir else evictLoop maxBytes (total - u.size) us (dir.remove u.path)

def evictCompiledCache (config : CompiledCacheConfig) (dir : CacheDir) : CacheDir :=
  let entries := dir.usages
  let total := total CacheUsage.size entries
  evictLoop config.maxBytes total (byAge CacheUsage.modified entries) dir

inductive CompiledCacheSource where
  | coldCompiled
  | warmRestored
  deriving DecidableEq, Repr

/-- The metadata an entry is published with. -/
def publishedMetadata (host : Host) (fingerprint digest : Text) (source : Bytes)
    (format : ArtifactFormat) (world : String) (compiledSize : ℕ) : CompiledCacheMetadata where
  schemaVersion := compiledCacheSchema
  artifactDigest := digest
  fingerprint
  wasmtime := wasmtimeVersion
  target := host.target
  architecture := host.arch
  format := host.formatName format
  world
  wasmSizeBytes := source.length
  compiledSizeBytes := compiledSize

/-- The check of an entry's metadata against its artifact file. -/
def metadataValid (host : Host) (fingerprint digest : Text) (source : Bytes)
    (format : ArtifactFormat) (world : String) (compiledSize : Option ℕ)
    (metadata : CompiledCacheMetadata) : Bool :=
  metadata.schemaVersion == compiledCacheSchema
    && metadata.artifactDigest == digest
    && metadata.fingerprint == fingerprint
    && metadata.wasmtime == wasmtimeVersion
    && metadata.target == host.target
    && metadata.architecture == host.arch
    && metadata.format == host.formatName format
    && metadata.world == world
    && metadata.wasmSizeBytes == source.length
    && compiledSize == some metadata.compiledSizeBytes

/-- An entry the cache restores from: its metadata is valid and its artifact is
not empty. -/
def entryValid (host : Host) (fingerprint digest : Text) (source : Bytes)
    (format : ArtifactFormat) (world : String) (dir : CacheDir) : Bool :=
  let path := cacheEntryPaths digest fingerprint
  match dir.readMetadata path with
  | some metadataBytes =>
    let compiledSize := (dir.readArtifact path).map List.length
    let valid := ((host.fromSlice metadataBytes).map
      (metadataValid host fingerprint digest source format world compiledSize)).getD false
    valid && compiledSize.getD 0 != 0
  | none => false

/-- A publication, with the source that was compiled. -/
structure PublishedEntry where
  digest : Text
  fingerprint : Text
  source : Bytes
  deriving DecidableEq, Repr

/-- The directory that an operation leaves, what it published and its result. -/
structure CacheOutcome (α : Type) where
  dir : CacheDir
  published : List PublishedEntry
  result : Except Error α

/-- Looks an entry up, or compiles, publishes and evicts. -/
def compiledCacheEntry {M C : Type} (host : Host) (config : CompiledCacheConfig)
    (engine : Wasmtime M C) (fingerprint digest : Text) (source : Bytes)
    (format : ArtifactFormat) (world : String) (publication : Publication) (dir : CacheDir) :
    CacheOutcome CompiledCacheSource :=
  let path := cacheEntryPaths digest fingerprint
  if entryValid host fingerprint digest source format world dir then ⟨dir, [], .ok .warmRestored⟩
  else
    let dir := dir.withoutInvalid path
    match engine.precompile format source with
    | .error error => ⟨dir, [], .error error⟩
    | .ok bytes =>
      let metadata :=
        publishedMetadata host fingerprint digest source format world bytes.length
      let dir := dir.write publication path bytes (host.toVecPretty metadata)
      ⟨evictCompiledCache config dir, [⟨digest, fingerprint, source⟩], .ok .coldCompiled⟩

/-! ### Looking up after an operation -/

namespace CacheDir

variable {dir : CacheDir} {path : EntryPath}

theorem readMetadata_remove : (dir.remove path).readMetadata path = none := by
  have hfind : (dir.remove path).find path = none := by
    simp [find, remove]
  rw [readMetadata, hfind, Option.bind_none]

theorem remove_remove : (dir.remove path).remove path = dir.remove path := by
  simp [remove]

theorem write_remove {publication : Publication} {artifact metadata : Bytes} :
    (dir.remove path).write publication path artifact metadata =
      dir.write publication path artifact metadata := by
  rw [write, remove_remove, write]

theorem write_withoutInvalid {publication : Publication} {artifact metadata : Bytes} :
    (dir.withoutInvalid path).write publication path artifact metadata =
      dir.write publication path artifact metadata := by
  unfold withoutInvalid
  split_ifs
  · exact write_remove
  · rfl

theorem withoutInvalid_subset : dir.withoutInvalid path ⊆ dir := by
  unfold withoutInvalid
  split_ifs
  · exact List.filter_subset_self dir
  · exact List.Subset.refl dir

theorem find_filter (keep : EntryPath → Bool) :
    CacheDir.find (List.filter (keep ·.path) dir) path =
      if keep path then dir.find path else none := by
  unfold find
  induction dir with
  | nil => simp
  | cons e dir ih =>
    by_cases he : e.path = path
    · subst he
      cases hk : keep e.path <;> simp_all
    · cases hk : keep e.path <;> simp_all

theorem find_write {publication : Publication} {artifact metadata : Bytes} :
    (dir.write publication path artifact metadata).find path =
      some ⟨path, some ⟨publication.now, artifact⟩, some metadata⟩ := by
  have hbefore : List.find? (fun e : EntryDir => e.path == path)
      ((dir.remove path).take publication.place) = none := by
    apply List.find?_eq_none.mpr
    intro e he
    have hmem := List.mem_of_mem_take he
    simp only [remove, List.mem_filter] at hmem
    simpa using hmem.2
  simp [find, write, hbefore]

end CacheDir

theorem evictLoop_eq (maxBytes : ℕ) (us : List CacheUsage) (dir : CacheDir) :
    evictLoop maxBytes (total CacheUsage.size us) us dir =
      dir.filter fun e => e.path ∉ (evicted CacheUsage.size maxBytes us).map CacheUsage.path := by
  induction us generalizing dir with
  | nil => simp [evictLoop, evicted]
  | cons u us ih =>
    have hrest : total CacheUsage.size (u :: us) - u.size = total CacheUsage.size us := by simp
    rw [evictLoop, evicted]
    split_ifs with h
    · simp
    · rw [hrest, ih, CacheDir.remove, List.filter_filter]
      apply List.filter_congr
      intro e _
      by_cases he : e.path = u.path <;> simp [he]

theorem evictCompiledCache_eq (config : CompiledCacheConfig) (dir : CacheDir) :
    evictCompiledCache config dir = dir.filter fun e => e.path ∉
      (evicted CacheUsage.size config.maxBytes (byAge CacheUsage.modified dir.usages)).map
        CacheUsage.path := by
  rw [← evictLoop_eq, total_perm CacheUsage.size (perm_byAge _ dir.usages)]
  rfl

theorem evictCompiledCache_subset (config : CompiledCacheConfig) (dir : CacheDir) :
    evictCompiledCache config dir ⊆ dir := by
  rw [evictCompiledCache_eq]
  exact List.filter_subset_self dir

/-! ### A published entry -/

namespace CacheDir

variable {dir : CacheDir} {path : EntryPath} {publication : Publication}

/-- The bytes of the entries that outlast one published now: the strictly newer
ones that a scan meets before it and those at least as new that it meets after. -/
def newerBytes (dir : CacheDir) (publication : Publication) (path : EntryPath) : ℕ :=
  let others := remove dir path
  total CacheUsage.size
      ((usages (others.take publication.place)).filter (publication.now < ·.modified)) +
    total CacheUsage.size
      ((usages (others.drop publication.place)).filter (publication.now ≤ ·.modified))

theorem mem_write {artifact metadata : Bytes} {e : EntryDir}
    (h : e ∈ dir.write publication path artifact metadata) :
    e ∈ dir ∨ e = ⟨path, some ⟨publication.now, artifact⟩, some metadata⟩ := by
  rcases List.mem_append.mp h with he | he
  · exact Or.inl (List.filter_subset_self dir (List.mem_of_mem_take he))
  · rcases List.mem_cons.mp he with rfl | he
    · exact Or.inr rfl
    · exact Or.inl (List.filter_subset_self dir (List.mem_of_mem_drop he))

theorem usages_write {artifact metadata : Bytes} :
    (dir.write publication path artifact metadata).usages =
      usages ((dir.remove path).take publication.place) ++
        ⟨publication.now, artifact.length, path⟩ ::
          usages ((dir.remove path).drop publication.place) := by
  simp [usages, write, EntryDir.usage?]

theorem path_ne_of_mem_usages {others : CacheDir} (h : others ⊆ dir.remove path) {u : CacheUsage}
    (hu : u ∈ others.usages) : u.path ≠ path := by
  obtain ⟨e, he, hue⟩ := List.mem_filterMap.mp hu
  obtain ⟨file, -, rfl⟩ := Option.map_eq_some_iff.mp hue
  simpa using (List.mem_filter.mp (h he)).2

/-- A published entry is still there after eviction exactly when it fits into
the budget together with the entries that outlast it. -/
theorem find_evict_write {config : CompiledCacheConfig} {artifact metadata : Bytes} :
    (evictCompiledCache config (dir.write publication path artifact metadata)).find path =
      if artifact.length + dir.newerBytes publication path ≤ config.maxBytes then
        some ⟨path, some ⟨publication.now, artifact⟩, some metadata⟩
      else none := by
  set removed := (evicted CacheUsage.size config.maxBytes (byAge CacheUsage.modified
    (dir.write publication path artifact metadata).usages)).map CacheUsage.path with hremoved
  have hkept : path ∉ removed ↔
      artifact.length + dir.newerBytes publication path ≤ config.maxBytes := by
    rw [hremoved, usages_write, ← not_lt]
    apply not_congr
    exact key_mem_evicted_byAge
      (fun _ => path_ne_of_mem_usages (List.take_subset publication.place (dir.remove path)))
      (fun _ => path_ne_of_mem_usages (List.drop_subset publication.place (dir.remove path)))
  rw [evictCompiledCache_eq, find_filter (fun p => p ∉ removed), find_write]
  simp only [decide_eq_true_eq, hkept]

end CacheDir

/-! ### Outcomes of a lookup -/

section Lookup

variable {M C : Type} {host : Host} {config : CompiledCacheConfig} {engine : Wasmtime M C}
  {fingerprint digest : Text} {world : String} {source : Bytes} {format : ArtifactFormat}
  {publication : Publication} {dir : CacheDir}

/-- The directory after compiled output was published under a digest and the
cache was evicted. -/
def publishedDir (host : Host) (config : CompiledCacheConfig) (fingerprint digest : Text)
    (source : Bytes) (format : ArtifactFormat) (world : String) (publication : Publication)
    (out : Bytes) (dir : CacheDir) : CacheDir :=
  evictCompiledCache config (dir.write publication (cacheEntryPaths digest fingerprint) out
    (host.toVecPretty (publishedMetadata host fingerprint digest source format world out.length)))

theorem compiledCacheEntry_valid
    (h : entryValid host fingerprint digest source format world dir) :
    compiledCacheEntry host config engine fingerprint digest source format world publication dir =
      ⟨dir, [], .ok .warmRestored⟩ := by
  rw [compiledCacheEntry, if_pos h]

theorem compiledCacheEntry_invalid {out : Bytes}
    (h : ¬ entryValid host fingerprint digest source format world dir)
    (hout : engine.precompile format source = .ok out) :
    compiledCacheEntry host config engine fingerprint digest source format world publication dir =
      ⟨publishedDir host config fingerprint digest source format world publication out dir,
        [⟨digest, fingerprint, source⟩], .ok .coldCompiled⟩ := by
  simp only [compiledCacheEntry, if_neg h, hout, CacheDir.write_withoutInvalid, publishedDir]

theorem compiledCacheEntry_error {error : Error}
    (h : ¬ entryValid host fingerprint digest source format world dir)
    (herror : engine.precompile format source = .error error) :
    compiledCacheEntry host config engine fingerprint digest source format world publication dir =
      ⟨dir.withoutInvalid (cacheEntryPaths digest fingerprint), [], .error error⟩ := by
  simp only [compiledCacheEntry, if_neg h, herror]

theorem not_entryValid_remove :
    ¬ entryValid host fingerprint digest source format world
      (dir.remove (cacheEntryPaths digest fingerprint)) := by
  simp [entryValid, CacheDir.readMetadata_remove]

theorem compiledCacheEntry_remove {out : Bytes}
    (hout : engine.precompile format source = .ok out) :
    compiledCacheEntry host config engine fingerprint digest source format world publication
        (dir.remove (cacheEntryPaths digest fingerprint)) =
      ⟨publishedDir host config fingerprint digest source format world publication out dir,
        [⟨digest, fingerprint, source⟩], .ok .coldCompiled⟩ := by
  rw [compiledCacheEntry_invalid not_entryValid_remove hout, publishedDir, CacheDir.write_remove,
    publishedDir]

theorem exists_artifact_of_entryValid
    (h : entryValid host fingerprint digest source format world dir) :
    ∃ bytes, dir.readArtifact (cacheEntryPaths digest fingerprint) = some bytes := by
  unfold entryValid at h
  cases hfile : dir.readArtifact (cacheEntryPaths digest fingerprint) with
  | some bytes => exact ⟨bytes, rfl⟩
  | none =>
    cases hm : dir.readMetadata (cacheEntryPaths digest fingerprint) <;> simp [hm, hfile] at h

theorem readArtifact_publishedDir {out : Bytes} :
    (publishedDir host config fingerprint digest source format world publication out
        dir).readArtifact (cacheEntryPaths digest fingerprint) =
      if out.length + dir.newerBytes publication (cacheEntryPaths digest fingerprint) ≤
          config.maxBytes then some out
      else none := by
  rw [CacheDir.readArtifact, publishedDir, CacheDir.find_evict_write]
  split_ifs <;> rfl

end Lookup

end PitBox.Runtime
