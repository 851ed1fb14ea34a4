import PitBox.Foundations.Listing
import PitBox.Runtime.Cache

/-!
# The compiled cache on disk

The tree that the scans of the cache walk: prefixes, digests and fingerprint
directories, any of which may be something else than a directory, have a name
that is no text, or lack the files of an entry. `evictCompiledCache` of a tree
is the eviction of the list of its fingerprint directories wherever that list
describes the tree.
-/

namespace PitBox.Runtime

open Table Eviction

/-- A name in a directory. Names need not be text. -/
inductive FileName where
  | text (name : Text)
  | raw (bytes : Bytes)
  deriving DecidableEq, Repr

namespace FileName

def toStr : FileName → Option Text
  | .text name => some name
  | .raw _ => none

theorem toStr_eq_some {name : FileName} {text : Text} :
    name.toStr = some text ↔ name = .text text := by
  cases name <;> simp [toStr]

end FileName

/-- What `artifact.cwasm` leads to. A platform may not know modification times. -/
inductive ArtifactNode where
  | file (modified : Option ℕ) (bytes : Bytes)
  | other (modified : Option ℕ) (length : ℕ)
  deriving DecidableEq, Repr

namespace ArtifactNode

def modified : ArtifactNode → Option ℕ
  | .file modified _ | .other modified _ => modified

def len : ArtifactNode → ℕ
  | .file _ bytes => bytes.length
  | .other _ length => length

def isFile : ArtifactNode → Bool
  | .file _ _ => true
  | .other _ _ => false

end ArtifactNode

/-- A fingerprint directory: its artifact, and its metadata if they can be read. -/
structure EntryNode where
  artifact : Option ArtifactNode
  metadata : Option Bytes
  deriving DecidableEq, Repr

/-- The names of a fingerprint directory: prefix, digest and fingerprint. -/
abbrev TreePath := FileName × FileName × FileName

/-- The directory `sha256` of a cache. -/
structure CacheTree where
  prefixes : Option (Listing FileName
    (Option (Listing FileName (Option (Listing FileName EntryNode)))))

/-- An entry as eviction sees it. -/
structure TreeUsage where
  modified : ℕ
  size : ℕ
  path : TreePath
  deriving DecidableEq, Repr

namespace CacheTree

variable (tree : CacheTree)

def dirs : List (TreePath × EntryNode) := below (below contents) tree.prefixes

/-- The fingerprint directory of a path. -/
def find (path : TreePath) : Option EntryNode :=
  (tree.prefixes.bind (·.find path.1)).bind fun digests =>
    (digests.bind (·.find path.2.1)).bind fun fingerprints =>
      fingerprints.bind (·.find path.2.2)

/-- The fingerprint directories of which `keep` holds, in the same tree. -/
def keep (keep : TreePath → Bool) : CacheTree where
  prefixes := tree.prefixes.map (·.mapValues fun hexPrefix digests =>
    digests.map (·.mapValues fun hex fingerprints =>
      fingerprints.map (·.filter fun fingerprint => keep (hexPrefix, hex, fingerprint))))

/-- `remove_dir_all` of a fingerprint directory. -/
def remove (path : TreePath) : CacheTree := tree.keep (· != path)

/-- The usage of a directory with an artifact. Times are counted from the
earliest time there is. -/
def usage? (unixEpoch : ℕ) (e : TreePath × EntryNode) : Option TreeUsage :=
  e.2.artifact.map fun metadata => ⟨metadata.modified.getD unixEpoch, metadata.len, e.1⟩

def usages (unixEpoch : ℕ) : List TreeUsage := tree.dirs.filterMap (usage? unixEpoch)

/-- The loop of `evict_compiled_cache` over the sorted entries. -/
def evictLoop (maxBytes : ℕ) : ℕ → List TreeUsage → CacheTree → CacheTree
  | _, [], tree => tree
  | total, u :: us, tree =>
    if total ≤ maxBytes then tree
    else evictLoop maxBytes (total - u.size) us (tree.remove u.path)

/-- Eviction. The total is a sum of words. -/
def evictCompiledCache (unixEpoch : ℕ) (config : CompiledCacheConfig) : CacheTree :=
  let entries := tree.usages unixEpoch
  let total := total TreeUsage.size entries % 2 ^ 64
  evictLoop config.maxBytes total (byAge TreeUsage.modified entries) tree

/-! ### Keeping a part of a tree -/

variable {tree : CacheTree}

theorem dirs_keep (P : TreePath → Bool) :
    (tree.keep P).dirs = tree.dirs.filter fun e => P e.1 := by
  unfold keep dirs
  refine below_filter (fun hexPrefix path => P (hexPrefix, path)) fun hexPrefix digests => ?_
  refine below_filter (fun hex path => P (hexPrefix, hex, path)) fun hex fingerprints => ?_
  exact contents_filter _ _

theorem mem_dirs {path : TreePath} {e : EntryNode} :
    (path, e) ∈ tree.dirs ↔ tree.find path = some e := by
  obtain ⟨hexPrefix, hex, fingerprint⟩ := path
  simp only [dirs, mem_below, mem_contents, find, Option.bind_eq_some_iff]

theorem nodup_dirs : (tree.dirs.map Prod.fst).Nodup :=
  nodup_below fun _ => nodup_below nodup_contents

theorem keep_keep (P Q : TreePath → Bool) :
    (tree.keep P).keep Q = tree.keep fun path => P path && Q path := by
  simp only [keep, Option.map_map, Function.comp_def, Listing.mapValues_mapValues,
    Listing.filter_filter]

theorem keep_true : (tree.keep fun _ => true) = tree := by
  simp only [keep, Listing.filter_true, Listing.mapValues_id, Option.map_id']

variable {unixEpoch : ℕ} {config : CompiledCacheConfig}

theorem mem_usages {u : TreeUsage} : u ∈ tree.usages unixEpoch ↔
    ∃ e metadata, (u.path, e) ∈ tree.dirs ∧ e.artifact = some metadata ∧
      u.modified = metadata.modified.getD unixEpoch ∧ u.size = metadata.len := by
  simp only [usages, usage?, List.mem_filterMap, Option.map_eq_some_iff]
  constructor
  · rintro ⟨⟨path, e⟩, he, metadata, hm, rfl⟩
    exact ⟨e, metadata, he, hm, rfl, rfl⟩
  · rintro ⟨e, metadata, he, hm, hmodified, hsize⟩
    refine ⟨_, he, metadata, hm, ?_⟩
    rw [← hmodified, ← hsize]

theorem usages_keep (P : TreePath → Bool) :
    (tree.keep P).usages unixEpoch = (tree.usages unixEpoch).filter fun u => P u.path := by
  rw [usages, dirs_keep, usages, List.filterMap_filter, List.filter_filterMap]
  congr 1
  funext e
  cases hm : e.2.artifact with
  | none => simp [usage?, hm]
  | some metadata => by_cases hP : P e.1 <;> simp [usage?, hm, hP, Option.filter]

theorem nodup_usages : ((tree.usages unixEpoch).map TreeUsage.path).Nodup := by
  apply List.pairwise_map.mpr
  apply List.pairwise_filterMap.mpr
  apply (List.pairwise_map.mp nodup_dirs).imp
  intro e f hne u hu v hv
  obtain ⟨_, _, rfl⟩ := Option.map_eq_some_iff.mp hu
  obtain ⟨_, _, rfl⟩ := Option.map_eq_some_iff.mp hv
  exact hne

theorem evictLoop_eq (maxBytes : ℕ) (us : List TreeUsage) (tree : CacheTree) :
    evictLoop maxBytes (total TreeUsage.size us) us tree =
      tree.keep fun path => path ∉ (evicted TreeUsage.size maxBytes us).map TreeUsage.path := by
  induction us generalizing tree with
  | nil => simp [evictLoop, evicted, keep_true]
  | cons u us ih =>
    have hrest : total TreeUsage.size (u :: us) - u.size = total TreeUsage.size us := by simp
    rw [evictLoop, evicted]
    split_ifs with h
    · simp [keep_true]
    · rw [hrest, ih, remove, keep_keep]
      congr 1
      funext path
      by_cases hpath : path = u.path <;> simp [hpath]

/-- What eviction did to a tree, in terms of the entries in the order of their
modification times: `removed` is the first part of it and `kept` the rest. -/
structure Evicts (unixEpoch maxBytes : ℕ) (tree tree' : CacheTree) (removed kept : List TreeUsage) :
    Prop where
  order : removed ++ kept = byAge TreeUsage.modified (tree.usages unixEpoch)
  /-- Exactly the directories of `removed` are gone. -/
  tree_eq : tree' = tree.keep fun path => path ∉ removed.map TreeUsage.path
  rest : (tree'.usages unixEpoch).Perm kept
  /-- What remains fits, and no shorter part would do. -/
  fits : total TreeUsage.size (tree'.usages unixEpoch) ≤ maxBytes
  shortest : ∀ k, total TreeUsage.size
      ((byAge TreeUsage.modified (tree.usages unixEpoch)).drop k) ≤ maxBytes → removed.length ≤ k
  oldest : ∀ u ∈ removed, ∀ v ∈ tree'.usages unixEpoch, u.modified ≤ v.modified
  nothing : total TreeUsage.size (tree.usages unixEpoch) ≤ maxBytes → tree' = tree
  newest : ∀ u ∈ tree.usages unixEpoch, u.size ≤ maxBytes →
    (∀ v ∈ tree.usages unixEpoch, v ≠ u → v.modified < u.modified) → u ∈ tree'.usages unixEpoch
  /-- Directories without an artifact are untouched. -/
  untouched : ∀ e ∈ tree.dirs, e.2.artifact = none → e ∈ tree'.dirs

theorem perm_kept {removed kept : List TreeUsage}
    (horder : removed ++ kept = byAge TreeUsage.modified (tree.usages unixEpoch)) :
    ((tree.keep fun path => path ∉ removed.map TreeUsage.path).usages unixEpoch).Perm kept := by
  have hperm := perm_byAge TreeUsage.modified (tree.usages unixEpoch)
  rw [← horder] at hperm
  have hnodup : ((removed ++ kept).map TreeUsage.path).Nodup :=
    (hperm.map TreeUsage.path).nodup_iff.mpr nodup_usages
  rw [List.map_append, List.nodup_append] at hnodup
  have hremoved : (removed.filter fun u => decide (u.path ∉ removed.map TreeUsage.path)) = [] := by
    apply List.filter_eq_nil_iff.mpr
    intro u hu
    simpa using ⟨u, hu, rfl⟩
  have hkept : (kept.filter fun u => decide (u.path ∉ removed.map TreeUsage.path)) = kept := by
    apply List.filter_eq_self.mpr
    intro u hu
    have hpath := List.mem_map_of_mem (f := TreeUsage.path) hu
    exact decide_eq_true fun hmem => hnodup.2.2 _ hmem _ hpath rfl
  rw [usages_keep]
  have hfilter := hperm.symm.filter fun u => decide (u.path ∉ removed.map TreeUsage.path)
  rwa [List.filter_append, hremoved, hkept, List.nil_append] at hfilter

/-- The newest entry comes last. -/
theorem eq_nil_of_newest {before after : List TreeUsage} {u : TreeUsage}
    (horder : before ++ u :: after = byAge TreeUsage.modified (tree.usages unixEpoch))
    (hnewest : ∀ v ∈ tree.usages unixEpoch, v ≠ u → v.modified < u.modified) : after = [] := by
  apply List.eq_nil_iff_forall_not_mem.mpr
  intro v hv
  have hperm := perm_byAge TreeUsage.modified (tree.usages unixEpoch)
  have hsorted : (byAge TreeUsage.modified (tree.usages unixEpoch)).Pairwise
      fun a b => a.modified ≤ b.modified := List.pairwise_insertionSort _ _
  rw [← horder] at hperm hsorted
  have hnodup : (before ++ u :: after).Nodup :=
    hperm.nodup_iff.mpr (List.Nodup.of_map TreeUsage.path nodup_usages)
  have hle : u.modified ≤ v.modified :=
    (List.pairwise_cons.mp (List.pairwise_append.mp hsorted).2.1).1 v hv
  have hne : v ≠ u := by
    rintro rfl
    exact (List.nodup_cons.mp (List.nodup_append.mp hnodup).2.1).1 hv
  have hmem : v ∈ tree.usages unixEpoch := hperm.mem_iff.mp (by simp [hv])
  exact absurd (hnewest v hmem hne) (not_lt.mpr hle)

/-- Eviction removes the shortest part of the entries, oldest first, that brings
the cache under its budget, and nothing else. -/
theorem evictCompiledCache_evicts
    (htotal : total TreeUsage.size (tree.usages unixEpoch) < 2 ^ 64) :
    ∃ removed kept, Evicts unixEpoch config.maxBytes tree
      (tree.evictCompiledCache unixEpoch config) removed kept := by
  set order := byAge TreeUsage.modified (tree.usages unixEpoch) with horder
  set removed := evicted TreeUsage.size config.maxBytes order with hremoved
  have hperm : order.Perm (tree.usages unixEpoch) := perm_byAge _ _
  obtain ⟨kept, happend⟩ : removed <+: order := evicted_prefix _ _ _
  have hdrop : order.drop removed.length = kept := by
    rw [← happend, List.drop_left]
  have htree : tree.evictCompiledCache unixEpoch config =
      tree.keep fun path => path ∉ removed.map TreeUsage.path := by
    rw [evictCompiledCache, Nat.mod_eq_of_lt htotal, ← total_perm TreeUsage.size hperm,
      evictLoop_eq]
  have hkept : ((tree.evictCompiledCache unixEpoch config).usages unixEpoch).Perm kept :=
    htree ▸ perm_kept happend
  refine ⟨removed, kept, happend, htree, hkept, ?_, fun k hk => length_evicted_le hk,
    fun u hu v hv => ?_, fun hfits => ?_, fun u hu hsize hnewest => ?_,
    fun e he hartifact => ?_⟩
  · rw [total_perm TreeUsage.size hkept, ← hdrop]
    exact total_drop_evicted _ _ _
  · have hsorted : order.Pairwise fun a b => a.modified ≤ b.modified :=
      List.pairwise_insertionSort _ _
    rw [← happend] at hsorted
    exact (List.pairwise_append.mp hsorted).2.2 u hu v (hkept.mem_iff.mp hv)
  · have hnone : removed = [] := by
      apply List.eq_nil_of_length_eq_zero
      apply Nat.le_zero.mp
      apply length_evicted_le
      rwa [List.drop_zero, total_perm TreeUsage.size hperm]
    rw [htree, hnone]
    simp [keep_true]
  · apply hkept.mem_iff.mpr
    have hmem : u ∈ removed ++ kept := happend ▸ hperm.mem_iff.mpr hu
    refine (List.mem_append.mp hmem).resolve_left fun hgone => ?_
    -- Nothing comes after the newest entry, so it would be kept if it were reached.
    obtain ⟨before, after, hsplit⟩ := List.append_of_mem hgone
    have hlast : before ++ u :: (after ++ kept) = order := by
      rw [← happend, hsplit, List.append_assoc, List.cons_append]
    have hnil := eq_nil_of_newest hlast hnewest
    have hle : removed.length ≤ before.length := by
      apply length_evicted_le
      rw [← hlast, hnil, List.drop_left]
      simpa using hsize
    rw [hsplit, List.length_append, List.length_cons] at hle
    omega
  · rw [htree, dirs_keep, List.mem_filter]
    refine ⟨he, decide_eq_true fun hgone => ?_⟩
    obtain ⟨u, hu, hpath⟩ := List.mem_map.mp hgone
    have hmem := hperm.mem_iff.mp (happend ▸ List.mem_append_left kept hu)
    obtain ⟨f, metadata, hf, hm, -⟩ := mem_usages.mp hmem
    rw [hpath] at hf
    have heq : e = (e.1, f) := List.inj_on_of_nodup_map nodup_dirs he hf rfl
    rw [congrArg Prod.snd heq, hm] at hartifact
    cases hartifact

/-! ### The list of a tree -/

end CacheTree

def EntryPath.names (path : EntryPath) : TreePath :=
  (.text path.hexPrefix, .text path.hex, .text path.fingerprint)

theorem EntryPath.names_injective : Function.Injective EntryPath.names := by
  rintro ⟨p, h, f⟩ ⟨q, k, g⟩ heq
  cases heq
  rfl

def EntryDir.node (e : EntryDir) : TreePath × EntryNode :=
  (e.path.names, ⟨e.artifact.map fun file => .file (some file.modified) file.bytes, e.metadata⟩)

namespace CacheTree

def Describes (dir : CacheDir) (tree : CacheTree) : Prop := tree.dirs = dir.map EntryDir.node

/-- Eviction of a tree is eviction of the list that describes it. -/
theorem Describes.evict {dir : CacheDir} (h : Describes dir tree)
    (htotal : total TreeUsage.size (tree.usages unixEpoch) < 2 ^ 64) :
    Describes (Runtime.evictCompiledCache config dir)
      (tree.evictCompiledCache unixEpoch config) := by
  let ofUsage (u : CacheUsage) : TreeUsage := ⟨u.modified, u.size, u.path.names⟩
  have husages : tree.usages unixEpoch = dir.usages.map ofUsage := by
    rw [usages, h, List.filterMap_map, CacheDir.usages, List.map_filterMap]
    congr 1
    funext e
    simp only [Function.comp_apply, usage?, EntryDir.node, EntryDir.usage?, Option.map_map]
    rfl
  have hevicted : evicted TreeUsage.size config.maxBytes
      (byAge TreeUsage.modified (tree.usages unixEpoch)) =
        (evicted CacheUsage.size config.maxBytes (byAge CacheUsage.modified dir.usages)).map
          ofUsage := by
    rw [husages, byAge_map, evicted_map]
  rw [Describes, evictCompiledCache, Nat.mod_eq_of_lt htotal,
    ← total_perm TreeUsage.size (perm_byAge TreeUsage.modified _), evictLoop_eq, hevicted,
    dirs_keep, h, evictCompiledCache_eq, List.filter_map, List.map_map]
  congr 1
  apply List.filter_congr
  intro e _
  have hpaths : TreeUsage.path ∘ ofUsage = EntryPath.names ∘ CacheUsage.path := rfl
  have hmem (us : List CacheUsage) : e.path.names ∈ us.map (TreeUsage.path ∘ ofUsage) ↔
      e.path ∈ us.map CacheUsage.path := by
    rw [hpaths, ← List.map_map, List.mem_map_of_injective EntryPath.names_injective]
  exact decide_eq_decide.mpr (not_congr (hmem _))

/-! ### A cache with an entry too many -/

section Demo

/-- Two digests below two prefixes. The oldest of the three entries is `v2-b`,
`v2-c` was never finished, and `lost+found` is no directory. -/
def crowdedCache : CacheTree where
  prefixes := some
    { entries := [
        (.text "ab".toList, some
          { entries := [(.text "ab01".toList, some
              { entries := [
                  (.text "v2-a".toList, ⟨some (.file (some 20) [1, 2, 3]), some []⟩),
                  (.text "v2-b".toList, ⟨some (.file (some 10) [4, 5]), some []⟩),
                  (.text "v2-c".toList, ⟨none, none⟩)]
                nodup := by decide })]
            nodup := by decide }),
        (.text "cd".toList, some
          { entries := [(.text "cd02".toList, some
              { entries := [(.text "v2-a".toList, ⟨some (.file (some 20) [6, 7]), some []⟩)]
                nodup := by decide })]
            nodup := by decide }),
        (.text "lost+found".toList, none)]
      nodup := by decide }

def sixBytes : CompiledCacheConfig := ⟨"/var/cache/pit", 6⟩

/-- The seven bytes are one too many, and the oldest entry goes. -/
theorem evictCompiledCache_evicts_crowdedCache :
    (∃ removed kept, Evicts 0 sixBytes.maxBytes crowdedCache
      (crowdedCache.evictCompiledCache 0 sixBytes) removed kept) ∧
      ((crowdedCache.evictCompiledCache 0 sixBytes).usages 0).map TreeUsage.size = [3, 2] := by
  have htotal : total TreeUsage.size (crowdedCache.usages 0) < 2 ^ 64 := by decide +kernel
  exact ⟨evictCompiledCache_evicts htotal, by decide +kernel⟩

end Demo

end CacheTree

end PitBox.Runtime
