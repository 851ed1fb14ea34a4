import PitBox.Runtime.CacheHistory

/-!
# Reuse of a shared cache directory

What a history of preparations leaves in its cache directory. Publishing ends
with an eviction and every other step only removes entries, so the directory
stays within the largest budget it was ever given. While the budgets leave room
for what is new, no entry is evicted: an artifact is compiled at most once for
each fingerprint, whoever prepares it, and every later lookup restores it.
-/

namespace PitBox.Runtime

open Transition Table Eviction

variable {ι M C : Type}

/-! ### Within the budget -/

namespace CacheDir

def usedBytes (dir : CacheDir) : ℕ := total CacheUsage.size dir.usages

theorem usedBytes_le_of_sublist {dir dir' : CacheDir} (h : dir.Sublist dir') :
    dir.usedBytes ≤ dir'.usedBytes :=
  total_le_of_sublist _ (h.filterMap _)

theorem withoutInvalid_sublist (dir : CacheDir) (path : EntryPath) :
    (dir.withoutInvalid path).Sublist dir := by
  unfold withoutInvalid
  split_ifs
  · exact List.filter_sublist
  · exact List.Sublist.refl dir

end CacheDir

/-- What eviction leaves is within the budget. -/
theorem usedBytes_evictCompiledCache_le (config : CompiledCacheConfig) (dir : CacheDir) :
    (evictCompiledCache config dir).usedBytes ≤ config.maxBytes := by
  set sorted := byAge CacheUsage.modified dir.usages with hsorted
  set gone := evicted CacheUsage.size config.maxBytes sorted with hgone
  have husages : (evictCompiledCache config dir).usages =
      dir.usages.filter fun u => u.path ∉ gone.map CacheUsage.path := by
    rw [evictCompiledCache_eq, ← hsorted, ← hgone]
    unfold CacheDir.usages
    rw [List.filter_filterMap, List.filterMap_filter]
    apply List.filterMap_congr
    intro e _
    cases he : e.artifact <;> simp [EntryDir.usage?, he, Option.filter]
  have hprefix : gone <+: sorted := evicted_prefix _ _ _
  have hsplit : sorted = gone ++ sorted.drop gone.length :=
    (List.prefix_iff_eq_append.mp hprefix).symm
  have hnone : gone.filter (fun u => u.path ∉ gone.map CacheUsage.path) = [] := by
    apply List.filter_eq_nil_iff.mpr
    intro u hu
    simpa using ⟨u, hu, rfl⟩
  have hperm := (perm_byAge CacheUsage.modified dir.usages).filter
    fun u => u.path ∉ gone.map CacheUsage.path
  calc (evictCompiledCache config dir).usedBytes
      = total CacheUsage.size (sorted.filter fun u => u.path ∉ gone.map CacheUsage.path) := by
        rw [CacheDir.usedBytes, husages, total_perm _ hperm]
    _ = total CacheUsage.size ((sorted.drop gone.length).filter
          fun u => u.path ∉ gone.map CacheUsage.path) := by
        conv_lhs => rw [hsplit, List.filter_append, hnone, List.nil_append]
    _ ≤ total CacheUsage.size (sorted.drop gone.length) := total_le_of_sublist _ List.filter_sublist
    _ ≤ config.maxBytes := total_drop_evicted _ _ _

theorem compiledCacheEntry_usedBytes_le (host : Host) (config : CompiledCacheConfig)
    (engine : Wasmtime M C) (fingerprint digest : Text) (source : Bytes)
    (format : ArtifactFormat) (world : String) (publication : Publication) (dir : CacheDir) :
    (compiledCacheEntry host config engine fingerprint digest source format world publication
      dir).dir.usedBytes ≤ max dir.usedBytes config.maxBytes := by
  unfold compiledCacheEntry
  split_ifs
  · exact le_max_left _ _
  · have hleft := CacheDir.usedBytes_le_of_sublist
      (dir.withoutInvalid_sublist (cacheEntryPaths digest fingerprint))
    cases engine.precompile format source with
    | error error => exact hleft.trans (le_max_left _ _)
    | ok out => exact (usedBytes_evictCompiledCache_le config _).trans (le_max_right _ _)

/-- The directory that a restore leaves is the one left by its only lookup, or by
a second one after the entry was removed. -/
theorem restoreComponent_dir (host : Host) (config : CompiledCacheConfig)
    (runtime : PitRuntime M C) (digest : Text) (source : Bytes) (format : ArtifactFormat)
    (world : String) (publication : Publication) (dir : CacheDir) :
    let lookup := compiledCacheEntry host config runtime.httpEngine
      runtime.httpComponentFingerprint digest source format world publication
    let left := (restoreComponent host config runtime digest source format world publication
      dir).dir
    left = (lookup dir).dir ∨ left = (lookup ((lookup dir).dir.remove
      (cacheEntryPaths digest runtime.httpComponentFingerprint))).dir := by
  intro lookup left
  have hleft : left = (restoreComponent host config runtime digest source format world publication
    dir).dir := rfl
  clear_value left
  simp only [restoreComponent] at hleft
  split at hleft
  case h_1 hfirst => exact .inl (hleft.trans (congrArg CacheOutcome.dir hfirst).symm)
  case h_2 first _ _ hfirst =>
    have hdir : (lookup dir).dir = first := congrArg CacheOutcome.dir hfirst
    rw [hdir]
    split at hleft
    case h_1 | h_2 => exact .inl hleft
    case h_3 =>
      split at hleft
      case h_2 => exact .inl hleft
      case h_1 =>
        split at hleft
        case h_1 hsecond => exact .inr (hleft.trans (congrArg CacheOutcome.dir hsecond).symm)
        case h_2 hsecond =>
          split at hleft <;> exact .inr (hleft.trans (congrArg CacheOutcome.dir hsecond).symm)

theorem restoreComponent_usedBytes_le (host : Host) (config : CompiledCacheConfig)
    (runtime : PitRuntime M C) (digest : Text) (source : Bytes) (format : ArtifactFormat)
    (world : String) (publication : Publication) (dir : CacheDir) :
    (restoreComponent host config runtime digest source format world publication
      dir).dir.usedBytes ≤ max dir.usedBytes config.maxBytes := by
  have hlookup (dir : CacheDir) := compiledCacheEntry_usedBytes_le host config runtime.httpEngine
    runtime.httpComponentFingerprint digest source format world publication dir
  have hremoved (dir : CacheDir) (path : EntryPath) :
      (dir.remove path).usedBytes ≤ dir.usedBytes :=
    CacheDir.usedBytes_le_of_sublist List.filter_sublist
  rcases restoreComponent_dir host config runtime digest source format world publication dir
    with h | h <;> rw [h]
  · exact hlookup dir
  · have hsecond := hlookup ((compiledCacheEntry host config runtime.httpEngine
      runtime.httpComponentFingerprint digest source format world publication dir).dir.remove
        (cacheEntryPaths digest runtime.httpComponentFingerprint))
    have hfirst := hlookup dir
    have hgone := hremoved (compiledCacheEntry host config runtime.httpEngine
      runtime.httpComponentFingerprint digest source format world publication dir).dir
        (cacheEntryPaths digest runtime.httpComponentFingerprint)
    omega

/-- A preparation touches the directory only by restoring a component. -/
theorem prepareHttpCached_dir (host : Host) (runtime : PitRuntime M C) (files : Files)
    (artifact : WasmArtifact) (cache : CompiledCacheConfig) (publication : Publication)
    (dir : CacheDir) :
    let p := prepareHttpCached host runtime files artifact cache publication dir
    (p.dir = dir ∧ p.published = []) ∨
      ∃ bytes, readArtifactBytes files artifact.source = .ok bytes ∧
        let o := restoreComponent host cache runtime (artifact.digestOf host bytes) bytes
          .component "wasi:http/proxy" publication dir
        p.dir = o.dir ∧ p.published = o.published := by
  intro p
  cases hread : readArtifactBytes files artifact.source with
  | error error =>
    have hp := History.prepareHttpCached_unread host runtime hread cache publication dir
    exact .inl ⟨congrArg Preparation.dir hp, congrArg Preparation.published hp⟩
  | ok bytes =>
    simp only [p, prepareHttpCached, prepareWithWorld, hread, Option.getD_some]
    cases host.detectFormat bytes with
    | error error => exact .inl ⟨rfl, rfl⟩
    | ok format =>
      cases format with
      | coreModule => exact .inl ⟨rfl, rfl⟩
      | component =>
        refine .inr ⟨bytes, rfl, ?_⟩
        rcases restoreComponent host cache runtime (artifact.digestOf host bytes) bytes
          .component "wasi:http/proxy" publication dir with ⟨left, published, error | served⟩ <;>
          exact ⟨rfl, rfl⟩

theorem prepareHttpCached_usedBytes_le (host : Host) (runtime : PitRuntime M C) (files : Files)
    (artifact : WasmArtifact) (cache : CompiledCacheConfig) (publication : Publication)
    (dir : CacheDir) :
    (prepareHttpCached host runtime files artifact cache publication dir).dir.usedBytes ≤
      max dir.usedBytes cache.maxBytes := by
  rcases prepareHttpCached_dir host runtime files artifact cache publication dir with
    ⟨hdir, -⟩ | ⟨bytes, -, hdir, -⟩ <;> rw [hdir]
  · exact le_max_left _ _
  · exact restoreComponent_usedBytes_le host cache runtime _ bytes _ _ publication dir

def Event.maxBytes : Event ι → ℕ
  | .prepare _ _ cache _ => cache.maxBytes
  | _ => 0

namespace History

variable {host : Host} {runtimes : ι → PitRuntime M C} {s t : History ι M C}

theorem step_usedBytes_le {event : Event ι} (h : s.step host runtimes event = some t) :
    t.dir.usedBytes ≤ max s.dir.usedBytes event.maxBytes := by
  cases event with
  | newFromPath path | newFromBytes bytes | changeFile path node =>
    obtain rfl := Option.some.inj h
    exact le_max_left _ _
  | prepare i r cache publication =>
    obtain ⟨artifact, -, rfl⟩ := Option.map_eq_some_iff.mp h
    exact prepareHttpCached_usedBytes_le _ _ _ _ _ _ _

/-- The directory never holds more than the largest budget of a preparation. -/
theorem exec_usedBytes_le {files : Files} {events : List (Event ι)} {maxBytes : ℕ}
    (hbudget : ∀ event ∈ events, event.maxBytes ≤ maxBytes)
    (h : exec (step host runtimes) (initial files) events = some s) :
    s.dir.usedBytes ≤ maxBytes := by
  have hstep (s : History ι M C) (event : Event ι) (t : History ι M C)
      (hs : s.dir.usedBytes ≤ maxBytes) (hevent : event.maxBytes ≤ maxBytes)
      (h : s.step host runtimes event = some t) : t.dir.usedBytes ≤ maxBytes :=
    (step_usedBytes_le h).trans (max_le hs hevent)
  exact exec_invariant hstep (Nat.zero_le _) (along_of_forall (fun _ => hbudget) _) h

end History

/-! ### Compiled once -/

def PublishedEntry.path (p : PublishedEntry) : EntryPath := cacheEntryPaths p.digest p.fingerprint

/-- What a restored entry relies on besides: the compiled output of the sources
of `K` is not empty and belongs to a component, and the metadata written for it
is read back by the JSON codec. -/
structure Restorable (host : Host) (runtimes : ι → PitRuntime M C) (K : List Bytes) : Prop where
  componentNew : ∀ r, ∀ source ∈ K, ∀ out,
    (runtimes r).httpEngine.precompile .component source = .ok out →
      out ≠ [] ∧ ∃ component, (runtimes r).httpEngine.componentNew source = .ok component
  roundTrip : ∀ r, ∀ source ∈ K, ∀ out,
    (runtimes r).httpEngine.precompile .component source = .ok out →
      let metadata := publishedMetadata host (runtimes r).httpComponentFingerprint
        (artifactDigest host source) source .component "wasi:http/proxy" out.length
      host.fromSlice (host.toVecPretty metadata) = some metadata

/-- An entry as it was published for a source. -/
def Holds (host : Host) (runtimes : ι → PitRuntime M C) (K : List Bytes) (dir : CacheDir)
    (p : PublishedEntry) : Prop :=
  ∃ r, ∃ out modified, p.source ∈ K ∧ p.digest = artifactDigest host p.source ∧
    p.fingerprint = (runtimes r).httpComponentFingerprint ∧
    (runtimes r).httpEngine.precompile .component p.source = .ok out ∧
    dir.find p.path = some ⟨p.path, some ⟨modified, out⟩, some (host.toVecPretty
      (publishedMetadata host p.fingerprint p.digest p.source .component "wasi:http/proxy"
        out.length))⟩

section Reuse

variable {host : Host} {runtimes : ι → PitRuntime M C} {K : List Bytes} {dir : CacheDir}

/-- An entry that is held is restored for its source. -/
theorem Holds.restored (hK : Trusted host runtimes K) (hR : Restorable host runtimes K)
    {p : PublishedEntry} (hp : Holds host runtimes K dir p) {r : ι}
    (hr : (runtimes r).httpComponentFingerprint = p.fingerprint) :
    ∃ component, (runtimes r).httpEngine.componentNew p.source = .ok component ∧
      restored host (runtimes r) p.digest p.source "wasi:http/proxy" dir = some component := by
  obtain ⟨r', out, modified, hsource, hdigest, hfingerprint, hout, hfind⟩ := hp
  have hengine := hK.engine_eq r r' (hr.trans hfingerprint)
  rw [← hengine] at hout
  obtain ⟨hne, component, hcomponent⟩ := hR.componentNew r p.source hsource out hout
  have hmetadata := hR.roundTrip r p.source hsource out hout
  refine ⟨component, hcomponent, ?_⟩
  rw [PublishedEntry.path, hdigest, ← hr] at hfind
  have hread : dir.readArtifact (cacheEntryPaths (artifactDigest host p.source)
      (runtimes r).httpComponentFingerprint) = some out := by
    simp [CacheDir.readArtifact, hfind]
  rw [hdigest]
  apply restored_eq_some.mpr
  constructor
  · simp only [entryValid, CacheDir.readMetadata, hread, hfind, Option.bind_some, hmetadata]
    simp [metadataValid, publishedMetadata, hne]
  · simp [CacheDir.stored, hread, (hK.faithful r).deserialize_precompile _ _ hout, hcomponent,
      Except.toOption]

theorem CacheDir.find_write_of_ne {path path' : EntryPath} (h : path' ≠ path)
    {publication : Publication} {artifact metadata : Bytes} :
    (dir.write publication path artifact metadata).find path' = dir.find path' := by
  have hnew : ((⟨path, some ⟨publication.now, artifact⟩, some metadata⟩ : EntryDir).path ==
      path') = false := by simpa using h.symm
  have hothers : (dir.remove path).find path' = dir.find path' := by
    simp [CacheDir.remove, CacheDir.find_filter (· != path), h]
  rw [← hothers, CacheDir.find, CacheDir.write, List.find?_append, List.find?_cons, hnew,
    ← List.find?_append, List.take_append_drop, CacheDir.find]

theorem CacheDir.usedBytes_write {path : EntryPath} {publication : Publication}
    {artifact metadata : Bytes} :
    (dir.write publication path artifact metadata).usedBytes =
      (dir.remove path).usedBytes + artifact.length := by
  have hothers : (dir.remove path).usedBytes =
      total CacheUsage.size (usages ((dir.remove path).take publication.place)) +
        total CacheUsage.size (usages ((dir.remove path).drop publication.place)) := by
    rw [← total_append, usages, usages, ← List.filterMap_append, List.take_append_drop]
    rfl
  rw [usedBytes, usages_write, total_append, total_cons, hothers]
  dsimp only
  omega

theorem evictCompiledCache_of_fits {config : CompiledCacheConfig}
    (h : dir.usedBytes ≤ config.maxBytes) : evictCompiledCache config dir = dir := by
  simp only [evictCompiledCache]
  cases byAge CacheUsage.modified dir.usages with
  | nil => rfl
  | cons u us => exact if_pos h

/-- The publications of a history that are all still in its directory, one for
each path. -/
structure Reused (host : Host) (runtimes : ι → PitRuntime M C) (K : List Bytes)
    (published : List PublishedEntry) (dir : CacheDir) : Prop where
  holds : ∀ p ∈ published, Holds host runtimes K dir p
  covered : ∀ e ∈ dir, ∃ p ∈ published, e.path = p.path
  nodup : (published.map PublishedEntry.path).Nodup

theorem path_eq_iff {a b : Bytes} {f g : Text} :
    cacheEntryPaths (artifactDigest host a) f = cacheEntryPaths (artifactDigest host b) g ↔
      host.sha256 a = host.sha256 b ∧ f = g := by
  constructor
  · intro h
    obtain rfl : f = g := congrArg EntryPath.fingerprint h
    exact ⟨cacheEntryPaths_injective h, rfl⟩
  · rintro ⟨h, rfl⟩
    rw [artifactDigest, artifactDigest, h]

variable {published : List PublishedEntry}

/-- An entry whose path is new joins the others. -/
theorem Reused.push (h : Reused host runtimes K published dir) {r : ι} {bytes out : Bytes}
    (hbytes : bytes ∈ K)
    (hnew : cacheEntryPaths (artifactDigest host bytes) (runtimes r).httpComponentFingerprint ∉
      published.map PublishedEntry.path)
    (hout : (runtimes r).httpEngine.precompile .component bytes = .ok out)
    (publication : Publication) :
    Reused host runtimes K
      (published ++ [⟨artifactDigest host bytes, (runtimes r).httpComponentFingerprint, bytes⟩])
      (dir.write publication (cacheEntryPaths (artifactDigest host bytes)
        (runtimes r).httpComponentFingerprint) out (host.toVecPretty (publishedMetadata host
          (runtimes r).httpComponentFingerprint (artifactDigest host bytes) bytes .component
            "wasi:http/proxy" out.length))) where
  holds := by
    intro p hp
    rcases List.mem_append.mp hp with hp | hp
    · obtain ⟨r', out', modified, hsource, hdigest, hfingerprint, hout', hfind⟩ := h.holds p hp
      refine ⟨r', out', modified, hsource, hdigest, hfingerprint, hout', ?_⟩
      rw [CacheDir.find_write_of_ne, hfind]
      exact fun heq => hnew (List.mem_map.mpr ⟨p, hp, heq⟩)
    · obtain rfl := List.mem_singleton.mp hp
      exact ⟨r, out, publication.now, hbytes, rfl, rfl, hout, CacheDir.find_write⟩
  covered := by
    intro e he
    rcases CacheDir.mem_write he with he | rfl
    · obtain ⟨p, hp, hep⟩ := h.covered e he
      exact ⟨p, List.mem_append_left _ hp, hep⟩
    · exact ⟨_, List.mem_append_right _ (List.mem_singleton.mpr rfl), rfl⟩
  nodup := by
    rw [List.map_append, List.map_singleton, ← List.concat_eq_append]
    exact h.nodup.concat hnew

/-- A lookup restores what was published, and publishes what was not. -/
theorem Reused.restoreComponent (hK : Trusted host runtimes K) (hR : Restorable host runtimes K)
    (h : Reused host runtimes K published dir) {r : ι} {bytes : Bytes} (hbytes : bytes ∈ K)
    (cache : CompiledCacheConfig) (publication : Publication)
    (hroom : dir.find (cacheEntryPaths (artifactDigest host bytes)
        (runtimes r).httpComponentFingerprint) = none →
      ∀ out, (runtimes r).httpEngine.precompile .component bytes = .ok out →
        dir.usedBytes + out.length ≤ cache.maxBytes) :
    let o := restoreComponent host cache (runtimes r) (artifactDigest host bytes) bytes .component
      "wasi:http/proxy" publication dir
    Reused host runtimes K (published ++ o.published) o.dir := by
  intro o
  set path := cacheEntryPaths (artifactDigest host bytes) (runtimes r).httpComponentFingerprint
    with hpath
  by_cases hmem : path ∈ published.map PublishedEntry.path
  · obtain ⟨p, hp, hpp⟩ := List.mem_map.mp hmem
    obtain ⟨r', out, modified, hsource, hdigest, hfingerprint, -⟩ := h.holds p hp
    rw [PublishedEntry.path, hdigest, hpath, path_eq_iff] at hpp
    have hsame : p.source = bytes := hK.sha256_injOn _ hsource _ hbytes hpp.1
    obtain ⟨component, -, hrestored⟩ := (h.holds p hp).restored hK hR hpp.2.symm
    rw [hdigest, hsame] at hrestored
    have ho : o = ⟨dir, [], .ok (component, ⟨.warm, .warmRestored⟩)⟩ :=
      restoreComponent_restored (hK.faithful r) hrestored
    rw [ho, List.append_nil]
    exact h
  · have hfree : ∀ e ∈ dir, e.path ≠ path := by
      intro e he heq
      obtain ⟨p, hp, hep⟩ := h.covered e he
      exact hmem (List.mem_map.mpr ⟨p, hp, hep ▸ heq⟩)
    have hfind : dir.find path = none := List.find?_eq_none.mpr fun e he => by
      simpa using hfree e he
    have hremove : dir.remove path = dir := List.filter_eq_self.mpr fun e he => by
      simpa using hfree e he
    have hinvalid : ¬ entryValid host (runtimes r).httpComponentFingerprint
        (artifactDigest host bytes) bytes .component "wasi:http/proxy" dir := by
      simp [entryValid, CacheDir.readMetadata, ← hpath, hfind]
    cases hout : (runtimes r).httpEngine.precompile .component bytes with
    | error error =>
      have hkept : dir.withoutInvalid path = dir := by
        simp [CacheDir.withoutInvalid, CacheDir.readMetadata, hfind]
      have ho : o = ⟨dir, [], .error error⟩ := by
        simp only [o, PitBox.Runtime.restoreComponent, compiledCacheEntry_error hinvalid hout,
          ← hpath, hkept]
      rw [ho, List.append_nil]
      exact h
    | ok out =>
      obtain ⟨result, ho, -⟩ := restoreComponent_published cache publication (hK.faithful r)
        (if_neg hinvalid) hout
      rw [publishedDir, evictCompiledCache_of_fits
        (by rw [CacheDir.usedBytes_write, ← hpath, hremove]; exact hroom hfind out hout)] at ho
      simp only [o, ho]
      exact h.push hbytes hmem hout publication

end Reuse

namespace History

variable {host : Host} {runtimes : ι → PitRuntime M C} {K : List Bytes} {s t : History ι M C}

/-- A preparation whose entry is not there finds room for what it compiles. -/
def HasRoom (host : Host) (runtimes : ι → PitRuntime M C) (s : History ι M C) : Event ι → Prop
  | .prepare i r cache _ => ∀ artifact ∈ s.artifacts[i]?,
      ∀ bytes ∈ (readArtifactBytes s.files artifact.source).toOption,
        s.dir.find (cacheEntryPaths (artifactDigest host bytes)
            (runtimes r).httpComponentFingerprint) = none →
          ∀ out ∈ ((runtimes r).httpEngine.precompile .component bytes).toOption,
            s.dir.usedBytes + out.length ≤ cache.maxBytes
  | _ => True

instance (s : History ι M C) : ∀ event, Decidable (HasRoom host runtimes s event)
  | .newFromPath _ => isTrue trivial
  | .newFromBytes _ => isTrue trivial
  | .changeFile _ _ => isTrue trivial
  | .prepare i r cache _ => inferInstanceAs (Decidable (∀ artifact ∈ s.artifacts[i]?,
      ∀ bytes ∈ (readArtifactBytes s.files artifact.source).toOption,
        s.dir.find (cacheEntryPaths (artifactDigest host bytes)
            (runtimes r).httpComponentFingerprint) = none →
          ∀ out ∈ ((runtimes r).httpEngine.precompile .component bytes).toOption,
            s.dir.usedBytes + out.length ≤ cache.maxBytes))

theorem step_reused (hK : Trusted host runtimes K) (hR : Restorable host runtimes K)
    (h : Reused host runtimes K s.published s.dir) {event : Event ι}
    (hevent : MemoCurrent host K s event ∧ HasRoom host runtimes s event)
    (hstep : s.step host runtimes event = some t) :
    Reused host runtimes K t.published t.dir := by
  cases event with
  | newFromPath path | newFromBytes bytes | changeFile path node =>
    obtain rfl := Option.some.inj hstep
    exact h
  | prepare i r cache publication =>
    obtain ⟨artifact, hartifact, rfl⟩ := Option.map_eq_some_iff.mp hstep
    obtain ⟨hmemo, hroom⟩ := hevent
    simp only [prepareArtifact]
    rcases prepareHttpCached_dir host (runtimes r) s.files artifact cache publication s.dir with
      ⟨hdir, hpublished⟩ | ⟨bytes, hread, hdir, hpublished⟩
    · rw [hdir, hpublished, List.append_nil]
      exact h
    · have hbytes : bytes ∈ (readArtifactBytes s.files artifact.source).toOption := by
        simp [hread, Except.toOption]
      obtain ⟨hmem, hcurrent⟩ := hmemo artifact hartifact bytes hbytes
      have hdigest : artifact.digestOf host bytes = artifactDigest host bytes := by
        unfold WasmArtifact.digestOf
        cases hd : artifact.digest with
        | none => rfl
        | some digest => exact hcurrent digest hd
      rw [hdir, hpublished, hdigest]
      apply h.restoreComponent hK hR hmem
      intro hfind out hout
      exact hroom artifact hartifact bytes hbytes hfind out (by simp [hout, Except.toOption])

/-- While there is room, every source is compiled at most once for a fingerprint,
and a lookup of what was compiled restores it. -/
theorem exec_compiledOnce (hK : Trusted host runtimes K) (hR : Restorable host runtimes K)
    {files : Files} {events : List (Event ι)}
    (halong : Along (step host runtimes)
      (fun s event => MemoCurrent host K s event ∧ HasRoom host runtimes s event)
      (initial files) events)
    (h : exec (step host runtimes) (initial files) events = some s) :
    (s.published.map fun p => (p.source, p.fingerprint)).Nodup ∧
      ∀ p ∈ s.published, ∀ r, (runtimes r).httpComponentFingerprint = p.fingerprint →
        ∃ component, (runtimes r).httpEngine.componentNew p.source = .ok component ∧
          ∀ cache publication, restoreComponent host cache (runtimes r) p.digest p.source
              .component "wasi:http/proxy" publication s.dir =
            ⟨s.dir, [], .ok (component, ⟨.warm, .warmRestored⟩)⟩ := by
  have hreused : Reused host runtimes K s.published s.dir :=
    exec_invariant (I := fun s => Reused host runtimes K s.published s.dir)
      (fun _ _ _ hs hevent hstep => step_reused hK hR hs hevent hstep)
      ⟨by simp [initial], by simp [initial], by simp [initial]⟩ halong h
  constructor
  · apply List.Nodup.of_map (fun key => cacheEntryPaths (artifactDigest host key.1) key.2)
    have hpaths : (s.published.map fun p => (p.source, p.fingerprint)).map
        (fun key => cacheEntryPaths (artifactDigest host key.1) key.2) =
          s.published.map PublishedEntry.path := by
      rw [List.map_map]
      apply List.map_congr_left
      intro p hp
      obtain ⟨_, _, _, _, hdigest, -⟩ := hreused.holds p hp
      simp [PublishedEntry.path, hdigest]
    exact hpaths ▸ hreused.nodup
  · intro p hp r hr
    obtain ⟨component, hcomponent, hrestored⟩ := (hreused.holds p hp).restored hK hR hr
    exact ⟨component, hcomponent, fun _ _ => restoreComponent_restored (hK.faithful r) hrestored⟩

end History

section Demo

theorem restorable_app : Restorable linuxHost appRuntime [componentA, componentB] where
  componentNew _ source _ out hout := by
    obtain rfl := Except.ok.inj hout
    exact ⟨by simp [elfMagic], source, rfl⟩
  roundTrip := by
    rintro ⟨⟩ source hsource out hout
    obtain rfl := Except.ok.inj hout
    revert source
    decide +kernel

/-- Two components are prepared three times. -/
theorem exec_compiledOnce_rebuiltEvents :
    ∃ s, exec (History.step linuxHost appRuntime) (History.initial appFiles) rebuiltEvents =
        some s ∧
      s.published.map PublishedEntry.source = [componentA, componentB] ∧
      (s.published.map fun p => (p.source, p.fingerprint)).Nodup := by
  have hrun : (exec (History.step linuxHost appRuntime) (History.initial appFiles)
      rebuiltEvents).map (·.published.map PublishedEntry.source) =
        some [componentA, componentB] := by decide +kernel
  obtain ⟨s, hs, hpublished⟩ := Option.map_eq_some_iff.mp hrun
  exact ⟨s, hs, hpublished,
    (History.exec_compiledOnce trusted_app restorable_app (by decide +kernel) hs).1⟩

def crowdedCache : CompiledCacheConfig := ⟨"/var/cache/pit", 20⟩

def crowdedEvents : List (Event Unit) :=
  [.newFromBytes componentA, .newFromBytes componentB, .prepare 0 () crowdedCache ⟨1, 0⟩,
    .prepare 1 () crowdedCache ⟨2, 0⟩, .prepare 0 () crowdedCache ⟨3, 1⟩]

/-- The first component is compiled again, and the directory stays small. -/
theorem exec_usedBytes_le_crowdedEvents :
    ∃ s, exec (History.step linuxHost appRuntime) (History.initial appFiles) crowdedEvents =
        some s ∧
      s.published.map PublishedEntry.source = [componentA, componentB, componentA] ∧
      s.dir.usedBytes ≤ 20 := by
  have hrun : (exec (History.step linuxHost appRuntime) (History.initial appFiles)
      crowdedEvents).map (·.published.map PublishedEntry.source) =
        some [componentA, componentB, componentA] := by decide +kernel
  obtain ⟨s, hs, hpublished⟩ := Option.map_eq_some_iff.mp hrun
  exact ⟨s, hs, hpublished, History.exec_usedBytes_le (by decide +kernel) hs⟩

end Demo

end PitBox.Runtime
