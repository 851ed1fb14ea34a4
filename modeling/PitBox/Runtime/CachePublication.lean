import PitBox.Foundations.AtomicWrite
import PitBox.Foundations.Transition
import PitBox.Runtime.Cache

/-!
# Processes that share a cache directory

The functions that look up, publish and evict entries of the compiled cache,
one file-system call at a time. Any number of threads of any number of
processes take these steps in any order, and a process can crash between two
of them. A call fails where the files make it fail, and it can also fail for
any other reason at any time.

The environment decides what a scan of the directory meets, in which order the
files of a directory are removed, and how much one write writes. The counter of
temporary names is a natural number: a process never has `2^64` calls at once.
-/

namespace PitBox.Runtime

open Table Eviction AtomicWrite

/-- The files of an entry that are replaced atomically. -/
inductive PublishedFile where
  | artifactCwasm
  | metadataJson
  deriving DecidableEq, Repr

abbrev CacheFileName := EntryName PublishedFile ℕ

def PublishedFile.fileName : PublishedFile → Text
  | .artifactCwasm => ['a', 'r', 't', 'i', 'f', 'a', 'c', 't', '.', 'c', 'w', 'a', 's', 'm']
  | .metadataJson => ['m', 'e', 't', 'a', 'd', 'a', 't', 'a', '.', 'j', 's', 'o', 'n']

def tempMark : Text := ['.', 't', 'm', 'p', '-']

def CacheFileName.fileName : CacheFileName → Text
  | .target file => file.fileName
  | .temp file pid sequence => '.' :: (file.fileName ++ (tempMark ++ (Nat.toDigits 10 pid ++
      '-' :: Nat.toDigits 10 sequence)))

theorem toDigits_injective : Function.Injective (Nat.toDigits 10) := by
  intro m n h
  rw [← Nat.ofDigitChars_ten_toDigits (n := m), h, Nat.ofDigitChars_ten_toDigits]

theorem dash_notMem_toDigits (n : ℕ) : '-' ∉ Nat.toDigits 10 n := by
  intro h
  have hdigit := Nat.isDigit_of_mem_toDigits (by decide) (by decide) h
  revert hdigit
  decide

/-- The names in a directory are pairwise different. -/
theorem fileName_injective : Function.Injective CacheFileName.fileName := by
  intro a b h
  cases a with
  | target s =>
    cases b with
    | target t =>
      cases s <;> cases t <;> simp [CacheFileName.fileName, PublishedFile.fileName] at h ⊢
    | temp t q n => cases s <;> simp [CacheFileName.fileName, PublishedFile.fileName] at h
  | temp s p m =>
    cases b with
    | target t => cases t <;> simp [CacheFileName.fileName, PublishedFile.fileName] at h
    | temp t q n =>
      have hst : s = t := by
        cases s <;> cases t <;> simp [CacheFileName.fileName, PublishedFile.fileName] at h ⊢
      subst hst
      simp only [CacheFileName.fileName, List.cons.injEq, true_and, List.append_cancel_left_eq] at h
      obtain ⟨hpid, -, hsequence⟩ := (List.append_cons_inj_of_notMem (dash_notMem_toDigits p)
        (dash_notMem_toDigits m)).mp h
      rw [toDigits_injective hpid, toDigits_injective hsequence]

/-- The file system under the root, with the counters of the processes. -/
abbrev CacheStore := Store EntryPath PublishedFile ℕ UInt8

abbrev CacheWriter := Writer EntryPath PublishedFile UInt8

/-- The arguments of a lookup. -/
structure CacheCall (M C : Type) where
  config : CompiledCacheConfig
  engine : Wasmtime M C
  fingerprint : Text
  digest : Text
  source : Bytes
  format : ArtifactFormat
  world : String

variable {M C : Type}

namespace CacheCall

def path (call : CacheCall M C) : EntryPath := cacheEntryPaths call.digest call.fingerprint

def metadata (host : Host) (call : CacheCall M C) (out : Bytes) : CompiledCacheMetadata :=
  publishedMetadata host call.fingerprint call.digest call.source call.format call.world out.length

/-- The check of the metadata that was read against the size that was found. -/
def restores (host : Host) (call : CacheCall M C) (metadataBytes : Bytes)
    (compiledSize : Option ℕ) : Bool :=
  ((host.fromSlice metadataBytes).map (metadataValid host call.fingerprint call.digest call.source
    call.format call.world compiledSize)).getD false && compiledSize.getD 0 != 0

/-- `write_atomic` of the compiled output. -/
def writeArtifact (call : CacheCall M C) (out : Bytes) : CacheWriter :=
  AtomicWrite.start call.path .artifactCwasm out

/-- `write_atomic` of the metadata. -/
def writeMetadata (host : Host) (call : CacheCall M C) (out : Bytes) : CacheWriter :=
  AtomicWrite.start call.path .metadataJson (host.toVecPretty (call.metadata host out))

end CacheCall

/-- A thread that runs an eviction for a lookup of its own, or just an eviction. -/
structure Evictor (M C : Type) where
  maxBytes : ℕ
  call : Option (CacheCall M C)

/-- Where a thread is. -/
inductive Stage (M C : Type) where
  | idle
  | readMetadata (call : CacheCall M C)
  | statArtifact (call : CacheCall M C) (metadataBytes : Bytes)
  | removeDirectory (call : CacheCall M C)
  | removeMetadata (call : CacheCall M C)
  | precompile (call : CacheCall M C)
  | publish (call : CacheCall M C) (out : Bytes) (writer : CacheWriter)
  | scan (evictor : Evictor M C) (entries : List CacheUsage)
  | evict (evictor : Evictor M C) (total : ℕ) (entries : List CacheUsage)
  | evictDirectory (evictor : Evictor M C) (total : ℕ) (entry : CacheUsage)
      (entries : List CacheUsage)
  | returned (call : CacheCall M C) (result : Except Error CompiledCacheSource)

/-- What the environment decides about the next call of a thread. -/
inductive Choice where
  | proceed
  | fail (error : Error)
  | write (count : ℕ)
  | unlink (name : CacheFileName)
  | visit (path : EntryPath) (modified : ℕ)

namespace Stage

/-- `remove_dir_all`: the files one by one and then the directory. An error is
ignored, so that any outcome leads to `next`. -/
def removeAll (store : CacheStore) (path : EntryPath) (again next : Stage M C) :
    Choice → Option (CacheStore × Stage M C)
  | .unlink name => some ({ store with fs := store.fs.unlink path name }, again)
  | .proceed => (store.fs.removeDir? path).map fun fs => ({ store with fs }, next)
  | .fail _ => some (store, next)
  | _ => none

/-- Where `evict_compiled_cache` returns to. -/
def evicted (evictor : Evictor M C) : Stage M C :=
  match evictor.call with
  | some call => .returned call (.ok .coldCompiled)
  | none => .idle

/-- A step of `write_atomic`; the metadata is written after the artifact. -/
def publishStep (host : Host) (store : CacheStore) (pid : ℕ) (call : CacheCall M C) (out : Bytes)
    (writer : CacheWriter) (count : ℕ) : Option (CacheStore × Stage M C) :=
  (advance store pid count writer).map fun advanced =>
    match advanced.2 with
    | some writer => (advanced.1, .publish call out writer)
    | none =>
      match writer.target with
      | .artifactCwasm => (advanced.1, .publish call out (call.writeMetadata host out))
      | .metadataJson => (advanced.1, .scan ⟨call.config.maxBytes, some call⟩ [])

/-- The next call of a thread of process `pid`. -/
def step (host : Host) (store : CacheStore) (pid : ℕ) :
    Stage M C → Choice → Option (CacheStore × Stage M C)
  | .readMetadata call, .proceed =>
    match store.fs.read? call.path (.target .metadataJson) with
    | some metadataBytes => some (store, .statArtifact call metadataBytes)
    | none => some (store, .precompile call)
  | .readMetadata call, .fail _ => some (store, .precompile call)
  | .statArtifact call metadataBytes, .proceed =>
    let compiledSize := (store.fs.read? call.path (.target .artifactCwasm)).map List.length
    if call.restores host metadataBytes compiledSize then
      some (store, .returned call (.ok .warmRestored))
    else some (store, .removeDirectory call)
  | .statArtifact call _, .fail _ => some (store, .removeDirectory call)
  | .removeDirectory call, choice =>
    removeAll store call.path (.removeDirectory call) (.removeMetadata call) choice
  | .removeMetadata call, .proceed =>
    some ({ store with fs := store.fs.unlink call.path (.target .metadataJson) }, .precompile call)
  | .removeMetadata call, .fail _ => some (store, .precompile call)
  | .precompile call, .proceed =>
    match call.engine.precompile call.format call.source with
    | .ok out => some (store, .publish call out (call.writeArtifact out))
    | .error error => some (store, .returned call (.error error))
  | .publish call out writer, .proceed => publishStep host store pid call out writer 0
  | .publish call out writer, .write count => publishStep host store pid call out writer count
  | .publish call _ _, .fail error => some (store, .returned call (.error error))
  | .scan evictor entries, .visit path modified =>
    match store.fs.read? path (.target .artifactCwasm) with
    | some bytes => some (store, .scan evictor (entries ++ [⟨modified, bytes.length, path⟩]))
    | none => some (store, .scan evictor entries)
  | .scan evictor entries, .proceed =>
    some (store, .evict evictor (total CacheUsage.size entries)
      (byAge CacheUsage.modified entries))
  | .evict evictor _ [], .proceed => some (store, evicted evictor)
  | .evict evictor total (entry :: entries), .proceed =>
    if total ≤ evictor.maxBytes then some (store, evicted evictor)
    else some (store, .evictDirectory evictor total entry entries)
  | .evictDirectory evictor total entry entries, choice =>
    removeAll store entry.path (.evictDirectory evictor total entry entries)
      (.evict evictor (total - entry.size) entries) choice
  | _, _ => none

end Stage

/-- A thread of a process. -/
structure Thread where
  pid : ℕ
  thread : ℕ
  deriving DecidableEq, Repr

structure SharedCache (M C : Type) where
  store : CacheStore
  stage : Thread → Stage M C
  crashed : ℕ → Bool

namespace SharedCache

inductive Action (M C : Type) where
  | call (thread : Thread) (call : CacheCall M C)
  | evict (thread : Thread) (maxBytes : ℕ)
  | run (thread : Thread) (choice : Choice)
  | crash (pid : ℕ)

/-- An empty root, before any process has used it. -/
def initial : SharedCache M C where
  store := ⟨.empty, fun _ => 0⟩
  stage _ := .idle
  crashed _ := false

def setStage (s : SharedCache M C) (thread : Thread) (stage : Stage M C) : SharedCache M C :=
  { s with stage := Function.update s.stage thread stage }

/-- A thread that has nothing to do can begin something. -/
def isFree (s : SharedCache M C) (thread : Thread) : Bool :=
  !s.crashed thread.pid && match s.stage thread with
    | .idle | .returned .. => true
    | _ => false

def step (host : Host) (s : SharedCache M C) : Action M C → Option (SharedCache M C)
  | .call thread call =>
    if s.isFree thread then some (s.setStage thread (.readMetadata call)) else none
  | .evict thread maxBytes =>
    if s.isFree thread then some (s.setStage thread (.scan ⟨maxBytes, none⟩ [])) else none
  | .run thread choice =>
    if s.crashed thread.pid then none
    else ((s.stage thread).step host s.store thread.pid choice).map fun next =>
      { s with store := next.1 }.setStage thread next.2
  | .crash pid => some { s with crashed := Function.update s.crashed pid true }

end SharedCache

end PitBox.Runtime
