import Mathlib.Data.Vector.Defs
import PitBox.Foundations.Checked
import PitBox.Foundations.Hex

/-!
# Artifacts and the libraries they are prepared with

A `WasmArtifact` names WebAssembly bytes and memoises their digest. Wasmtime,
the WebAssembly parser, the JSON codec and the hash are not part of the
repository: they are fields of `Wasmtime` and `Host`.
-/

namespace PitBox.Runtime

abbrev Bytes := List UInt8

/-- A SHA-256 digest. -/
abbrev Sha256 := Vector UInt8 32

/-- Text that is cut and compared, as its characters. -/
abbrev Text := List Char

/-- An error and its causes, the outermost message first. -/
abbrev Error := List String

def context {α : Type*} (message : String) : Except Error α → Except Error α
  | .ok a => .ok a
  | .error error => .error (message :: error)

@[simp] theorem context_ok {α : Type*} (message : String) (a : α) :
    context message (.ok a) = .ok a := rfl

@[simp] theorem context_error {α : Type*} (message : String) (error : Error) :
    context message (.error error : Except Error α) = .error (message :: error) := rfl

theorem context_eq_ok {α : Type*} {message : String} {x : Except Error α} {a : α} :
    context message x = .ok a ↔ x = .ok a := by
  cases x <;> simp [context]

inductive ArtifactFormat where
  | coreModule
  | component
  deriving DecidableEq, Repr

structure CompiledCacheMetadata where
  schemaVersion : ℕ
  artifactDigest : Text
  fingerprint : Text
  wasmtime : String
  target : String
  architecture : String
  format : String
  world : String
  wasmSizeBytes : ℕ
  compiledSizeBytes : ℕ
  deriving DecidableEq, Repr

/-- The interfaces that the host adds to a linker. -/
inductive Interface where
  | preview1
  | preview2
  | httpBase
  | service
  | paddock
  | http
  deriving DecidableEq, Repr

/-- The operations of a Wasmtime engine with modules `M` and components `C`. A
missing file is `none`. -/
structure Wasmtime (M C : Type) where
  moduleFromBinary : Bytes → Except Error M
  componentNew : Bytes → Except Error C
  precompile : ArtifactFormat → Bytes → Except Error Bytes
  deserialize : Bytes → Except Error C
  deserializeFile : Option Bytes → Except Error C
  addToLinker : Interface → Except Error Unit
  instantiatePre : C → Except Error Unit

/-- What the runtime relies on: precompiled output deserializes to the component
of its source, and restoring from a file is restoring from its bytes. -/
structure Wasmtime.Faithful {M C : Type} (engine : Wasmtime M C) : Prop where
  deserialize_precompile : ∀ source out, engine.precompile .component source = .ok out →
    engine.deserialize out = engine.componentNew source
  deserializeFile_some : ∀ bytes, engine.deserializeFile (some bytes) = engine.deserialize bytes
  deserializeFile_none : ∃ error, engine.deserializeFile none = .error error

/-- The other libraries and the constants of the machine. -/
structure Host where
  sha256 : Bytes → Sha256
  detectFormat : Bytes → Except Error ArtifactFormat
  formatName : ArtifactFormat → String
  fromSlice : Bytes → Option CompiledCacheMetadata
  toVecPretty : CompiledCacheMetadata → Bytes
  arch : String
  os : String
  family : String

namespace Host

def target (host : Host) : String := s!"{host.arch}-{host.os}-{host.family}"

end Host

/-! ### Digests -/

def hexDigest (digest : Sha256) : Text := Hex.encode digest.toList

theorem hexDigest_injective : Function.Injective hexDigest :=
  Hex.encode_injective.comp fun _ _ h => Vector.toList_inj.mp h

def digestPrefix : Text := "sha256:".toList

def digestText (digest : Sha256) : Text := digestPrefix ++ hexDigest digest

def stripPrefix (p s : Text) : Option Text :=
  if p.isPrefixOf s then some (s.drop p.length) else none

theorem stripPrefix_append (p s : Text) : stripPrefix p (p ++ s) = some s := by
  have hprefix : p <+: p ++ s := List.prefix_append _ _
  rw [stripPrefix, if_pos (List.isPrefixOf_iff_prefix.mpr hprefix), List.drop_left]

theorem stripPrefix_digestText (digest : Sha256) :
    stripPrefix digestPrefix (digestText digest) = some (hexDigest digest) :=
  stripPrefix_append _ _

def artifactDigest (host : Host) (bytes : Bytes) : Text := digestText (host.sha256 bytes)

/-! ### Artifacts -/

inductive ArtifactSource where
  | path (path : String)
  | bytes (bytes : Bytes)
  deriving DecidableEq, Repr

/-- An artifact. The clones of one artifact share `digest`, the memo of its
digest text. -/
structure WasmArtifact where
  id : String
  source : ArtifactSource
  digest : Option Text
  deriving DecidableEq, Repr

namespace WasmArtifact

def fromPath (path : String) : WasmArtifact where
  id := "path:" ++ path
  source := .path path
  digest := none

def fromPathWithDigest (path : String) (digest : Text) : WasmArtifact where
  id := String.ofList digest
  source := .path path
  digest := some digest

def fromBytes (host : Host) (bytes : Bytes) : WasmArtifact where
  id := String.ofList (artifactDigest host bytes)
  source := .bytes bytes
  digest := some (artifactDigest host bytes)

/-- The digest of an artifact whose bytes were just read: the memo decides. -/
def digestOf (host : Host) (artifact : WasmArtifact) (bytes : Bytes) : Text :=
  artifact.digest.getD (artifactDigest host bytes)

end WasmArtifact

/-- What a path leads to. -/
inductive FileNode where
  | missing
  | notFile
  | file (bytes : Bytes)
  deriving DecidableEq, Repr

abbrev Files := String → FileNode

/-- The bytes a preparation reads. -/
def readArtifactBytes (files : Files) : ArtifactSource → Except Error Bytes
  | .path path =>
    match files path with
    | .missing => .error ["WASM file does not exist: " ++ path]
    | .notFile => .error ["WASM path is not a file: " ++ path]
    | .file bytes => .ok bytes
  | .bytes bytes => .ok bytes

end PitBox.Runtime
