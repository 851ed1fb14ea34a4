import Mathlib.Logic.Function.Basic
import PitBox.Foundations.Transition
import PitBox.Runtime.HttpHost

/-!
# Objects of a guest

The store a guest reaches through its host. The operations on objects parse
their names, ask the grants of the invocation and only then the backend. A
write is begun once and goes on through a resource of the guest, whose entry in
the resource table has the writer until the write is finalized. What the
backend and the table answer is decided by the environment; `trace` is history,
the operations the backend was asked for.
-/

namespace PitBox.Runtime

abbrev ObjectKey := String
abbrev BlobDigest := String

/-- The parsers of names. -/
structure PaddockNames where
  namespaceId : String → Except String NamespaceId
  objectKey : String → Except String ObjectKey

structure ObjectRef where
  namespaceId : NamespaceId
  key : ObjectKey
  version : ℕ
  digest : BlobDigest
  size : ℕ
  contentType : Option String
  deleted : Bool
  deriving DecidableEq, Repr

inductive PaddockError where
  | denied (message : String)
  | unavailable (message : String)
  | conflict (message : String)
  deriving DecidableEq, Repr

/-- A writer, by the position in the trace of the operation that opened it. -/
abbrev WriterId := ℕ

/-- The operations of the backend, and of its writers. -/
inductive BackendCall where
  | beginObjectWrite (namespaceId : NamespaceId) (key : ObjectKey) (contentType : Option String)
    (opened : Bool)
  | getObject (namespaceId : NamespaceId) (key : ObjectKey) (answer : Except String ObjectRef)
  | readBlobRange (digest : BlobDigest) (offset length : ℕ)
  | deleteObject (namespaceId : NamespaceId) (key : ObjectKey)
  | listObjects (namespaceId : NamespaceId) (pre : Option String)
  | writeChunk (writer : WriterId) (chunk : Bytes)
  | commit (writer : WriterId)
  | abort (writer : WriterId)

/-- What the backend answers in one call of a guest, where the resource table
puts a new writer, and what it says of a handle that it does not have. -/
structure PaddockAnswers where
  beginObjectWrite : Except String Unit
  getObject : Except String ObjectRef
  readBlobRange : Except String Bytes
  deleteObject : Except String Unit
  listObjects : Except String (List ObjectRef)
  writeChunk : Except String Unit
  commit : Except String ObjectRef
  abort : Except String Unit
  push : Except String ℕ
  absent : String

/-- The calls of a guest. A handle names an entry of the resource table. -/
inductive PaddockCall where
  | beginWrite (namespaceName key : String) (contentType : Option String)
  | get (namespaceName key : String)
  | readRange (namespaceName key : String) (offset length : ℕ)
  | delete (namespaceName key : String)
  | listObjects (namespaceName : String) (pre : Option String)
  | write (handle : ℕ) (chunk : Bytes)
  | commit (handle : ℕ)
  | abort (handle : ℕ)
  | drop (handle : ℕ)

inductive PaddockValue where
  | unit
  | writer (handle : ℕ)
  | object (object : ObjectRef)
  | objects (objects : List ObjectRef)
  | bytes (bytes : Bytes)
  deriving DecidableEq, Repr

abbrev PaddockResult := Except PaddockError PaddockValue

/-- The host of a guest, as far as objects go. An entry of the table is a writer
or, once the write is finalized, nothing. -/
structure PaddockHost where
  grants : List PaddockGrant
  configured : Bool
  table : ℕ → Option (Option WriterId)
  trace : List BackendCall

namespace PaddockHost

variable (names : PaddockNames) (s : PaddockHost) (answers : PaddockAnswers)

/-- The host of an invocation that has not been called. -/
def new (state : HttpHostState) (configured : Bool) : PaddockHost where
  grants := state.paddockGrants
  configured
  table := fun _ => none
  trace := []

def paddockGranted (namespaceId : NamespaceId) (write : Bool) : Bool :=
  s.grants.any (·.allows namespaceId write)

def deleteGranted (namespaceId : NamespaceId) : Bool :=
  s.grants.any fun grant => grant.namespaceId == namespaceId && grant.delete

def listGranted (namespaceId : NamespaceId) : Bool :=
  s.grants.any fun grant => grant.namespaceId == namespaceId && grant.list

def ask (call : BackendCall) : PaddockHost := { s with trace := s.trace ++ [call] }

def paddockError (error : String) : PaddockError := .unavailable error

/-- What comes before the backend in every operation on objects: the names, the
grants, and whether there is a backend at all. -/
def guarded {κ : Type} (namespaceName : String) (key : Except String κ)
    (granted : NamespaceId → Bool) (access : String)
    (operation : NamespaceId → κ → PaddockHost × PaddockResult) : PaddockHost × PaddockResult :=
  match names.namespaceId namespaceName, key with
  | .error error, _ => (s, .error (paddockError error))
  | .ok _, .error error => (s, .error (paddockError error))
  | .ok namespaceId, .ok key =>
    if granted namespaceId = false then
      (s, .error (.denied (access ++ " access denied for namespace " ++ namespaceId)))
    else if s.configured = false then
      (s, .error (.unavailable "Paddock capability is not configured"))
    else operation namespaceId key

def answer {α : Type} (value : α → PaddockValue) (answer : Except String α) : PaddockResult :=
  match answer with
  | .ok a => .ok (value a)
  | .error error => .error (paddockError error)

def beginWrite (namespaceName key : String) (contentType : Option String) :
    PaddockHost × PaddockResult :=
  s.guarded names namespaceName (names.objectKey key) (s.paddockGranted · true) "write"
    fun namespaceId key =>
      match answers.beginObjectWrite with
      | .error error =>
        (s.ask (.beginObjectWrite namespaceId key contentType false), .error (paddockError error))
      | .ok () =>
        let opened := s.ask (.beginObjectWrite namespaceId key contentType true)
        match answers.push with
        | .error error => (opened, .error (paddockError error))
        | .ok handle =>
          ({ opened with table := Function.update s.table handle (some (some s.trace.length)) },
            .ok (.writer handle))

def get (namespaceName key : String) : PaddockHost × PaddockResult :=
  s.guarded names namespaceName (names.objectKey key) (s.paddockGranted · false) "read"
    fun namespaceId key =>
      (s.ask (.getObject namespaceId key answers.getObject), answer .object answers.getObject)

def readRange (namespaceName key : String) (offset length : ℕ) : PaddockHost × PaddockResult :=
  s.guarded names namespaceName (names.objectKey key) (s.paddockGranted · false) "read"
    fun namespaceId key =>
      let asked := s.ask (.getObject namespaceId key answers.getObject)
      match answers.getObject with
      | .error error => (asked, .error (paddockError error))
      | .ok object =>
        (asked.ask (.readBlobRange object.digest offset length),
          answer .bytes answers.readBlobRange)

def delete (namespaceName key : String) : PaddockHost × PaddockResult :=
  s.guarded names namespaceName (names.objectKey key) s.deleteGranted "delete"
    fun namespaceId key =>
      (s.ask (.deleteObject namespaceId key), answer (fun _ => .unit) answers.deleteObject)

def listObjects (namespaceName : String) (pre : Option String) : PaddockHost × PaddockResult :=
  s.guarded names namespaceName (.ok ()) s.listGranted "list" fun namespaceId _ =>
    (s.ask (.listObjects namespaceId pre), answer .objects answers.listObjects)

/-- The writer of a handle that has one. -/
def writerOf (handle : ℕ) : Except PaddockError WriterId :=
  match s.table handle with
  | none => .error (paddockError answers.absent)
  | some none => .error (.conflict "writer finalized")
  | some (some writer) => .ok writer

def finalize (handle : ℕ) : PaddockHost :=
  { s with table := Function.update s.table handle (some none) }

def write (handle : ℕ) (chunk : Bytes) : PaddockHost × PaddockResult :=
  match s.writerOf answers handle with
  | .error error => (s, .error error)
  | .ok writer => (s.ask (.writeChunk writer chunk), answer (fun _ => .unit) answers.writeChunk)

def commit (handle : ℕ) : PaddockHost × PaddockResult :=
  match s.writerOf answers handle with
  | .error error => (s, .error error)
  | .ok writer => ((s.finalize handle).ask (.commit writer), answer .object answers.commit)

/-- Aborting a finalized write does nothing and is no error. -/
def abort (handle : ℕ) : PaddockHost × PaddockResult :=
  match s.table handle with
  | none => (s, .error (paddockError answers.absent))
  | some none => (s, .ok .unit)
  | some (some writer) =>
    ((s.finalize handle).ask (.abort writer), answer (fun _ => .unit) answers.abort)

/-- Dropping a writer takes its entry out of the table. -/
def drop (handle : ℕ) : PaddockHost × PaddockResult :=
  match s.table handle with
  | none => (s, .error (paddockError answers.absent))
  | some _ => ({ s with table := Function.update s.table handle none }, .ok .unit)

/-- A call of the guest. -/
def call : PaddockCall → PaddockHost × PaddockResult
  | .beginWrite namespaceName key contentType =>
    s.beginWrite names answers namespaceName key contentType
  | .get namespaceName key => s.get names answers namespaceName key
  | .readRange namespaceName key offset length =>
    s.readRange names answers namespaceName key offset length
  | .delete namespaceName key => s.delete names answers namespaceName key
  | .listObjects namespaceName pre => s.listObjects names answers namespaceName pre
  | .write handle chunk => s.write answers handle chunk
  | .commit handle => s.commit answers handle
  | .abort handle => s.abort answers handle
  | .drop handle => s.drop answers handle

/-- The resource table hands out only handles that are not in use. -/
def pushesFresh : Bool :=
  match answers.push with
  | .ok handle => (s.table handle).isNone
  | .error _ => true

def step (s : PaddockHost) (a : PaddockCall × PaddockAnswers) : Option PaddockHost :=
  if s.pushesFresh a.2 then some (s.call names a.2 a.1).1 else none

abbrev exec (s : PaddockHost) (as : List (PaddockCall × PaddockAnswers)) : Option PaddockHost :=
  Transition.exec (step names) s as

end PaddockHost

end PitBox.Runtime
