import EchoDesk.Foundations.Keyed
import EchoDesk.Foundations.Transition
import EchoDesk.Rag.Payload
import Mathlib.Algebra.BigOperators.Group.List.Basic
import Mathlib.Algebra.Order.Ring.Nat

/-! # The store of the RAG index

`app/adapters/rag/index_store.py`: the payload table, the manifest, the projection
fences and the revision of one index directory, and the cache files in it. Every write
is made in a transaction that starts with `BEGIN IMMEDIATE`; a transaction that raises
leaves the tables as they were, and its file operations done.
-/

namespace Rag

open EchoDesk

/-- `projection_operation`. -/
inductive Operation where
  | index | delete
deriving DecidableEq

/-- A row of `bm25_index_documents`. -/
structure Document where
  scope : Scope
  docId : String
  indexPath : String
  payload : Payload
  updatedRevision : Nat

/-- A row of `rag_documents`. -/
structure ManifestRow where
  scope : Scope
  docId : String
  deviceId : String
  title : String
  source : String
  sourcePath : Option String
  indexPath : String

/-- A row of `bm25_document_projection_fences`. -/
structure Fence where
  scope : Scope
  docId : String
  generation : Int
  operation : Operation

/-- The primary key of a document. -/
abbrev DocKey : Type := Scope × String

def Document.key (d : Document) : DocKey := (d.scope, d.docId)

def ManifestRow.key (row : ManifestRow) : DocKey := (row.scope, row.docId)

def Fence.key (fence : Fence) : DocKey := (fence.scope, fence.docId)

/-- The tables. -/
structure Db where
  revision : Nat
  documents : Keyed Document.key
  manifest : Keyed ManifestRow.key
  fences : Keyed Fence.key

/-- A file of the index directory. -/
inductive CacheFile where
  /-- A payload with the `_bm25_index_key` of this index. -/
  | written (payload : Payload)
  | foreign

/-- The tables and the index directory. -/
structure Store where
  db : Db
  files : String → Option CacheFile

/-- An index in an empty directory. -/
def Store.init : Store := ⟨⟨0, Keyed.empty, Keyed.empty, Keyed.empty⟩, fun _ => none⟩

/-- `IndexSnapshot`. -/
structure IndexSnapshot where
  revision : Nat
  documents : List Document

/-- `IndexMutation`. -/
structure IndexMutation where
  revision : Nat
  payload : Option Payload
  changed : Bool

variable (config : Config)

/-! ## Rows -/

/-- The documents of a scope, `ORDER BY doc_id`. -/
def Db.documentsOf (db : Db) (scope : Scope) : List Document :=
  (db.documents.rows.filter fun d => d.scope = scope).insertionSort fun a b => a.docId ≤ b.docId

/-- The row of the manifest for a document. -/
def manifestRow (fields : Fields) (indexPath : String) : ManifestRow :=
  ⟨fields.scope, fields.docId, fields.deviceId, fields.title, fields.source, fields.sourcePath,
    indexPath⟩

/-- The unique index on the source paths of a scope refuses the row. -/
def Db.rejects (db : Db) (row : ManifestRow) : Bool :=
  row.sourcePath.isSome && db.manifest.rows.any fun other =>
    other.key ≠ row.key && other.scope == row.scope && other.sourcePath == row.sourcePath

/-- `_upsert_manifest`. -/
def Db.upsertManifest (db : Db) (payload : Payload) (indexPath : String) : Except RagError Db := do
  let fields ← payload.fields
  let row := manifestRow fields indexPath
  if db.rejects row then .error .manifestRejected
  else .ok { db with manifest := db.manifest.put row }

/-- `_delete_manifest`. -/
def Db.deleteManifest (db : Db) (key : DocKey) : Db := { db with manifest := db.manifest.erase key }

/-- `_insert_document`, for the payload it stores. -/
def Db.insertDocument (db : Db) (payload : Payload) (indexPath : String) (revision : Nat) :
    Except RagError (Payload × Db) := do
  let normalized ← payload.normalize revision
  let fields ← normalized.fields
  let other := ((db.documents.rows.filter fun d =>
    d.scope = fields.scope ∧ d.docId ≠ fields.docId).map fun d => d.payload.textLength config).sum
  if config.maxScopePayloadBytes < other + normalized.byteLength config then .error .payloadLimit
  else
    let document : Document := ⟨fields.scope, fields.docId, indexPath, normalized, revision⟩
    let db ← Db.upsertManifest { db with documents := db.documents.put document } normalized
      indexPath
    return (normalized, db)

/-! ## Mutations -/

/-- A call of `mutate_document`. -/
structure MutateCall where
  scope : Scope
  docId : String
  indexPath : String
  mutator : Option Payload → Option Payload
  projectionGeneration : Option Int
  projectionOperation : Option Operation

def MutateCall.key (call : MutateCall) : DocKey := (call.scope, call.docId)

/-- What a transaction of `mutate_document` comes to, before its file operation and commit. -/
inductive Mutation where
  /-- The fence is ahead of the call. -/
  | stale (existing : Option Payload)
  /-- There was nothing to delete. -/
  | absent (db : Db)
  | deletes (target : String) (db : Db)
  | writes (target : String) (payload : Payload) (db : Db)

/-- The fence is ahead of the generation, or was set by the other operation of it. -/
def Fence.blocks (fence : Fence) (generation : Int) (operation : Operation) : Bool :=
  generation < fence.generation || (fence.generation == generation && fence.operation ≠ operation)

/-- The row of the call in the fences. -/
def MutateCall.fence (call : MutateCall) : Option Fence :=
  call.projectionGeneration.bind fun generation =>
    call.projectionOperation.map fun operation => ⟨call.scope, call.docId, generation, operation⟩

/-- The fences after the call has passed. -/
def Db.raiseFence (db : Db) (call : MutateCall) : Db :=
  match call.fence with
  | some fence => { db with fences := db.fences.put fence }
  | none => db

/-- The call comes too late. -/
def Db.fenced (db : Db) (call : MutateCall) : Bool :=
  call.fence.any fun fence =>
    (db.fences.get? call.key).any fun stored => stored.blocks fence.generation fence.operation

/-- The transaction of `mutate_document`, up to its file operation. -/
def Db.mutate (db : Db) (target : String) (call : MutateCall) : Except RagError Mutation :=
  let row := db.documents.get? call.key
  let target := (row.map Document.indexPath).getD target
  let existing := row.map Document.payload
  if db.fenced call then .ok (.stale existing)
  else
    let db := db.raiseFence call
    match call.mutator existing with
    | none =>
      if row.isNone then .ok (.absent db)
      else .ok (.deletes target { db.deleteManifest call.key with
        documents := db.documents.erase call.key
        revision := db.revision + 1 })
    | some proposed => do
      let fields ← proposed.fields
      if fields.scope ≠ call.scope ∨ fields.docId ≠ call.docId then .error .identityChanged
      else
        let (normalized, db) ← db.insertDocument config proposed target (db.revision + 1)
        return .writes target normalized { db with revision := db.revision + 1 }

/-- Where a transaction of `mutate_document` fails: before its file operation, or after it. -/
inductive Fault where
  | early | late
deriving DecidableEq

/-- Change a file. -/
def setFile (files : String → Option CacheFile) (path : String) (file : Option CacheFile) :
    String → Option CacheFile := Function.update files path file

/-- The file operation and the commit. -/
def Store.commit (st : Store) (fault : Option Fault) : Mutation → Except RagError IndexMutation × Store
  | .stale existing =>
    if fault.isSome then (.error .failed, st) else (.ok ⟨st.db.revision, existing, false⟩, st)
  | .absent db =>
    if fault.isSome then (.error .failed, st)
    else (.ok ⟨db.revision, none, false⟩, { st with db := db })
  | .deletes target db =>
    let files := setFile st.files target none
    match fault with
    | some .early => (.error .failed, st)
    | some .late => (.error .failed, { st with files := files })
    | none => (.ok ⟨db.revision, none, true⟩, ⟨db, files⟩)
  | .writes target payload db =>
    let files := setFile st.files target (some (.written payload))
    match fault with
    | some .early => (.error .failed, st)
    | some .late => (.error .failed, { st with files := files })
    | none => (.ok ⟨db.revision, some payload, true⟩, ⟨db, files⟩)

/-- `mutate_document`, without the repair that follows when it raises. -/
def Store.mutateDocument (st : Store) (call : MutateCall) (fault : Option Fault) :
    Except RagError IndexMutation × Store :=
  if call.projectionGeneration.isSome ≠ call.projectionOperation.isSome then
    (.error .valueError, st)
  else if call.projectionGeneration.any fun generation => generation < 0 then
    (.error .valueError, st)
  else
    match config.safeIndexPath call.indexPath with
    | none => (.error .pathEscapes, st)
    | some target =>
      match st.db.mutate config target call with
      | .error error => (.error error, st)
      | .ok mutation => st.commit fault mutation

/-! ## Snapshots -/

/-- The documents whose cache file and manifest row are both gone. -/
def Store.externallyDeleted (st : Store) (scope : Scope) : List Document :=
  (st.db.documentsOf scope).filter fun d =>
    (st.files d.indexPath).isNone && (st.db.manifest.get? d.key).isNone

/-- The documents that were deleted externally are deleted from the table. -/
def Store.dropDeleted (st : Store) (scope : Scope) : Db :=
  let lost := st.externallyDeleted scope
  if lost.isEmpty then st.db
  else
    { st.db with
      documents := lost.foldl (fun documents d => documents.erase d.key) st.db.documents
      revision := st.db.revision + 1 }

/-- The cache file and the manifest row of each document are written where they differ. The
files that were written stay when a row is refused. -/
def restoreDocuments (db : Db) (files : String → Option CacheFile) :
    List Document → Option RagError × Db × (String → Option CacheFile)
  | [] => (none, db, files)
  | d :: rest =>
    let files := setFile files d.indexPath (some (.written d.payload))
    match db.upsertManifest d.payload d.indexPath with
    | .error error => (some error, db, files)
    | .ok db => restoreDocuments db files rest

/-- `_repair_orphan_caches`. -/
def repairOrphanCaches (files : String → Option CacheFile) (tracked : List String) (scope : Scope) :
    String → Option CacheFile := fun path =>
  match files path with
  | some (.written payload) =>
    if path ∉ tracked ∧ payload.fields.toOption.any (fun fields => fields.scope = scope) then none
    else files path
  | file => file

/-- `snapshot`. The files in `unlinked` go after the documents were looked at for theirs; a
failure comes after `fault` documents were restored, or at the commit. -/
def Store.snapshot (st : Store) (scope : Scope) (unlinked : List String) (fault : Option Nat) :
    Except RagError IndexSnapshot × Store :=
  let stored := st.db.documentsOf scope
  if config.maxScopePayloadBytes < (stored.map fun d => d.payload.textLength config).sum then
    (.error .payloadLimit, st)
  else
    let db := st.dropDeleted scope
    let rows := db.documentsOf scope
    let files : String → Option CacheFile := fun path =>
      if path ∈ unlinked then none else st.files path
    match fault with
    | some count =>
      if count < rows.length then
        (.error .failed, ⟨st.db, (restoreDocuments db files (rows.take count)).2.2⟩)
      else
        (.error .failed, ⟨st.db, repairOrphanCaches (restoreDocuments db files rows).2.2
          (rows.map Document.indexPath) scope⟩)
    | none =>
      match restoreDocuments db files rows with
      | (some error, _, files) => (.error error, ⟨st.db, files⟩)
      | (none, db, files) =>
        (.ok ⟨db.revision, rows⟩,
          ⟨db, repairOrphanCaches files (rows.map Document.indexPath) scope⟩)

end Rag
