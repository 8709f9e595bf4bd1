import EchoDesk.Core.Python
import Mathlib.Data.List.Sort

/-! # The documents of the RAG index

`app/adapters/rag/index_store.py` and `bm25.py`: the payload of a document, its JSON
text, and what the store reads of it.
-/

namespace Rag

open EchoDesk

/-- `LEGACY_TENANT_ID`, `LEGACY_OWNER_ID` and `LEGACY_DEVICE_ID`. -/
def legacyId : String := "legacy-local"

/-- A chunk of a payload: `RagChunk.model_dump()` with its tokens. The score is 0. -/
structure Chunk where
  docId : String
  docTitle : String
  chunkId : String
  text : String
  metadata : List (String × String)
  tokens : List String

/-- The payload of a document. -/
structure Payload where
  tenantId : String
  ownerId : String
  deviceId : String
  docId : String
  docTitle : String
  chunks : List Chunk
  projectionGeneration : Option Int
  indexRevision : Option Nat

/-- What the errors of the index are. -/
inductive RagError where
  /-- `projection generation and operation must be provided together`, or a negative one. -/
  | valueError
  /-- `BM25 cache path escapes index directory`. -/
  | pathEscapes
  | missingDocId
  /-- `BM25 principal index exceeds payload limit`. -/
  | payloadLimit
  | manifestRejected
  /-- `BM25 mutator changed the document identity`. -/
  | identityChanged
  /-- `RAG principal index exceeds chunk limit`. -/
  | chunkLimit
  /-- The file has no text, or it can not be read. -/
  | notParsed
  /-- The database or the file system failed. -/
  | failed
deriving DecidableEq

/-- The settings of an index, and the library as it uses it. -/
structure Config where
  py : Python
  /-- `str(index_dir)`. -/
  indexKey : String
  maxScopePayloadBytes : Nat
  maxChunksPerPrincipal : Nat
  snapshotCapacity : Nat
  /-- `_safe_index_path`: the file of the index directory that a name stands for, if any. -/
  safeIndexPath : String → Option String
  /-- `_tokenize_cn_en`. -/
  tokenize : String → List String
  /-- The positions of the chunks by their BM25 score for the tokens, best first. -/
  rank : List (List String) → List String → List Nat
  topK : Nat
  maxScopePayloadBytes_pos : 0 < maxScopePayloadBytes
  snapshotCapacity_pos : 0 < snapshotCapacity
  intOfText_natural : ∀ n : Nat, py.intOfText (toString n) = some (n : Int)

/-- An index with the least limits that the settings allow, and one token for each text. -/
def Config.least : Config where
  py := Python.ascii
  indexKey := "rag_index"
  maxScopePayloadBytes := 1024 * 1024
  maxChunksPerPrincipal := 100
  snapshotCapacity := 2
  safeIndexPath name := some name
  tokenize text := [text]
  rank chunks _ := List.range chunks.length
  topK := 5
  maxScopePayloadBytes_pos := Nat.succ_pos _
  snapshotCapacity_pos := Nat.two_pos
  intOfText_natural := Python.ascii_intOfText_natText

/-! ## The JSON text -/

/-- A character in a JSON string. -/
def escapeChar (c : Char) : List Char :=
  if c = '"' then ['\\', '"']
  else if c = '\\' then ['\\', '\\']
  else if c = '\n' then ['\\', 'n']
  else if c = '\r' then ['\\', 'r']
  else if c = '\t' then ['\\', 't']
  else if c.toNat = 8 then ['\\', 'b']
  else if c.toNat = 12 then ['\\', 'f']
  else if c.toNat < 32 then
    ['\\', 'u', '0', '0', Nat.digitChar (c.toNat / 16), Nat.digitChar (c.toNat % 16)]
  else [c]

def jsonString (s : String) : List Char := '"' :: (s.toList.flatMap escapeChar ++ ['"'])

def jsonArray (items : List (List Char)) : List Char := '[' :: (List.intercalate [','] items ++ [']'])

def jsonObject (fields : List (String × List Char)) : List Char :=
  '{' :: (List.intercalate [','] (fields.map fun e => jsonString e.1 ++ ':' :: e.2) ++ ['}'])

/-- The items of a dictionary by their keys. -/
def sortedItems (metadata : List (String × String)) : List (String × String) :=
  metadata.insertionSort fun a b => a.1 ≤ b.1

def Chunk.json (c : Chunk) : List Char :=
  jsonObject [ ("chunk_id", jsonString c.chunkId), ("doc_id", jsonString c.docId),
    ("doc_title", jsonString c.docTitle),
    ("metadata", jsonObject ((sortedItems c.metadata).map fun e => (e.1, jsonString e.2))),
    ("score", ['0', '.', '0']),
    ("text", jsonString c.text),
    ("tokens", jsonArray (c.tokens.map jsonString))]

/-- `_encode_payload` of a normalized payload: the characters of the text. -/
def Payload.encode (config : Config) (p : Payload) : List Char :=
  let digits (n : Int) : List Char := (toString n).toList
  jsonObject ([ ("_bm25_index_key", jsonString config.indexKey),
    ("chunks", jsonArray (p.chunks.map Chunk.json)),
    ("device_id", jsonString p.deviceId),
    ("doc_id", jsonString p.docId),
    ("doc_title", jsonString p.docTitle)] ++
    p.indexRevision.toList.map (fun n => ("index_revision", digits n)) ++
    [("owner_id", jsonString p.ownerId)] ++
    p.projectionGeneration.toList.map (fun n => ("projection_generation", digits n)) ++
    [("tenant_id", jsonString p.tenantId)])

/-- `length(payload_json)` of the column. -/
def Payload.textLength (config : Config) (p : Payload) : Nat := (p.encode config).length

/-- `len(raw)` of the encoded payload. -/
def Payload.byteLength (config : Config) (p : Payload) : Nat :=
  ((p.encode config).map Char.utf8Size).sum

/-! ## What the store reads of a payload -/

/-- `_payload_fields`. -/
structure Fields where
  scope : Scope
  deviceId : String
  docId : String
  title : String
  source : String
  sourcePath : Option String

/-- `metadata.get(key)`, an empty text counting as none. -/
def getTruthy (metadata : List (String × String)) (key : String) : Option String :=
  truthy (metadata.lookup key)

/-- `_payload_fields`. -/
def Payload.fields (p : Payload) : Except RagError Fields :=
  let docId := strip p.docId
  if docId = "" then .error .missingDocId
  else
    let metadata := (p.chunks.head?.map Chunk.metadata).getD []
    .ok {
      scope := ⟨orText (some p.tenantId) legacyId, orText (some p.ownerId) legacyId⟩
      deviceId := orText (some p.deviceId) legacyId
      docId := docId
      title := orText (some p.docTitle) docId
      source := ((getTruthy metadata "source").or (getTruthy metadata "kind")).getD "upload"
      sourcePath := getTruthy metadata "source_path" }

/-- `_normalize_payload`. -/
def Payload.normalize (p : Payload) (revision : Nat) : Except RagError Payload := do
  let fields ← p.fields
  return { p with
    tenantId := fields.scope.tenantId
    ownerId := fields.scope.ownerId
    deviceId := fields.deviceId
    docId := fields.docId
    indexRevision := some revision }

/-- The document a payload is of. -/
def Payload.key (p : Payload) : Scope × String := (⟨p.tenantId, p.ownerId⟩, p.docId)

end Rag
