import EchoDesk.Rag.IndexStore

/-! # The RAG adapter

`app/adapters/rag/bm25.py`: the payloads that ingests make, the snapshot of a scope that
a process keeps in memory, and what a query reads of it.
-/

namespace Rag

open EchoDesk

/-- `_TENANT_META` and `_OWNER_META`. -/
def tenantMeta : String := "_echodesk_tenant_id"

def ownerMeta : String := "_echodesk_owner_id"

/-- `metadata[key] = value`: an existing key keeps its place. -/
def setItem : List (String × String) → String → String → List (String × String)
  | [], key, value => [(key, value)]
  | (k, v) :: rest, key, value =>
    if k = key then (key, value) :: rest else (k, v) :: setItem rest key value

/-- `metadata.setdefault(key, value)`. -/
def setDefault (metadata : List (String × String)) (key value : String) : List (String × String) :=
  if (metadata.lookup key).isSome then metadata else metadata ++ [(key, value)]

/-- `_scoped_metadata`. -/
def scopedMetadata (scope : Scope) (metadata : List (String × String)) : List (String × String) :=
  setItem (setItem metadata tenantMeta scope.tenantId) ownerMeta scope.ownerId

variable (config : Config)

/-- A natural number of at least `width` digits. -/
def padded (width n : Nat) : String :=
  let digits := Nat.toDigits 10 n
  String.ofList (List.replicate (width - digits.length) '0' ++ digits)

/-- The first `n` characters. -/
def firstChars (n : Nat) (s : String) : String := String.ofList (s.toList.take n)

/-- `_index_file`. -/
def indexFile (scope : Scope) (docId : String) : String :=
  if scope = ⟨legacyId, legacyId⟩ then docId ++ ".json"
  else
    let digest := config.py.sha256 (scope.tenantId ++ String.ofList [Char.ofNat 0] ++ scope.ownerId)
    firstChars 16 digest ++ "--" ++ docId ++ ".json"

/-! ## Ingests -/

/-- `{**c.model_dump(), "tokens": _tokenize_cn_en(c.text)}` of a new chunk. -/
def newChunk (docId title chunkId text : String) (metadata : List (String × String)) : Chunk :=
  ⟨docId, title, chunkId, text, metadata, config.tokenize text⟩

/-- `replace_document`, as the call it makes. -/
def replaceDocument (payload : Payload) (indexPath : String) : Except RagError MutateCall := do
  let fields ← payload.fields
  return {
    scope := fields.scope
    docId := fields.docId
    indexPath := indexPath
    mutator := fun _ => some payload
    projectionGeneration := none
    projectionOperation := none }

/-- The payload of `_persist_doc`. -/
def persistedPayload (principal : Principal) (docId title : String) (chunks : List Chunk)
    (projectionGeneration : Option Int) : Payload where
  tenantId := principal.tenantId
  ownerId := principal.ownerId
  deviceId := principal.deviceId
  docId := docId
  docTitle := title
  chunks := chunks
  projectionGeneration := projectionGeneration
  indexRevision := none

/-- The call of the store in `_persist_doc`. -/
def persistDoc (principal : Principal) (docId title : String) (chunks : List Chunk)
    (projectionGeneration : Option Int) : Except RagError MutateCall :=
  let payload := persistedPayload principal docId title chunks projectionGeneration
  let target := indexFile config principal.scope docId
  match projectionGeneration with
  | none => replaceDocument payload target
  | some generation => .ok {
      scope := principal.scope
      docId := docId
      indexPath := target
      mutator := fun _ => some payload
      projectionGeneration := some generation
      projectionOperation := some .index }

/-- An ingest, with what the parser and `_chunk_text` made of its text; `none` when the file
can not be parsed. -/
inductive Ingest where
  /-- `_ingest_generic_sync`. -/
  | file (ext title source : String) (sourcePath : Option String) (stableId : String)
    (pieces : Option (List String))
  /-- `_ingest_pdf_sync`: the pieces of each page with text, under its number. -/
  | pdf (title source : String) (sourcePath : Option String) (stableId : String)
    (pages : Option (List (Nat × List String)))
  /-- `_ingest_meeting_sync`. -/
  | meeting (meetingId title : String) (projectionGeneration : Option Int) (pieces : List String)
  /-- `_ingest_ambient_segment_sync`. -/
  | ambient (text capturedAt audioRef : String) (speakerId speakerLabel operationId : Option String)

/-- `meta["source_path"] = source_path`, when there is one. -/
def withSourcePath (metadata : List (String × String)) (sourcePath : Option String) :
    List (String × String) :=
  match truthy sourcePath with
  | some path => setItem metadata "source_path" path
  | none => metadata

/-- The call of `_ingest_generic_sync`. -/
def ingestGeneric (principal : Principal) (ext title source : String) (sourcePath : Option String)
    (stableId : String) (pieces : List String) : Except RagError MutateCall :=
  let docId := orText (some ext) "doc" ++ "-" ++ stableId
  let metadata := withSourcePath
    (scopedMetadata principal.scope [("kind", orText (some ext) "text"), ("source", source)])
    sourcePath
  let chunks := pieces.zipIdx.map fun (piece, j) =>
    newChunk config docId title (docId ++ "-c" ++ padded 4 j) piece metadata
  if chunks = [] then .error .notParsed
  else persistDoc config principal docId title chunks none

/-- The call of `_ingest_pdf_sync`. -/
def ingestPdf (principal : Principal) (title source : String) (sourcePath : Option String)
    (stableId : String) (pages : List (Nat × List String)) : Except RagError MutateCall :=
  let docId := "pdf-" ++ stableId
  let chunks := pages.flatMap fun (page, pieces) =>
    let metadata := withSourcePath (scopedMetadata principal.scope
      [("page", toString page), ("kind", "pdf"), ("source", source)]) sourcePath
    pieces.zipIdx.map fun (piece, j) =>
      newChunk config docId title (docId ++ "-p" ++ padded 3 page ++ "-c" ++ padded 4 j) piece
        metadata
  if chunks = [] then .error .notParsed
  else persistDoc config principal docId title chunks none

/-- The chunks of a meeting. -/
def meetingChunks (principal : Principal) (meetingId title : String)
    (projectionGeneration : Option Int) (pieces : List String) : List Chunk :=
  let docId := "meeting-" ++ meetingId
  let metadata := [("kind", "meeting"), ("meeting_id", meetingId)] ++
    projectionGeneration.toList.map fun generation => ("projection_generation", toString generation)
  pieces.zipIdx.map fun (piece, j) =>
    newChunk config docId title (docId ++ "-c" ++ padded 4 j) piece
      (scopedMetadata principal.scope metadata)

/-- The call of `_ingest_meeting_sync`. -/
def ingestMeeting (principal : Principal) (meetingId title : String)
    (projectionGeneration : Option Int) (pieces : List String) : Except RagError MutateCall :=
  let chunks := meetingChunks config principal meetingId title projectionGeneration pieces
  if chunks = [] then .error .notParsed
  else persistDoc config principal ("meeting-" ++ meetingId) title chunks projectionGeneration

/-- `captured_at[:10].replace("-", "")`. -/
def ambientDay (capturedAt : String) : String :=
  String.ofList ((capturedAt.toList.take 10).filter fun c => c ≠ '-')

/-- `append` of `_ingest_ambient_segment_sync`. -/
def appendAmbient (principal : Principal) (docId text capturedAt audioRef : String)
    (speakerId speakerLabel operationId : Option String) (payload : Option Payload) : Payload :=
  let title := "Ambient " ++ firstChars 10 capturedAt
  let rawChunks := (payload.map Payload.chunks).getD []
  let kept :=
    match operationId with
    | some id => rawChunks.filter fun c => c.metadata.lookup "operation_id" ≠ some id
    | none => rawChunks
  let metadata : List (String × String) := [
    ("kind", "ambient"), ("source", "ambient"), ("captured_at", capturedAt),
    ("audio_ref", audioRef), (tenantMeta, principal.tenantId), (ownerMeta, principal.ownerId)] ++
    speakerId.toList.map (fun id => ("speaker_id", id)) ++
    speakerLabel.toList.map (fun label => ("speaker_label", label)) ++
    operationId.toList.map fun id => ("operation_id", id)
  let suffix :=
    match operationId with
    | some id => firstChars 16 (config.py.sha256 id)
    | none => padded 4 kept.length
  { tenantId := principal.tenantId
    ownerId := principal.ownerId
    deviceId := principal.deviceId
    docId := docId
    docTitle := title
    chunks := kept ++ [newChunk config docId title (docId ++ "-c" ++ suffix) (strip text) metadata]
    projectionGeneration := none
    indexRevision := none }

/-- The call of `_ingest_ambient_segment_sync`. -/
def ingestAmbientSegment (principal : Principal) (text capturedAt audioRef : String)
    (speakerId speakerLabel operationId : Option String) : MutateCall :=
  let docId := "ambient-" ++ ambientDay capturedAt
  { scope := principal.scope
    docId := docId
    indexPath := indexFile config principal.scope docId
    mutator := fun payload => some (appendAmbient config principal docId text capturedAt audioRef
      speakerId speakerLabel operationId payload)
    projectionGeneration := none
    projectionOperation := none }

/-- The call of the store that an ingest makes. -/
def Ingest.call (principal : Principal) : Ingest → Except RagError MutateCall
  | .file _ _ _ _ _ none | .pdf _ _ _ _ none => .error .notParsed
  | .file ext title source sourcePath stableId (some pieces) =>
    ingestGeneric config principal ext title source sourcePath stableId pieces
  | .pdf title source sourcePath stableId (some pages) =>
    ingestPdf config principal title source sourcePath stableId pages
  | .meeting meetingId title projectionGeneration pieces =>
    ingestMeeting config principal meetingId title projectionGeneration pieces
  | .ambient text capturedAt audioRef speakerId speakerLabel operationId =>
    .ok (ingestAmbientSegment config principal text capturedAt audioRef speakerId speakerLabel
      operationId)

/-- The call of the store in `_delete_sync`. -/
def deleteCall (scope : Scope) (docId : String) (projectionGeneration : Option Int) :
    MutateCall where
  scope := scope
  docId := docId
  indexPath := indexFile config scope docId
  mutator := fun _ => none
  projectionGeneration := projectionGeneration
  projectionOperation := projectionGeneration.map fun _ => .delete

/-! ## Snapshots in memory -/

/-- `_IndexedChunk`. -/
structure IndexedChunk where
  docId : String
  docTitle : String
  chunkId : String
  text : String
  metadata : List (String × String)
  tokens : List String
deriving DecidableEq

/-- `_ScopeIndexSnapshot`. -/
structure ScopeSnapshot where
  scope : Scope
  revision : Nat
  chunks : List IndexedChunk

/-- The metadata of a stored chunk, with the scope of its payload where it has none. -/
def Chunk.scopedBy (c : Chunk) (p : Payload) : List (String × String) :=
  setDefault (setDefault c.metadata tenantMeta (orText (some p.tenantId) legacyId)) ownerMeta
    (orText (some p.ownerId) legacyId)

/-- `_belongs_to_scope`. -/
def belongsToScope (metadata : List (String × String)) (scope : Scope) : Bool :=
  (metadata.lookup tenantMeta).getD legacyId == scope.tenantId &&
    (metadata.lookup ownerMeta).getD legacyId == scope.ownerId

/-- The chunks of a payload that are of the scope. -/
def Payload.indexedChunks (p : Payload) (scope : Scope) : List IndexedChunk :=
  p.chunks.filterMap fun c =>
    let metadata := c.scopedBy p
    if belongsToScope metadata scope then
      some ⟨c.docId, c.docTitle, c.chunkId, c.text, sortedItems metadata, c.tokens⟩
    else none

/-- `_build_scope_snapshot`. -/
def buildScopeSnapshot (scope : Scope) (durable : IndexSnapshot) : Except RagError ScopeSnapshot :=
  if config.maxChunksPerPrincipal < (durable.documents.map fun d => d.payload.chunks.length).sum then
    .error .chunkLimit
  else .ok ⟨scope, durable.revision, durable.documents.flatMap fun d => d.payload.indexedChunks scope⟩

/-- `_scope_snapshots` of a process, the least recently used first. -/
abbrev Cache : Type := List ScopeSnapshot

/-- `_cached_snapshot`. -/
def Cache.cached (cache : Cache) (scope : Scope) : Option ScopeSnapshot :=
  cache.find? fun snapshot => snapshot.scope = scope

/-- `_touch_snapshot`. -/
def Cache.touch (cache : Cache) (snapshot : ScopeSnapshot) : Cache :=
  cache.filter (fun other => other.scope ≠ snapshot.scope) ++ [snapshot]

/-- `_remember_snapshot`. -/
def Cache.remember (cache : Cache) (snapshot : ScopeSnapshot) : Cache :=
  if (cache.cached snapshot.scope).any fun current => snapshot.revision < current.revision then cache
  else
    let cache := cache.touch snapshot
    cache.drop (cache.length - config.snapshotCapacity)

/-- `_snapshot_for_scope`. -/
def snapshotForScope (st : Store) (cache : Cache) (scope : Scope) (force : Bool)
    (unlinked : List String) (fault : Option Nat) : Except RagError ScopeSnapshot × Store × Cache :=
  match cache.cached scope, force with
  | some cached, false =>
    if st.db.revision = cached.revision then (.ok cached, st, cache.touch cached)
    else reload (some cached)
  | cached, _ => reload cached
where
  /-- The durable snapshot is read, and becomes the one in memory. -/
  reload (cached : Option ScopeSnapshot) : Except RagError ScopeSnapshot × Store × Cache :=
    match st.snapshot config scope unlinked fault with
    | (.error error, st) => (.error error, st, cache)
    | (.ok durable, st) =>
      match cached.filter fun cached => cached.revision = durable.revision with
      | some cached => (.ok cached, st, cache.touch cached)
      | none =>
        match buildScopeSnapshot config scope durable with
        | .error error => (.error error, st, cache)
        | .ok loaded => (.ok loaded, st, cache.remember config loaded)

/-! ## Reading -/

/-- The intent of a row of `meetings` for its projection. -/
structure MeetingIntent where
  scope : Scope
  id : String
  ragProjectionState : Option String
  ragProjectionGeneration : Option Int

def MeetingIntent.key (row : MeetingIntent) : Scope × String := (row.scope, row.id)

/-- The `meetings` table, `none` when it has no projection columns yet. -/
abbrev Meetings : Type := Option (Keyed MeetingIntent.key)

/-- The states in which a meeting has no documents. -/
def deleteStates : List String := ["delete_pending", "delete_failed", "deleted"]

/-- `visible_meeting_documents`, for one document and its generation. -/
def visibleMeetingDocument (meetings : Meetings) (scope : Scope) (docId : String)
    (generation : Option Int) : Bool :=
  match meetings with
  | none => true
  | some table =>
    match table.rows.find? fun row => row.scope = scope ∧ "meeting-" ++ row.id = docId with
    | none => generation.isNone
    | some row =>
      if row.ragProjectionState.getD "" ∈ deleteStates then false
      else
        match generation with
        | none => row.ragProjectionGeneration.getD 0 == 0
        | some generation => row.ragProjectionGeneration.getD 0 == generation

/-- The generation of a chunk of a meeting: one that is no number counts as -1. -/
def IndexedChunk.generation (c : IndexedChunk) : Option Int :=
  (c.metadata.lookup "projection_generation").map fun raw => (config.py.intOfText raw).getD (-1)

/-- `meeting_generations` of a document: the last of its chunks decides. -/
def meetingGeneration (chunks : List IndexedChunk) (docId : String) : Option (Option Int) :=
  (chunks.filter fun c => c.metadata.lookup "kind" = some "meeting" ∧ c.docId = docId).getLast?.map
    (IndexedChunk.generation config)

/-- `_visible_chunks_for_scope`. -/
def visibleChunks (meetings : Meetings) (snapshot : ScopeSnapshot) (scope : Scope) :
    List IndexedChunk :=
  snapshot.chunks.filter fun c =>
    c.metadata.lookup "kind" ≠ some "meeting" ||
      (meetingGeneration config snapshot.chunks c.docId).any
        (visibleMeetingDocument meetings scope c.docId)

/-- `_query_sync`, once it has its snapshot. -/
def answer (meetings : Meetings) (snapshot : ScopeSnapshot) (query : String) (topK : Nat) :
    List IndexedChunk :=
  let chunks := visibleChunks config meetings snapshot snapshot.scope
  let tokens := config.tokenize query
  if chunks = [] ∨ tokens = [] then []
  else
    ((config.rank (chunks.map IndexedChunk.tokens) tokens).take
      (if topK = 0 then config.topK else topK)).filterMap fun i => chunks[i]?

end Rag
