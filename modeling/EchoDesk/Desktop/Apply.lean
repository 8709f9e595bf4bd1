import EchoDesk.Desktop.Store

/-! # How a desktop applies changes

`apply_changes` of `app/hub/sync.py`: every change of a batch is applied,
recognised as a duplicate, or set aside as a conflict, in one transaction. An
exception of one change undoes the batch.
-/

namespace Desktop

open EchoDesk Transaction Hub LastWrite

/-! ## Changes -/

def entityTypeText : SyncEntityType → String
  | .transcriptSegment => "transcript_segment"
  | .meetingSummary => "meeting_summary"
  | .memory => "memory"

def entityTypeOfText? (s : String) : Option SyncEntityType :=
  [.transcriptSegment, .meetingSummary, .memory].find? fun entityType =>
    entityTypeText entityType = s

/-- `SyncChangeResponse.from_record`, as the desktop receives it. -/
def changeResponse (py : Python) (record : SyncChangeRecord) : Dict :=
  [("cursor", .int record.cursor), ("source_device_id", .str record.sourceDeviceId),
    ("entity_type", .str (entityTypeText record.entityType)),
    ("entity_id", .str record.entityId), ("revision", .int record.revision),
    ("updated_at", .str (py.isoformat record.updatedAt)), ("payload", .obj record.payload)]

/-- The fields `_apply_change_tx` reads of a change first. -/
structure ChangeHeader where
  operationId : String
  entityType : SyncEntityType
  entityId : String
  sourceDeviceId : String
  updatedAt : String
  payload : Dict
  baseRevision : Nat

structure Change extends ChangeHeader where
  revision : Nat

/-- The `try` of `_apply_change_tx`: none when the change is malformed, which
counts as a conflict. -/
def decodeHeader (py : Python) (change : Dict) (fallbackOperationId : String) :
    Except PyError (Option ChangeHeader) :=
  match text py 512 (change.readOr "operation_id" (.str fallbackOperationId)),
    (text py 512 (change.read "entity_type")).bind entityTypeOfText?,
    text py 512 (change.read "entity_id"),
    text py 512 (change.readOr "device_id" (change.read "source_device_id")),
    text py 128 (change.read "updated_at"), change.read "payload" with
  | some operationId, some entityType, some entityId, some sourceDeviceId, some updatedAt,
      .obj payload => do
    let baseRevision ← int py (change.read "base_revision") 0
    return some {
      operationId := operationId
      entityType := entityType
      entityId := entityId
      sourceDeviceId := sourceDeviceId
      updatedAt := updatedAt
      payload := payload
      baseRevision := (max 0 baseRevision).toNat }
  | _, _, _, _, _, _ => .ok none

inductive ApplyResult where
  | applied
  | duplicate
  | conflict
deriving DecidableEq

/-! ## The business tables -/

/-- A part of a change that works on the business tables. -/
abbrev RepoTx (α : Type) : Type := Tx Repository PyError α

/-- `_ensure_meeting_tx`. -/
def ensureMeeting (meetingId startedAt : String) (title : Option String)
    (state : MeetingState) : RepoTx Unit := do
  let repo ← get
  match repo.meeting localScope meetingId with
  | some _ => return ()
  | none => do
    let repo ← orRaise .integrityError <| repo.insertMeeting? <|
      MeetingRow.new localScope meetingId title state startedAt none "hub-remote"
    set repo

def SegmentFields.of (row : SegmentRow) : SegmentFields :=
  ⟨row.meetingId, row.text, row.startMs, row.endMs, row.speakerId, row.speakerLabel, row.capturedAt⟩

/-- The columns of a remote transcript. -/
def SegmentFields.values (fields : SegmentFields) (scope : Scope) (deviceId : String) :
    SegmentValues :=
  ⟨scope, deviceId, fields.meetingId, fields.text, fields.startMs, fields.endMs,
    fields.speakerId, fields.speakerLabel, fields.capturedAt⟩

/-- The integers of a transcript as the driver binds them. -/
def SegmentFields.bind (fields : SegmentFields) : Except PyError SegmentFields := do
  let startMs ← Python.bindInt fields.startMs
  let endMs ← Python.bindInt fields.endMs
  return { fields with startMs := startMs, endMs := endMs }

/-- The row that has the fields of the previous payload. -/
def previousRow (py : Python) (repo : Repository) (previousPayload : Option Dict) :
    Except PyError (Option SegmentRow) :=
  match previousPayload with
  | none => .ok none
  | some payload =>
    match decodeSegment py payload with
    | .error .valueError => .ok none
    | .error e => .error e
    | .ok identity => do
      let identity ← identity.bind
      return (localSegments repo).find? fun row => SegmentFields.of row = identity

/-- `_apply_segment_tx`. -/
def applySegment (py : Python) (payload : Dict) (previousPayload : Option Dict) :
    RepoTx Unit := do
  let fields ← fromExcept (decodeSegment py payload)
  ensureMeeting fields.meetingId fields.capturedAt (text py 512 (payload.read "meeting_title"))
    (safeState (py.str (payload.readOr "meeting_state" (.str "in_meeting"))))
  let repo ← get
  let existing ← fromExcept (previousRow py repo previousPayload)
  let fields ← fromExcept fields.bind
  match existing with
  | some row =>
    set { repo with
      segments := repo.segments.update (fun r => r.id = row.id ∧ r.scope = localScope)
        fun values => fields.values values.scope values.deviceId }
  | none => do
    let (segments, _) ← orRaise .databaseFull <|
      repo.segments.append? (fields.values localScope "hub-remote")
    set { repo with segments := segments }

/-- The columns `_apply_summary_tx` sets. -/
def SummaryFields.write (fields : SummaryFields) (row : MeetingRow) : MeetingRow :=
  { row with
    state := fields.state
    title := fields.title
    displayTitle := fields.displayTitle
    endedAt := fields.endedAt
    finalizedAt := fields.finalizedAt
    minutesJson := fields.minutesJson
    minutesStatus := fields.minutesStatus
    minutesError := fields.minutesError
    minutesClearedAt := fields.minutesClearedAt }

/-- `_apply_summary_tx`. -/
def applySummary (py : Python) (payload : Dict) : RepoTx Unit := do
  let fields ← fromExcept (decodeSummary py payload)
  ensureMeeting fields.meetingId fields.startedAt fields.title fields.state
  let repo ← get
  let repo ← orRaise .integrityError <|
    repo.updateMeeting? localScope fields.meetingId fields.write
  set repo

/-- `_apply_memory_tx`. -/
def applyMemory (py : Python) (payload : Dict) : RepoTx Unit := do
  let row ← fromExcept (decodeMemory py localScope payload)
  let repo ← get
  let repo ← orRaise .integrityError <|
    match repo.memory localScope row.memoryId with
    | none => repo.insertMemory? py row
    | some _ => repo.updateMemory? py localScope row.memoryId fun _ => row
  set repo

/-- `_apply_entity_tx`. -/
def applyEntity (py : Python) (entityType : SyncEntityType) (payload : Dict)
    (previousPayload : Option Dict) : RepoTx Unit :=
  match entityType with
  | .transcriptSegment => applySegment py payload previousPayload
  | .meetingSummary => applySummary py payload
  | .memory => applyMemory py payload

/-! ## One change -/

/-- `_find_local_transcript_aliases`. -/
def findLocalTranscriptAliases (deviceId : String) (db : ClientDb) (payload : Dict)
    (canonicalEntityId : String) : List EntityRow :=
  db.entities.rows.filter fun row =>
    row.entityType = .transcriptSegment ∧ row.entityId ≠ canonicalEntityId ∧
      row.sourceDeviceId ∈ localSources deviceId ∧
      (comparisonPayload .transcriptSegment row.payloadJson).dump =
        (comparisonPayload .transcriptSegment payload).dump

/-- `_remove_local_transcript_aliases`. -/
def removeLocalTranscriptAliases (aliases : List EntityRow) (db : ClientDb) : ClientDb :=
  aliases.foldl (fun db found =>
    { db with
      outbox := db.outbox.delete fun row =>
        row.entityType = .transcriptSegment ∧ row.entityId = found.entityId
      entities := db.entities.delete fun row =>
        row.entityType = .transcriptSegment ∧ row.entityId = found.entityId ∧
          row.sourceDeviceId = found.sourceDeviceId }) db

/-- `INSERT OR IGNORE INTO hub_sync_applied_operations`. -/
def rememberOperation (operationId : String) (db : ClientDb) : ClientDb :=
  if operationId ∈ db.appliedOperations then db
  else { db with appliedOperations := db.appliedOperations ++ [operationId] }

/-- How `_apply_change_tx` classifies a change, before it writes anything. -/
inductive Verdict where
  /-- The transcript is not newer than the stored one. -/
  | stale (aliases : List EntityRow)
  /-- The stored payload is the one of the change. -/
  | same
  /-- The stored entity is newer than the base of the change. -/
  | conflict
  /-- The change is written. -/
  | write (current : Option EntityRow) (aliases : List EntityRow)

def classify (deviceId : String) (snapshot : Bool) (change : Change) (db : ClientDb) : Verdict :=
  let canonical := (db.entities.get? change.entityType change.entityId).filter
    fun row => row.sourceDeviceId = change.sourceDeviceId
  let aliases :=
    if change.entityType = .transcriptSegment then
      findLocalTranscriptAliases deviceId db change.payload change.entityId
    else []
  match canonical with
  | some row =>
    if change.entityType = .transcriptSegment ∧ change.revision ≤ row.revision then
      .stale aliases
    else if row.payloadJson = change.payload.dump then .same
    else if snapshot = false ∧ change.baseRevision < row.revision then .conflict
    else .write (some row) aliases
  | none => .write aliases.head? aliases

/-- The row of `hub_sync_entities` of a change. -/
def Change.row (change : Change) (current : Option EntityRow) : EntityRow where
  entityType := change.entityType
  entityId := change.entityId
  revision :=
    if change.entityType = .transcriptSegment then change.revision
    else max (change.baseRevision + 1) ((current.map fun row => row.revision + 1).getD 1)
  updatedAt := change.updatedAt
  payloadJson := change.payload.dump
  sourceDeviceId := change.sourceDeviceId
  operationId := some change.operationId

/-- `_apply_change_tx` of a change that was not applied before. -/
def applyDecoded (py : Python) (deviceId : String) (snapshot : Bool) (change : Change) :
    ClientTx ApplyResult := do
  let db ← get
  match classify deviceId snapshot change db with
  | .stale aliases => do
    set (rememberOperation change.operationId (removeLocalTranscriptAliases aliases db))
    return .duplicate
  | .same => do
    set (rememberOperation change.operationId db)
    return .duplicate
  | .conflict => return .conflict
  | .write current aliases => do
    let previousPayload :=
      if change.entityType = .transcriptSegment then current.map (·.payloadJson) else none
    let written := (applyEntity py change.entityType change.payload previousPayload).run.run db.repo
    match written.1 with
    | .error e => throw e
    | .ok () => do
      let db := removeLocalTranscriptAliases aliases { db with repo := written.2 }
      let db := { db with entities := db.entities.upsert (change.row current) }
      set (rememberOperation change.operationId db)
      return .applied

/-- The operation id that stands in for a missing one. -/
def standIn (py : Python) (index drawn : Nat) : String :=
  "sync:snapshot:" ++ toString index ++ ":" ++ py.uuid4 drawn

/-- `_apply_change_tx`. -/
def applyChange (py : Python) (deviceId : String) (snapshot : Bool) (index : Nat)
    (change : Dict) : ClientTx ApplyResult := do
  let drawn := (← get).drawn
  let _ ← drawUuid py
  let decoded ← fromExcept (decodeHeader py change (standIn py index drawn))
  match decoded with
  | none => return .conflict
  | some header => do
    let db ← get
    if header.operationId ∈ db.appliedOperations then return .duplicate
    else do
      let revision ← fromExcept (int py (change.read "revision") (header.baseRevision + 1))
      applyDecoded py deviceId snapshot ⟨header, (max 1 revision).toNat⟩

/-- The loop of `apply_changes`. -/
def applyAll (py : Python) (deviceId : String) (snapshot : Bool) :
    Nat → List Dict → ClientTx (List ApplyResult)
  | _, [] => return []
  | index, change :: rest => do
    let result ← applyChange py deviceId snapshot index change
    let results ← applyAll py deviceId snapshot (index + 1) rest
    return result :: results

/-- `apply_changes`: the results, in place of how often each occurs. -/
def applyChanges (py : Python) (deviceId : String) (snapshot : Bool) (changes : List Dict)
    (db : ClientDb) : Except PyError (List ApplyResult) × ClientDb :=
  atomically (do
    let results ← applyAll py deviceId snapshot 0 changes
    return .commit results) db

end Desktop
