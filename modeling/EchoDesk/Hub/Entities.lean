import EchoDesk.Core.Repository
import EchoDesk.Hub.Store

/-! # The entities of the hub

How a push reads and writes the business tables: the three `_apply_*_tx` of
`app/sync_hub/store.py`, and the rows `_current_entity_tx` reads for an entity
without events. `entities` is the adapter of the store over these tables.
-/

namespace Hub

open EchoDesk Transaction

/-- A part of a push that works on the business tables. -/
abbrev EntityTx (α : Type) : Type := Tx Repository SyncHubError α

/-- Let an exception of the library pass. -/
def library {α : Type} : Except PyError α → Except SyncHubError α
  | .ok a => .ok a
  | .error e => .error (.pyError e)

theorem library_eq_ok {α : Type} {x : Except PyError α} {a : α} : library x = .ok a ↔ x = .ok a := by
  cases x <;> simp [library]

theorem library_ne_integrityError {α : Type} (x : Except PyError α) :
    library x ≠ .error .integrityError := by
  cases x <;> simp [library]

/-- `_int_field`: a number that is too large for a float to become an `int` is
the one failure it does not translate. -/
def intField (py : Python) (payload : Dict) (name : String) (default : Int) :
    Except SyncHubError Int :=
  match py.int ((payload.get? name).getD (.int default)) with
  | .ok parsed =>
    if parsed < 0 then .error (.syncEntityValidationError (name ++ " must be non-negative"))
    else .ok parsed
  | .error .overflowError => .error (.pyError .overflowError)
  | .error _ => .error (.syncEntityValidationError (name ++ " must be an integer"))

theorem intField_ne_integrityError (py : Python) (payload : Dict) (name : String) (default : Int) :
    intField py payload name default ≠ .error .integrityError := by
  unfold intField
  split
  · split <;> exact fun h => (by cases h)
  · exact fun h => (by cases h)
  · exact fun h => (by cases h)

/-- `str(payload.get(key) or default)`. -/
def textField (py : Python) (payload : Dict) (key default : String) : String :=
  py.str (payload.readOr key (.str default))

/-! ## The reads for an entity without events -/

/-- `_memory_payload`. -/
def memoryPayload (row : MemoryRow) : Dict :=
  [("memory_id", .str row.memoryId), ("kind", .str row.kind.text), ("content", .str row.content),
    ("canonical_key", .str row.canonicalKey), ("subject", .ofText row.subject),
    ("confidence", .float row.confidence), ("salience", .float row.salience),
    ("scope", .str row.memoryScope), ("status", .str row.status.text),
    ("user_confirmed", .bool row.userConfirmed), ("revision", .int row.revision),
    ("metadata", .obj row.metadata)]

/-- The payload of a row of `meeting_segments`. -/
def segmentPayload (row : SegmentRow) : Dict :=
  [("meeting_id", .str row.meetingId), ("segment_id", .int row.id), ("text", .str row.text),
    ("start_ms", .int row.startMs), ("end_ms", .int row.endMs),
    ("speaker_id", .ofText row.speakerId), ("speaker_label", .ofText row.speakerLabel),
    ("captured_at", .str row.capturedAt)]

/-- `row["finalized_at"] or row["ended_at"] or row["started_at"]`. -/
def occurredAt (row : MeetingRow) : String :=
  orText row.finalizedAt (orText row.endedAt row.startedAt)

/-- The payload of a row of `meetings` that has minutes. -/
def summaryPayload (py : Python) (row : MeetingRow) : Dict :=
  let minutes := (row.minutesJson.bind py.loads).getD []
  (minutes.set "meeting_id" (.str row.id)).set "updated_at" (.str (occurredAt row))

/-- The row of `meetings` with this id, when it has minutes. -/
def summaryRow (repo : Repository) (scope : Scope) (id : String) : Option MeetingRow :=
  (repo.meeting scope id).filter fun row => row.minutesJson.isSome

/-- The rows `_current_entity_tx` falls back on: revision and payload. -/
def storedEntity (py : Python) (repo : Repository) (scope : Scope) (entityType : SyncEntityType)
    (entityId : String) : Except SyncHubError (Nat × Option Dict) :=
  match entityType with
  | .transcriptSegment =>
    if py.isdigit entityId then do
      let id ← library (py.int (.str entityId))
      let id ← library (Python.bindInt id)
      return (0, (repo.segment scope id.toNat).map segmentPayload)
    else .ok (0, none)
  | .meetingSummary => .ok (0, (summaryRow repo scope entityId).map (summaryPayload py))
  | .memory =>
    match repo.memory scope entityId with
    | some row => .ok (row.revision.toNat, some (memoryPayload row))
    | none => .ok (0, none)

/-! ## `_ensure_meeting_tx` -/

def ensureMeeting (principal : Principal) (meetingId occurredAt : String) : EntityTx Unit := do
  let repo ← get
  match repo.meeting principal.scope meetingId with
  | some _ => return ()
  | none => do
    let repo ← orRaise .integrityError <| repo.insertMeeting? <|
      MeetingRow.new principal.scope meetingId none .ended occurredAt (some occurredAt)
        principal.deviceId
    set repo

/-! ## Transcripts -/

/-- The row id of a transcript: the first of these values that is a numeral. -/
def segmentIdCandidates (py : Python) (entityId : String) (payload : Dict)
    (current : Option Dict) : List Json :=
  [payload.read "segment_id", (current.map fun d => d.read "segment_id").getD .null,
    if py.isdigit entityId then .str entityId else .null]

def segmentId (py : Python) (entityId : String) (payload : Dict) (current : Option Dict) :
    Except PyError (Option Nat) :=
  let numeral (candidate : Json) : Bool := candidate ≠ .null ∧ py.isdigit (py.str candidate)
  match (segmentIdCandidates py entityId payload current).find? numeral with
  | none => .ok none
  | some candidate => do
    let id ← py.int candidate
    return some id.toNat

/-- Bind the columns of a transcript. -/
def segmentValues (py : Python) (principal : Principal) (payload : Dict)
    (meetingId text : String) (startMs endMs : Int) (capturedAt : String) :
    Except PyError SegmentValues := do
  let startMs ← Python.bindInt startMs
  let endMs ← Python.bindInt endMs
  let speakerId ← py.bindText (payload.read "speaker_id")
  let speakerLabel ← py.bindText (payload.read "speaker_label")
  return {
    scope := principal.scope
    deviceId := principal.deviceId
    meetingId := meetingId
    text := text
    startMs := startMs
    endMs := endMs
    speakerId := speakerId
    speakerLabel := speakerLabel
    capturedAt := capturedAt }

/-- Insert the transcript, or update the row of the scope with the id and insert
it when there is none. The value is the id of the row. -/
def writeSegment (id : Option Nat) (values : SegmentValues) : EntityTx Nat := do
  let repo ← get
  match id with
  | none => do
    let (segments, id) ← orRaise (.pyError .databaseFull) (repo.segments.append? values)
    set { repo with segments := segments }
    return id
  | some id => do
    let id ← fromExcept (library (Python.bindInt id))
    let own (row : SegmentRow) : Bool := row.id = id.toNat ∧ row.scope = values.scope
    if repo.segments.table.rows.any own then do
      set { repo with segments := repo.segments.update own fun _ => values }
      return id.toNat
    else do
      let segments ← orRaise .integrityError (repo.segments.insert? ⟨values, id.toNat⟩)
      set { repo with segments := segments }
      return id.toNat

/-- `_apply_transcript_tx`. -/
def applyTranscript (py : Python) (principal : Principal) (entityId : String) (payload : Dict)
    (updatedAt : String) (current : Option Dict) : EntityTx Dict := do
  let meetingId := strip (textField py payload "meeting_id" "")
  let text := strip (textField py payload "text" "")
  if meetingId = "" ∨ text = "" then
    throw (.syncEntityValidationError "transcript_segment requires meeting_id and text")
  else do
    let startMs ← fromExcept (intField py payload "start_ms" 0)
    let endMs ← fromExcept (intField py payload "end_ms" startMs)
    if endMs < startMs then
      throw (.syncEntityValidationError "end_ms must be greater than start_ms")
    else do
      let segmentId ← fromExcept (library (segmentId py entityId payload current))
      let capturedAt := textField py payload "captured_at" updatedAt
      ensureMeeting principal meetingId capturedAt
      let values ← fromExcept <| library <|
        segmentValues py principal payload meetingId text startMs endMs capturedAt
      let segmentId ← writeSegment segmentId values
      return [("meeting_id", .str meetingId), ("segment_id", .int segmentId), ("text", .str text),
        ("start_ms", .int startMs), ("end_ms", .int endMs),
        ("speaker_id", payload.read "speaker_id"), ("speaker_label", payload.read "speaker_label"),
        ("captured_at", .str capturedAt)]

/-! ## Summaries -/

/-- `str(canonical.get(key) or "").strip() or None`. -/
def titleField (py : Python) (canonical : Dict) (key : String) : Option String :=
  truthy (some (strip (textField py canonical key "")))

/-- The columns a summary sets in its meeting. -/
def finalize (py : Python) (canonical : Dict) (updatedAt : String) (row : MeetingRow) :
    MeetingRow :=
  { row with
    state := .finalized
    minutesJson := some (py.dumps canonical)
    minutesStatus := some "ok"
    minutesError := none
    endedAt := row.endedAt.or (some updatedAt)
    finalizedAt := some updatedAt
    title := (titleField py canonical "title").or row.title
    displayTitle := (titleField py canonical "display_title").or row.displayTitle }

/-- `_apply_summary_tx`. -/
def applySummary (py : Python) (principal : Principal) (entityId : String) (payload : Dict)
    (updatedAt : String) : EntityTx Dict := do
  let meetingId := strip (textField py payload "meeting_id" entityId)
  if meetingId = "" then
    throw (.syncEntityValidationError "meeting_summary requires meeting_id")
  else do
    let canonical :=
      (payload.set "meeting_id" (.str meetingId)).set "updated_at" (.str updatedAt)
    ensureMeeting principal meetingId updatedAt
    let repo ← get
    match repo.meeting principal.scope meetingId with
    | none => throw (.syncEntityValidationError "meeting_summary meeting not found")
    | some _ => do
      let repo ← orRaise .integrityError <|
        repo.updateMeeting? principal.scope meetingId (finalize py canonical updatedAt)
      set repo
      return canonical

/-! ## Memories -/

/-- A number of a memory: `float(payload.get(key, default))`. -/
def numberField (py : Python) (payload : Dict) (key default : String) :
    Except SyncHubError String :=
  match py.float ((payload.get? key).getD (.float default)) with
  | .ok number => .ok number
  | .error .overflowError => .error (.pyError .overflowError)
  | .error _ =>
    .error (.syncEntityValidationError "memory confidence and salience must be numbers")

/-- The values a memory push binds. -/
structure MemoryValues where
  memoryId : String
  kind : MemoryKind
  content : String
  canonicalKey : String
  subject : Option String
  confidence : String
  salience : String
  memoryScope : String
  status : MemoryStatus
  metadata : Dict

/-- The row an insert makes: the columns it leaves out have their defaults. -/
def MemoryValues.row (py : Python) (values : MemoryValues) (scope : Scope) (revision : Int)
    (updatedAt : String) : MemoryRow where
  scope := scope
  memoryId := values.memoryId
  kind := values.kind
  content := values.content
  normalizedContent := py.normalizeText values.content
  canonicalKey := values.canonicalKey
  subject := values.subject
  confidence := values.confidence
  salience := values.salience
  memoryScope := values.memoryScope
  status := values.status
  hitCount := 1
  sourceCount := 1
  userConfirmed := false
  createdAt := updatedAt
  lastSeenAt := updatedAt
  updatedAt := updatedAt
  confirmedAt := none
  supersededAt := none
  supersededBy := none
  deletedAt := none
  revision := revision
  metadata := values.metadata

/-- The columns an update sets. -/
def MemoryValues.update (py : Python) (values : MemoryValues) (revision : Int)
    (updatedAt : String) (row : MemoryRow) : MemoryRow :=
  { row with
    kind := values.kind
    content := values.content
    normalizedContent := py.normalizeText values.content
    canonicalKey := values.canonicalKey
    subject := values.subject
    confidence := values.confidence
    salience := values.salience
    memoryScope := values.memoryScope
    status := values.status
    updatedAt := updatedAt
    lastSeenAt := updatedAt
    revision := revision
    metadata := values.metadata
    deletedAt := if values.status = .deleted then some updatedAt else none }

/-- A payload of another type than a dictionary counts as an empty one. -/
def metadataField (payload : Dict) : Dict :=
  match payload.read "metadata" with
  | .obj metadata => metadata
  | _ => []

/-- The checks of `_apply_memory_tx`, in their order. -/
def memoryValues (py : Python) (entityId : String) (payload : Dict) :
    Except SyncHubError MemoryValues := do
  let memoryId := strip (textField py payload "memory_id" entityId)
  let content := strip (textField py payload "content" "")
  match MemoryKind.ofText? (textField py payload "kind" "fact") with
  | none => .error (.syncEntityValidationError "memory kind is invalid")
  | some kind =>
    if memoryId = "" ∨ content = "" then
      .error (.syncEntityValidationError "memory requires memory_id and content")
    else
      match MemoryStatus.ofText? (textField py payload "status" "active") with
      | none => .error (.syncEntityValidationError "memory status is invalid")
      | some status => do
        let confidence ← numberField py payload "confidence" "1.0"
        let salience ← numberField py payload "salience" "0.5"
        if ¬ (py.inUnit confidence ∧ py.inUnit salience) then
          .error (.syncEntityValidationError "memory confidence and salience must be in [0, 1]")
        else do
          let subject ← library (py.bindText (payload.read "subject"))
          return {
            memoryId := memoryId
            kind := kind
            content := content
            canonicalKey := py.normalizeKey (textField py payload "canonical_key" memoryId)
            subject := subject
            confidence := confidence
            salience := salience
            memoryScope := textField py payload "scope" "owner"
            status := status
            metadata := metadataField payload }

/-- `_apply_memory_tx`. -/
def applyMemory (py : Python) (principal : Principal) (entityId : String) (payload : Dict)
    (revision : Nat) (updatedAt : String) : EntityTx Dict := do
  let values ← fromExcept (memoryValues py entityId payload)
  let repo ← get
  let repo ← orRaise .integrityError <|
    match repo.memory principal.scope values.memoryId with
    | none => repo.insertMemory? py (values.row py principal.scope revision updatedAt)
    | some _ => repo.updateMemory? py principal.scope values.memoryId
        (values.update py revision updatedAt)
  set repo
  return [("memory_id", .str values.memoryId), ("kind", .str values.kind.text),
    ("content", .str values.content), ("canonical_key", .str values.canonicalKey),
    ("subject", payload.read "subject"), ("confidence", .float values.confidence),
    ("salience", .float values.salience), ("scope", .str values.memoryScope),
    ("status", .str values.status.text), ("metadata", .obj values.metadata),
    ("revision", .int revision)]

/-! ## The adapter -/

/-- `_apply_entity_tx`. -/
def applyEntityTx (py : Python) (principal : Principal) (entityType : SyncEntityType)
    (entityId : String) (payload : Dict) (revision : Nat) (updatedAt : Timestamp)
    (current : Option Dict) : EntityTx Dict :=
  match entityType with
  | .transcriptSegment =>
    applyTranscript py principal entityId payload (py.isoformat updatedAt) current
  | .meetingSummary => applySummary py principal entityId payload (py.isoformat updatedAt)
  | .memory => applyMemory py principal entityId payload revision (py.isoformat updatedAt)

/-- The store of the hub over its business tables. -/
def entities (py : Python) : Adapter Repository where
  storedEntity := storedEntity py
  applyEntity principal entityType entityId payload revision updatedAt current repo :=
    (applyEntityTx py principal entityType entityId payload revision updatedAt current).run.run repo

end Hub
