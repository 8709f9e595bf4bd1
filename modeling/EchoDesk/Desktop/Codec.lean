import EchoDesk.Core.Repository
import EchoDesk.Hub.Store

/-! # The codecs of a desktop

What `app/hub/sync.py` makes of a row of the business tables to push it
(`segmentPayload`, `summaryPayload`, `memoryPayload`), and what it makes of a
payload it receives (`decodeSegment`, `decodeSummary`, `decodeMemory`).
-/

namespace Desktop

open EchoDesk Transaction Hub

/-! ## Field helpers -/

/-- `_text`. -/
def text (py : Python) (limit : Nat) (value : Json) : Option String :=
  if value = .null then none
  else
    let text := strip (py.str value)
    if text = "" then none else some (slice limit text)

/-- `_required_text`. -/
def requiredText (py : Python) (limit : Nat) (value : Json) : Except PyError String :=
  match text py limit value with
  | some text => if text = "" then .error .valueError else .ok text
  | none => .error .valueError

/-- `_int`. -/
def int (py : Python) (value : Json) (default : Int) : Except PyError Int :=
  match value with
  | .bool _ | .int _ | .float _ | .str _ =>
    match py.int value with
    | .ok n => .ok n
    | .error .overflowError => .error .overflowError
    | .error _ => .ok default
  | _ => .ok default

/-- The keys of a transcript that `_comparison_payload` keeps. -/
def stableKeys : List String :=
  ["meeting_id", "text", "start_ms", "end_ms", "speaker_id", "speaker_label", "captured_at"]

/-- `_comparison_payload`. -/
def comparisonPayload (entityType : SyncEntityType) (payload : Dict) : Dict :=
  match entityType with
  | .transcriptSegment => payload.filter fun entry => entry.1 ∈ stableKeys
  | _ => payload

/-! ## What a desktop sends -/

/-- The payload of `_reconcile_segments`. -/
def segmentPayload (row : SegmentRow) : Dict :=
  [("segment_id", .str (toString row.id)), ("meeting_id", .str row.meetingId),
    ("text", .str row.text), ("start_ms", .int row.startMs), ("end_ms", .int row.endMs),
    ("speaker_id", .ofText row.speakerId), ("speaker_label", .ofText row.speakerLabel),
    ("captured_at", .str row.capturedAt)]

/-- The payload of `_reconcile_summaries`. -/
def summaryPayload (row : MeetingRow) : Dict :=
  [("meeting_id", .str row.id), ("title", .ofText row.title),
    ("display_title", .ofText row.displayTitle), ("started_at", .str row.startedAt),
    ("ended_at", .ofText row.endedAt), ("finalized_at", .ofText row.finalizedAt),
    ("minutes_json", .ofText row.minutesJson), ("minutes_status", .ofText row.minutesStatus),
    ("minutes_error", .ofText row.minutesError),
    ("minutes_cleared_at", .ofText row.minutesClearedAt),
    ("deleted", .bool row.minutesJson.isNone)]

/-- The payload of `_reconcile_memories`. -/
def memoryPayload (row : MemoryRow) : Dict :=
  [("memory_id", .str row.memoryId), ("kind", .str row.kind.text), ("content", .str row.content),
    ("normalized_content", .str row.normalizedContent),
    ("canonical_key", .str row.canonicalKey), ("subject", .ofText row.subject),
    ("confidence", .float row.confidence), ("salience", .float row.salience),
    ("scope", .str row.memoryScope), ("status", .str row.status.text),
    ("hit_count", .int row.hitCount), ("source_count", .int row.sourceCount),
    ("user_confirmed", .bool row.userConfirmed), ("created_at", .str row.createdAt),
    ("last_seen_at", .str row.lastSeenAt), ("updated_at", .str row.updatedAt),
    ("confirmed_at", .ofText row.confirmedAt), ("superseded_at", .ofText row.supersededAt),
    ("superseded_by", .ofText row.supersededBy), ("deleted_at", .ofText row.deletedAt),
    ("revision", .int row.revision), ("metadata", .obj row.metadata)]

/-- `updated_at` of a summary. -/
def summaryUpdatedAt (row : MeetingRow) : String :=
  orText row.finalizedAt (orText row.endedAt (orText row.minutesClearedAt row.startedAt))

/-! ## What a desktop receives -/

/-- The fields of a transcript that identify its row, and that it sets. -/
structure SegmentFields where
  meetingId : String
  text : String
  startMs : Int
  endMs : Int
  speakerId : Option String
  speakerLabel : Option String
  capturedAt : String
deriving DecidableEq

/-- The fields `_apply_segment_tx` reads of a payload. -/
def decodeSegment (py : Python) (payload : Dict) : Except PyError SegmentFields := do
  let meetingId ← requiredText py 512 (payload.read "meeting_id")
  let capturedAt ← requiredText py 128 (payload.read "captured_at")
  let content ← requiredText py 32000 (payload.read "text")
  let startMs ← int py (payload.read "start_ms") 0
  let endMs ← int py (payload.read "end_ms") 0
  return {
    meetingId := meetingId
    text := content
    startMs := startMs
    endMs := endMs
    speakerId := text py 8000 (payload.read "speaker_id")
    speakerLabel := text py 8000 (payload.read "speaker_label")
    capturedAt := capturedAt }

/-- `state if state in _VALID_MEETING_STATES else "in_meeting"`. -/
def safeState (state : String) : MeetingState :=
  if state = "ended" then .ended
  else if state = "finalized" then .finalized
  else .inMeeting

/-- `_VALID_MINUTES_STATES`. -/
def validMinutesStates : List String := ["generating", "ok", "generation_failed", "cancelled"]

/-- The columns `_apply_summary_tx` writes. -/
structure SummaryFields where
  meetingId : String
  startedAt : String
  state : MeetingState
  title : Option String
  displayTitle : Option String
  endedAt : Option String
  finalizedAt : Option String
  minutesJson : Option String
  minutesStatus : Option String
  minutesError : Option String
  minutesClearedAt : Option String

/-- The fields `_apply_summary_tx` reads of a payload. -/
def decodeSummary (py : Python) (payload : Dict) : Except PyError SummaryFields := do
  let meetingId ← requiredText py 512 (payload.read "meeting_id")
  let startedAt ← requiredText py 128 (payload.readOr "started_at" (payload.read "updated_at"))
  let deleted := (payload.read "deleted").truthy ∨ payload.read "minutes_json" = .null
  let minutesStatus := (text py 64 (payload.read "minutes_status")).filter
    fun status => status ∈ validMinutesStates
  return {
    meetingId := meetingId
    startedAt := startedAt
    state := if (payload.read "finalized_at").truthy then .finalized else .ended
    title := text py 512 (payload.read "title")
    displayTitle := text py 512 (payload.read "display_title")
    endedAt := text py 128 (payload.read "ended_at")
    finalizedAt := text py 128 (payload.read "finalized_at")
    minutesJson := if deleted then none else text py 1000000 (payload.read "minutes_json")
    minutesStatus := if deleted then none else minutesStatus
    minutesError := if deleted then none else text py 4000 (payload.read "minutes_error")
    minutesClearedAt :=
      if deleted then text py 128 (payload.read "minutes_cleared_at") else none }

/-- `str(payload.get("status") or "active")`, where another status is active. -/
def memoryStatus (py : Python) (payload : Dict) : MemoryStatus :=
  (MemoryStatus.ofText? (py.str (payload.readOr "status" (.str "active")))).getD .active

/-- The row `_apply_memory_tx` writes, by the order of its values. A kind the
table does not know is refused by its check. -/
def decodeMemory (py : Python) (scope : Scope) (payload : Dict) : Except PyError MemoryRow := do
  let memoryId ← requiredText py 512 (payload.read "memory_id")
  let kind ← requiredText py 64 (payload.read "kind")
  let content ← requiredText py 8000 (payload.read "content")
  let normalizedContent ←
    requiredText py 8000 (payload.readOr "normalized_content" (payload.read "content"))
  let canonicalKey ← requiredText py 512 (payload.read "canonical_key")
  let confidence ← py.float (payload.readOr "confidence" (.float "0.0"))
  let salience ← py.float (payload.readOr "salience" (.float "0.0"))
  let memoryScope ← requiredText py 128 (payload.readOr "scope" (.str "owner"))
  let hitCount ← int py (payload.read "hit_count") 1
  let sourceCount ← int py (payload.read "source_count") 1
  let createdAt ← requiredText py 128 (payload.read "created_at")
  let lastSeenAt ← requiredText py 128 (payload.read "last_seen_at")
  let updatedAt ← requiredText py 128 (payload.read "updated_at")
  let revision ← int py (payload.read "revision") 0
  let hitCount ← Python.bindInt (max 1 hitCount)
  let sourceCount ← Python.bindInt (max 1 sourceCount)
  let revision ← Python.bindInt (max 0 revision)
  match MemoryKind.ofText? kind with
  | none => .error .integrityError
  | some kind => return {
      scope := scope
      memoryId := memoryId
      kind := kind
      content := content
      normalizedContent := normalizedContent
      canonicalKey := canonicalKey
      subject := text py 512 (payload.read "subject")
      confidence := confidence
      salience := salience
      memoryScope := memoryScope
      status := memoryStatus py payload
      hitCount := hitCount
      sourceCount := sourceCount
      userConfirmed := (payload.read "user_confirmed").truthy
      createdAt := createdAt
      lastSeenAt := lastSeenAt
      updatedAt := updatedAt
      confirmedAt := text py 128 (payload.read "confirmed_at")
      supersededAt := text py 128 (payload.read "superseded_at")
      supersededBy := text py 512 (payload.read "superseded_by")
      deletedAt := text py 128 (payload.read "deleted_at")
      revision := revision
      metadata :=
        match payload.read "metadata" with
        | .obj metadata => Dict.dump metadata
        | _ => [] }

end Desktop
