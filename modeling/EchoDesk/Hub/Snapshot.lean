import EchoDesk.Foundations.LastWrite
import EchoDesk.Hub.Entities
import EchoDesk.Hub.Push
import Mathlib.Data.List.MinMax

/-! # Snapshots of a scope

`snapshot` rebuilds the entities of a scope from the business tables and looks
up the events of each row; the change feed reads the events. Here the selects of
one snapshot read one state of the hub; in `Hub.Cursor` pushes come between them.

A snapshot is the fold of the event log exactly when the tables and the log
name the same entities (`Agrees`). A push does not keep that: the row of a
memory has the id of the payload and its event has the id of the entity.
-/

namespace Hub

open EchoDesk Transaction Transition LastWrite List SyncEvent

/-! ## The snapshot -/

def SyncEvent.key (event : SyncEvent) : SyncEntityType × String := (event.entityType, event.entityId)

def SyncChangeRecord.key (record : SyncChangeRecord) : SyncEntityType × String :=
  (record.entityType, record.entityId)

structure SnapshotResult where
  cursor : Nat
  transcriptSegments : List SyncChangeRecord
  meetingSummaries : List SyncChangeRecord
  memories : List SyncChangeRecord

/-- `_parse_datetime`. -/
def parseDatetime (py : Python) (value : String) : Except PyError Timestamp :=
  match py.fromisoformat value with
  | some t => .ok t
  | none => .error .valueError

/-- A number of an event, when it is one. The numbers of a transcript event are
integers the push computed, so `int` has nothing to overflow on. -/
def eventInt (py : Python) (payload : Dict) (key : String) : Option Int :=
  match payload.get? key with
  | some value => (py.int value).toOption
  | none => none

/-- `_transcript_event_matches_row`. -/
def transcriptEventMatchesRow (py : Python) (event : SyncEvent) (row : SegmentRow) : Bool :=
  (event.payload.read "segment_id" ≠ .null ∧
    eventInt py event.payload "segment_id" = some (row.id : Int)) ∨
  (py.str (event.payload.read "meeting_id") = row.meetingId ∧
    eventInt py event.payload "start_ms" = some row.startMs ∧
    eventInt py event.payload "end_ms" = some row.endMs ∧
    py.str (event.payload.read "text") = row.text)

/-- `_snapshot_transcript` of a row without event. -/
def snapshotTranscript (py : Python) (row : SegmentRow) : Except PyError SyncChangeRecord := do
  let updatedAt ← parseDatetime py row.capturedAt
  return {
    cursor := 0
    sourceDeviceId := row.deviceId
    entityType := .transcriptSegment
    entityId := toString row.id
    revision := 0
    updatedAt := updatedAt
    payload := segmentPayload row }

/-- What the loop of `_snapshot_transcripts` has gathered. -/
structure Scan where
  consumed : List Nat
  emitted : List Nat
  records : List SyncChangeRecord

/-- The events that match a row. -/
def matching (py : Python) (events : List SyncEvent) (row : SegmentRow) : List SyncEvent :=
  events.filter fun event => transcriptEventMatchesRow py event row

/-- `max(matching, key=cursor)`. -/
def newest (py : Python) (events : List SyncEvent) (row : SegmentRow) : Option SyncEvent :=
  (matching py events row).argmax fun event => event.cursor

/-- The body of the loop over the rows. -/
def scanRow (py : Python) (events : List SyncEvent) (scan : Scan) (row : SegmentRow) :
    Except PyError Scan := do
  let consumed := scan.consumed ++ (matching py events row).map (·.cursor)
  match newest py events row with
  | none => do
    let record ← snapshotTranscript py row
    return ⟨consumed, scan.emitted, scan.records ++ [record]⟩
  | some event =>
    if event.cursor ∈ scan.emitted then
      return { scan with consumed := consumed }
    else
      return ⟨consumed, scan.emitted ++ [event.cursor], scan.records ++ [event.toSyncChangeRecord]⟩

/-- `_snapshot_transcripts`. -/
def snapshotTranscripts (py : Python) (rows : List SegmentRow) (events : List SyncEvent) :
    Except PyError (List SyncChangeRecord) := do
  let scan ← rows.foldlM (scanRow py events) ⟨[], [], []⟩
  let rest := events.filter fun event => event.cursor ∉ scan.consumed
  return scan.records ++ rest.map (·.toSyncChangeRecord)

/-- `_snapshot_summary` and `_snapshot_memory`: the latest event of the entity
with the id of the row, or the row itself. -/
def snapshotRow (events : List SyncEvent) (entityType : SyncEntityType) (id : String)
    (fallback : Except PyError SyncChangeRecord) : Except PyError SyncChangeRecord :=
  match events.find? fun event => event.key = (entityType, id) with
  | some event => .ok event.toSyncChangeRecord
  | none => fallback

/-- The record of a summary without event. -/
def summaryRecord (py : Python) (row : MeetingRow) : Except PyError SyncChangeRecord := do
  let updatedAt ← parseDatetime py (occurredAt row)
  return {
    cursor := 0
    sourceDeviceId := row.deviceId
    entityType := .meetingSummary
    entityId := row.id
    revision := 0
    updatedAt := updatedAt
    payload := summaryPayload py row }

/-- The record of a memory without event. -/
def memoryRecord (py : Python) (row : MemoryRow) : Except PyError SyncChangeRecord := do
  let updatedAt ← parseDatetime py row.updatedAt
  return {
    cursor := 0
    sourceDeviceId := "sync-snapshot"
    entityType := .memory
    entityId := row.memoryId
    revision := row.revision.toNat
    updatedAt := updatedAt
    payload := memoryPayload row }

def snapshotSummary (py : Python) (events : List SyncEvent) (row : MeetingRow) :
    Except PyError SyncChangeRecord :=
  snapshotRow events .meetingSummary row.id (summaryRecord py row)

def snapshotMemory (py : Python) (events : List SyncEvent) (row : MemoryRow) :
    Except PyError SyncChangeRecord :=
  snapshotRow events .memory row.memoryId (memoryRecord py row)

/-- `latest_events`. -/
def latestEvents (db : HubDb Repository) (scope : Scope) : List SyncEvent :=
  latest SyncEvent.key (db.eventsOf scope)

/-- `transcript_events` of the events that were read. -/
def transcriptsOf (events : List SyncEvent) : List SyncEvent :=
  ((latest SyncEvent.key events).filter fun event =>
    event.entityType = .transcriptSegment).insertionSort fun a b => a.cursor ≤ b.cursor

def transcriptEvents (db : HubDb Repository) (scope : Scope) : List SyncEvent :=
  transcriptsOf (db.eventsOf scope)

/-- `COALESCE(finalized_at, ended_at, started_at)`. -/
def coalescedAt (row : MeetingRow) : String :=
  ((row.finalizedAt.or row.endedAt).getD row.startedAt)

def summaryRows (db : HubDb Repository) (scope : Scope) : List MeetingRow :=
  (db.tables.meetings.rows.filter fun row => row.scope = scope ∧ row.minutesJson.isSome).insertionSort
    fun a b => coalescedAt a < coalescedAt b ∨ coalescedAt a = coalescedAt b ∧ a.id ≤ b.id

def memoryRows (db : HubDb Repository) (scope : Scope) : List MemoryRow :=
  (db.tables.memories.rows.filter fun row => row.scope = scope ∧ row.status = .active).insertionSort
    fun a b => a.updatedAt < b.updatedAt ∨ a.updatedAt = b.updatedAt ∧ a.memoryId ≤ b.memoryId

/-- What the selects of a snapshot return, in their order. -/
structure SnapshotReads where
  events : List SyncEvent
  segments : List SegmentRow
  meetings : List MeetingRow
  memories : List MemoryRow
  cursor : Nat

/-- The result `snapshot` builds from what it has read. -/
def SnapshotReads.result (py : Python) (reads : SnapshotReads) : Except PyError SnapshotResult := do
  let events := latest SyncEvent.key reads.events
  let transcripts ← snapshotTranscripts py reads.segments (transcriptsOf reads.events)
  let summaries ← reads.meetings.mapM (snapshotSummary py events)
  let memories ← reads.memories.mapM (snapshotMemory py events)
  return ⟨reads.cursor, transcripts, summaries, memories⟩

/-- `snapshot`. -/
def snapshot (py : Python) (db : HubDb Repository) (scope : Scope) :
    Except PyError SnapshotResult :=
  SnapshotReads.result py ⟨db.eventsOf scope, db.tables.segments.ofScope scope,
    summaryRows db scope, memoryRows db scope, db.latestCursor scope⟩

def SnapshotResult.records (result : SnapshotResult) : List SyncChangeRecord :=
  result.transcriptSegments ++ result.meetingSummaries ++ result.memories

/-! ## The fold of the event log -/

/-- The changes of a scope from cursor 0 on. -/
def HubDb.changes (db : HubDb Repository) (scope : Scope) : List SyncChangeRecord :=
  (db.eventsOf scope).map (·.toSyncChangeRecord)

/-- What a device stores of a change. -/
def SyncChangeRecord.content (record : SyncChangeRecord) : Nat × Dict :=
  (record.revision, record.payload)

/-- The records are the fold of the events of the scope. -/
structure IsFold (db : HubDb Repository) (scope : Scope) (records : List SyncChangeRecord) :
    Prop where
  /-- An entity has one record, with revision and payload of its latest event, or
  it has no event and no record. -/
  exact : ∀ entityType entityId,
    (records.filter fun record => record.key = (entityType, entityId)).map (·.content) =
      ((db.latestEvent scope entityType entityId).map (·.content)).toList
  /-- A device that applies the records ends as one that applies all changes. -/
  sameState : ∀ k, (lastOf SyncChangeRecord.key records k).map (·.content) =
    (lastOf SyncChangeRecord.key (db.changes scope) k).map (·.content)

/-- An event is the latest of its transcript. -/
def HubDb.LatestTranscript (db : HubDb Repository) (scope : Scope) (event : SyncEvent) : Prop :=
  event.entityType = .transcriptSegment ∧
    db.latestEvent scope .transcriptSegment event.entityId = some event

/-- The business tables and the event log name the same entities. -/
structure Agrees (py : Python) (db : HubDb Repository) (scope : Scope) : Prop where
  memories : ∀ id,
    (∃ row ∈ db.tables.memories, row.scope = scope ∧ row.status = .active ∧ row.memoryId = id) ↔
      (db.latestEvent scope .memory id).isSome
  summaries : ∀ id,
    (∃ row ∈ db.tables.meetings, row.scope = scope ∧ row.minutesJson.isSome ∧ row.id = id) ↔
      (db.latestEvent scope .meetingSummary id).isSome
  /-- Each row is the row of some transcript. -/
  rows : ∀ row ∈ db.tables.segments, row.scope = scope →
    ∃ event, db.LatestTranscript scope event ∧ transcriptEventMatchesRow py event row
  /-- A transcript that has rows has one that no newer transcript matches. -/
  transcripts : ∀ event, db.LatestTranscript scope event →
    (∃ row ∈ db.tables.segments, row.scope = scope ∧ transcriptEventMatchesRow py event row) →
    ∃ row ∈ db.tables.segments, row.scope = scope ∧ transcriptEventMatchesRow py event row ∧
      ∀ event', db.LatestTranscript scope event' → transcriptEventMatchesRow py event' row →
        event'.cursor ≤ event.cursor

/-! ## The events of a snapshot -/

theorem latestEvent_eq_lastOf {δ : Type} (db : HubDb δ) (scope : Scope)
    (entityType : SyncEntityType) (entityId : String) :
    db.latestEvent scope entityType entityId =
      lastOf key (db.eventsOf scope) (entityType, entityId) := by
  rw [HubDb.latestEvent, lastOf]
  congr 1
  exact filter_congr fun event _ => by simp [key]

variable {db : HubDb Repository} {event : SyncEvent} {scope : Scope}

theorem mem_latestEvents : event ∈ latestEvents db scope ↔
      db.latestEvent scope event.entityType event.entityId = some event := by
  rw [latestEvents, mem_latest, latestEvent_eq_lastOf]
  rfl

theorem key_of_latestEvent {entityType : SyncEntityType} {entityId : String}
    (h : db.latestEvent scope entityType entityId = some event) :
    event ∈ db.eventsOf scope ∧ event.key = (entityType, entityId) := by
  rw [latestEvent_eq_lastOf] at h
  exact lastOf_mem h

theorem nodup_latestEvents (db : HubDb Repository) (scope : Scope) :
    ((latestEvents db scope).map key).Nodup := nodup_latest _

/-- Looking up a key in the dictionary of the latest events. -/
theorem find?_latestEvents (db : HubDb Repository) (scope : Scope) (entityType : SyncEntityType)
    (entityId : String) :
    ((latestEvents db scope).find? fun event => event.key = (entityType, entityId)) =
      db.latestEvent scope entityType entityId := by
  ext event
  rw [find?_key (nodup_latestEvents db scope), mem_latestEvents]
  constructor
  · rintro ⟨h, hkey⟩
    cases hkey
    exact h
  · intro h
    obtain ⟨-, hkey⟩ := key_of_latestEvent h
    obtain ⟨rfl, rfl⟩ := Prod.mk.inj hkey
    exact ⟨h, hkey⟩

theorem mem_transcriptEvents :
    event ∈ transcriptEvents db scope ↔ db.LatestTranscript scope event := by
  rw [transcriptEvents, transcriptsOf, mem_insertionSort, mem_filter, ← latestEvents,
    mem_latestEvents]
  constructor
  · rintro ⟨h, htype⟩
    have htype := of_decide_eq_true htype
    exact ⟨htype, htype ▸ h⟩
  · rintro ⟨htype, h⟩
    exact ⟨htype.symm ▸ h, decide_eq_true htype⟩

theorem nodup_transcriptEvents (db : HubDb Repository) (scope : Scope) :
    ((transcriptEvents db scope).map key).Nodup := by
  have hperm := ((latestEvents db scope).filter fun event =>
    event.entityType = .transcriptSegment).perm_insertionSort fun a b => a.cursor ≤ b.cursor
  rw [transcriptEvents, transcriptsOf, ← latestEvents, (hperm.map key).nodup_iff]
  exact (nodup_latestEvents db scope).sublist (filter_sublist.map _)

end Hub
