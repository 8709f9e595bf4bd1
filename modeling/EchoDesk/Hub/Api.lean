import EchoDesk.Hub.ReadBack

/-! # The bodies of the sync routes

The response models of `app/api/hub.py`, each one as the JSON object it is serialised to. The
push route leaves out the fields that are `None`.
-/

namespace Hub

open EchoDesk OrderedLog

def SyncEntityType.value : SyncEntityType → String
  | .transcriptSegment => "transcript_segment"
  | .meetingSummary => "meeting_summary"
  | .memory => "memory"

def PushStatus.value : PushStatus → String
  | .applied => "applied"
  | .duplicate => "duplicate"
  | .conflict => "conflict"

/-- `SyncPushResponse.from_record`, with `response_model_exclude_none`. -/
def syncPushResponse (record : PushResult) : Dict :=
  [("status", .str record.status.value), ("revision", .int record.revision)] ++
    (record.cursor.map fun cursor => ("cursor", Json.int cursor)).toList ++
    (record.current.map fun current => ("current", Json.obj current)).toList

/-- `SyncChangeResponse.from_record`. -/
def syncChangeResponse (py : Python) (record : SyncChangeRecord) : Dict :=
  [("cursor", .int record.cursor), ("source_device_id", .str record.sourceDeviceId),
    ("entity_type", .str record.entityType.value), ("entity_id", .str record.entityId),
    ("revision", .int record.revision), ("updated_at", .str (py.isoformat record.updatedAt)),
    ("payload", .obj record.payload)]

/-- `returned_cursor` of `list_changes`: of the last change, or the latest one when there is none. -/
def HubDb.returnedCursor (db : HubDb Repository) (scope : Scope) (cursor limit : Nat) : Nat :=
  lastPos (fun event : SyncEvent => event.cursor) (db.latestCursor scope)
    (window (fun event : SyncEvent => event.cursor) cursor limit (db.eventsOf scope))

def syncChangeList (py : Python) (records : List SyncChangeRecord) : Json :=
  .arr (records.map fun record => .obj (syncChangeResponse py record))

def syncChangesResponse (py : Python) (cursor : Nat) (records : List SyncChangeRecord) : Dict :=
  [("cursor", .int cursor), ("changes", syncChangeList py records)]

/-- `SyncSnapshotResponse.from_record`. -/
def syncSnapshotResponse (py : Python) (record : SnapshotResult) : Dict :=
  [("cursor", .int record.cursor),
    ("transcript_segments", syncChangeList py record.transcriptSegments),
    ("meeting_summaries", syncChangeList py record.meetingSummaries),
    ("memories", syncChangeList py record.memories)]

end Hub
