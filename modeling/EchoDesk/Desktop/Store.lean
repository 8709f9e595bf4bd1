import EchoDesk.Desktop.Codec
import EchoDesk.Foundations.LastWrite

/-! # The sync store of a desktop

The tables of `041_desktop_hub_sync.sql` next to the business tables, and the
methods of `HubSyncStore` (`app/hub/sync.py`). Every method runs under the lock
of the store and in one transaction.

A `payload_json` column holds `_dump(payload)`; it is kept as the dictionary with
its keys sorted, which two payloads share exactly when their texts are equal.
-/

namespace Desktop

open EchoDesk Transaction Hub LastWrite List

/-! ## Tables -/

inductive OutboxState where
  | pending
  | sending
  | applied
  | duplicate
  | conflict
  | failed
deriving DecidableEq

/-- A row of `hub_sync_outbox`. -/
structure OutboxRow where
  operationId : String
  deviceId : String
  entityType : SyncEntityType
  entityId : String
  baseRevision : Nat
  updatedAt : String
  payloadJson : Dict
  state : OutboxState
  attempts : Nat
  lastError : Option String
  createdAt : Timestamp
  stateUpdatedAt : Timestamp
deriving DecidableEq

def OutboxRow.conflict (a b : OutboxRow) : Prop := a.operationId = b.operationId

instance : DecidableRel OutboxRow.conflict :=
  fun _ _ => inferInstanceAs (Decidable (_ = _))

instance : Std.Symm OutboxRow.conflict := ⟨fun _ _ h => Eq.symm h⟩

/-- A row of `hub_sync_entities`. -/
structure EntityRow where
  entityType : SyncEntityType
  entityId : String
  revision : Nat
  updatedAt : String
  payloadJson : Dict
  sourceDeviceId : String
  operationId : Option String
deriving DecidableEq

def EntityRow.key (row : EntityRow) : SyncEntityType × String := (row.entityType, row.entityId)

/-- `hub_sync_entities`: the primary key is type and id of the entity. -/
structure Entities where
  rows : List EntityRow
  nodup : (rows.map (·.key)).Nodup

namespace Entities

instance : Membership EntityRow Entities := ⟨fun t row => row ∈ t.rows⟩

def empty : Entities := ⟨[], List.nodup_nil⟩

/-- `INSERT … ON CONFLICT(entity_type, entity_id) DO UPDATE SET …`. -/
def upsert (t : Entities) (row : EntityRow) : Entities where
  rows := remember EntityRow.key t.rows row
  nodup := by
    rw [map_key_remember]
    split
    · exact t.nodup
    · rename_i h
      refine List.nodup_append.2 ⟨t.nodup, List.nodup_singleton _, fun k hk k' hk' hkk => ?_⟩
      rw [List.mem_singleton.1 hk'] at hkk
      exact h (hkk ▸ hk)

/-- `DELETE … WHERE sel`. -/
def delete (t : Entities) (sel : EntityRow → Bool) : Entities :=
  ⟨t.rows.filter fun row => !sel row, t.nodup.sublist (List.filter_sublist.map _)⟩

/-- The entity of a type with this id. -/
def get? (t : Entities) (entityType : SyncEntityType) (entityId : String) : Option EntityRow :=
  t.rows.find? fun row => row.key = (entityType, entityId)

end Entities

structure ClientDb where
  repo : Repository
  outbox : Table OutboxRow OutboxRow.conflict
  entities : Entities
  /-- `hub_sync_applied_operations`. -/
  appliedOperations : List String
  /-- How many `uuid4` the process has drawn. -/
  drawn : Nat

/-- A desktop with an empty store. -/
def ClientDb.fresh (drawn : Nat) : ClientDb := ⟨.empty, Table.empty, .empty, [], drawn⟩

/-- `local_principal()`. -/
def localPrincipal : Principal := ⟨"legacy-local", "legacy-local", "legacy-local"⟩

/-- The scope of the rows of a desktop. -/
def localScope : Scope := localPrincipal.scope

/-- The names a desktop has as a source: `LEGACY_DEVICE_ID` is the device of the
local principal. -/
def localSources (deviceId : String) : List String := [deviceId, localPrincipal.deviceId]

/-- A transaction of the store. -/
abbrev ClientTx (α : Type) : Type := Tx ClientDb PyError α

/-- `uuid4().hex`. -/
def drawUuid (py : Python) : ClientTx String := do
  let db ← get
  set { db with drawn := db.drawn + 1 }
  return py.uuid4 db.drawn

/-! ## Local changes -/

/-- The inserts of `_queue_local_entity`. -/
def enqueue (py : Python) (deviceId : String) (now : Timestamp) (entityType : SyncEntityType)
    (entityId : String) (baseRevision : Nat) (updatedAt : String) (payloadJson : Dict) :
    ClientTx Nat := do
  let uuid ← drawUuid py
  let operationId := "sync:" ++ deviceId ++ ":" ++ uuid
  let db ← get
  let outbox ← orRaise .integrityError <| db.outbox.insert? {
    operationId := operationId
    deviceId := deviceId
    entityType := entityType
    entityId := entityId
    baseRevision := baseRevision
    updatedAt := updatedAt
    payloadJson := payloadJson
    state := .pending
    attempts := 0
    lastError := none
    createdAt := now
    stateUpdatedAt := now }
  set { db with
    outbox := outbox
    entities := db.entities.upsert {
      entityType := entityType
      entityId := entityId
      revision := baseRevision + 1
      updatedAt := updatedAt
      payloadJson := payloadJson
      sourceDeviceId := deviceId
      operationId := some operationId } }
  return 1

/-- An entity has the payload, or the same content under another id. -/
def hasEquivalent (db : ClientDb) (entityType : SyncEntityType) (payload : Dict) : Bool :=
  db.entities.rows.any fun row => row.entityType = entityType ∧ (row.payloadJson = payload.dump ∨
      (comparisonPayload entityType row.payloadJson).dump =
        (comparisonPayload entityType payload).dump)

/-- `_queue_local_entity`. -/
def queueLocalEntity (py : Python) (deviceId : String) (now : Timestamp)
    (entityType : SyncEntityType) (rawEntityId updatedAt : String) (payload : Dict) :
    ClientTx Nat := do
  let entityId := deviceId ++ ":" ++ rawEntityId
  let db ← get
  match db.entities.get? entityType entityId with
  | some current =>
    if current.payloadJson = payload.dump then return 0
    else enqueue py deviceId now entityType entityId current.revision updatedAt payload.dump
  | none =>
    if hasEquivalent db entityType payload then return 0
    else enqueue py deviceId now entityType entityId 0 updatedAt payload.dump

/-- A row of the business tables, as a reconcile queues it. -/
structure LocalEntity where
  entityType : SyncEntityType
  rawEntityId : String
  updatedAt : String
  payload : Dict

def LocalEntity.ofSegment (row : SegmentRow) : LocalEntity :=
  ⟨.transcriptSegment, toString row.id, row.capturedAt, segmentPayload row⟩

def LocalEntity.ofMeeting (row : MeetingRow) : LocalEntity :=
  ⟨.meetingSummary, row.id, summaryUpdatedAt row, summaryPayload row⟩

def LocalEntity.ofMemory (row : MemoryRow) : LocalEntity :=
  ⟨.memory, row.memoryId, row.updatedAt, memoryPayload row⟩

/-- The rows `_reconcile_segments` selects from. -/
def localSegments (repo : Repository) : List SegmentRow := repo.segments.ofScope localScope

/-- `COALESCE(finalized_at, ended_at, started_at)`. -/
def coalescedAt (row : MeetingRow) : String :=
  (row.finalizedAt.or row.endedAt).getD row.startedAt

/-- The rows `_reconcile_summaries` selects from. -/
def localSummaries (repo : Repository) : List MeetingRow :=
  (repo.meetings.rows.filter fun row => row.scope = localScope ∧
    (row.minutesJson.isSome ∨ row.minutesStatus.isSome ∨ row.minutesClearedAt.isSome)).insertionSort
    fun a b => coalescedAt a ≤ coalescedAt b

/-- The rows `_reconcile_memories` selects from. -/
def localMemories (repo : Repository) : List MemoryRow :=
  (repo.memories.rows.filter fun row => row.scope = localScope).insertionSort
    fun a b => a.updatedAt ≤ b.updatedAt

/-- What a reconcile looks at: the first rows of each table. -/
def scanned (repo : Repository) (limit : Nat) : List LocalEntity :=
  ((localSegments repo).take limit).map .ofSegment ++
    ((localSummaries repo).take limit).map .ofMeeting ++
    ((localMemories repo).take limit).map .ofMemory

/-- The loops of `_reconcile_segments`, `_reconcile_summaries` and
`_reconcile_memories`: the number of queued rows. -/
def queueAll (py : Python) (deviceId : String) (now : Timestamp) : List LocalEntity → ClientTx Nat
  | [] => return 0
  | entity :: rest => do
    let queued ← queueLocalEntity py deviceId now entity.entityType entity.rawEntityId
      entity.updatedAt entity.payload
    let more ← queueAll py deviceId now rest
    return queued + more

/-- `max(1, min(limit, 2_000))`. -/
def clampLimit (limit : Nat) : Nat := max 1 (min limit 2000)

/-- `reconcile_local_changes`. -/
def reconcileLocalChanges (py : Python) (deviceId : String) (now : Timestamp) (limit : Nat)
    (db : ClientDb) : Except PyError Nat × ClientDb :=
  atomically (do
    let queued ← queueAll py deviceId now (scanned db.repo (clampLimit limit))
    return .commit queued) db

/-! ## Pushes -/

/-- `UPDATE hub_sync_outbox SET …` of columns besides the key. -/
def updateOutbox (db : ClientDb) (f : OutboxRow → OutboxRow)
    (hf : ∀ row, (f row).operationId = row.operationId) : ClientDb :=
  { db with
    outbox :=
      { rows := db.outbox.rows.map f
        sound := db.outbox.sound.map f fun a b h => by simpa [OutboxRow.conflict, hf] using h } }

/-- The update of `claim_pending`. -/
def OutboxRow.claim (now : Timestamp) (row : OutboxRow) : OutboxRow :=
  if (row.state = .pending ∨ row.state = .failed) ∧ row.attempts < 10 then
    { row with state := .sending, attempts := row.attempts + 1, stateUpdatedAt := now }
  else row

theorem OutboxRow.claim_operationId (now : Timestamp) (row : OutboxRow) :
    (row.claim now).operationId = row.operationId := by
  unfold OutboxRow.claim
  split <;> rfl

/-- `claim_pending`: the operations being sent, in the order of their creation. -/
def claimPending (now : Timestamp) (limit : Nat) (db : ClientDb) : List OutboxRow × ClientDb :=
  let db := updateOutbox db (OutboxRow.claim now) (OutboxRow.claim_operationId now)
  let sending := db.outbox.rows.filter fun row => row.state = .sending
  ((sending.insertionSort fun a b => a.createdAt ≤ b.createdAt).take (max 1 (min limit 200)), db)

/-- `SET state = ?, last_error = ?, state_updated_at = ? WHERE operation_id IN (…)`. -/
def OutboxRow.mark (state : OutboxState) (lastError : Option String) (now : Timestamp)
    (operationIds : List String) (row : OutboxRow) : OutboxRow :=
  if row.operationId ∈ operationIds then
    { row with state := state, lastError := lastError, stateUpdatedAt := now }
  else row

theorem OutboxRow.mark_operationId (state : OutboxState) (lastError : Option String)
    (now : Timestamp) (operationIds : List String) (row : OutboxRow) :
    (row.mark state lastError now operationIds).operationId = row.operationId := by
  unfold OutboxRow.mark
  split <;> rfl

def setState (state : OutboxState) (lastError : Option String) (now : Timestamp)
    (operationIds : List String) (db : ClientDb) : ClientDb :=
  updateOutbox db (OutboxRow.mark state lastError now operationIds)
    (OutboxRow.mark_operationId state lastError now operationIds)

/-- `mark_push_results`. -/
def markPushResults (now : Timestamp) (applied duplicate conflict : List String)
    (db : ClientDb) : ClientDb :=
  setState .conflict (some "conflict") now conflict <|
    setState .duplicate none now duplicate <|
      setState .applied none now applied db

/-- `mark_failed`. -/
def markFailed (now : Timestamp) (operationIds : List String) (db : ClientDb) : ClientDb :=
  setState .failed (some "sync_failed") now operationIds db

/-- The update of `init`. -/
def OutboxRow.release (now : Timestamp) (row : OutboxRow) : OutboxRow :=
  if row.state = .sending then { row with state := .pending, stateUpdatedAt := now } else row

theorem OutboxRow.release_operationId (now : Timestamp) (row : OutboxRow) :
    (row.release now).operationId = row.operationId := by
  unfold OutboxRow.release
  split <;> rfl

/-- `init`: a restarted process sends again what was being sent. -/
def initStore (now : Timestamp) (db : ClientDb) : ClientDb :=
  updateOutbox db (OutboxRow.release now) (OutboxRow.release_operationId now)

end Desktop
