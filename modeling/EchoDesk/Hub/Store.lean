import EchoDesk.Core.Python
import EchoDesk.Foundations.OrderedLog
import EchoDesk.Foundations.Table
import EchoDesk.Foundations.Transaction

/-! # The store of the sync hub

The push transaction of `app/sync_hub/store.py` and the single statements its
readers run. The business tables a push writes through (`meeting_segments`,
`meetings`, `memory_nodes`) are an arbitrary type `δ` with an `Adapter`: the
hub only asks them for the current payload of an entity and hands them the new
one.

The rows of a table are kept in insertion order. Within a scope the hub appends
events with increasing cursors (`push_events`), so `ORDER BY cursor` is the
order of the list.
-/

namespace Hub

open EchoDesk Transaction OrderedLog

inductive SyncEntityType where
  | transcriptSegment
  | meetingSummary
  | memory
deriving DecidableEq

inductive PushStatus where
  | applied
  | duplicate
  | conflict
deriving DecidableEq

/-- What the store raises. -/
inductive SyncHubError where
  | syncEntityValidationError (message : String)
  | operationIdCollisionError (message : String)
  | integrityError
  | pyError (e : PyError)

/-- A change as the readers receive it. -/
structure SyncChangeRecord where
  cursor : Nat
  sourceDeviceId : String
  entityType : SyncEntityType
  entityId : String
  revision : Nat
  updatedAt : Timestamp
  payload : Dict

/-- A row of `sync_events`. -/
structure SyncEvent extends SyncChangeRecord where
  scope : Scope

/-- A row of `sync_operations`. -/
structure SyncOperation where
  operationId : String
  scope : Scope
  sourceDeviceId : String
  entityType : SyncEntityType
  entityId : String
  baseRevision : Nat
  updatedAt : Timestamp
  payload : Dict
  status : PushStatus
  revision : Nat
  cursor : Option Nat
  current : Option Dict

/-- A row of `device_cursors`. -/
structure DeviceCursor where
  scope : Scope
  deviceId : String
  cursor : Nat
  updatedAt : Timestamp

structure PushResult where
  status : PushStatus
  revision : Nat
  cursor : Option Nat
  current : Option Dict := none

/-- Primary key of `sync_events`. -/
def SyncEvent.conflict (a b : SyncEvent) : Prop := a.scope = b.scope ∧ a.cursor = b.cursor

instance : DecidableRel SyncEvent.conflict := fun _ _ => inferInstanceAs (Decidable (_ ∧ _))

/-- Primary key of `sync_operations`. -/
def SyncOperation.conflict (a b : SyncOperation) : Prop := a.operationId = b.operationId

instance : DecidableRel SyncOperation.conflict :=
  fun _ _ => inferInstanceAs (Decidable (_ = _))

/-- The business tables of the hub, as far as a push uses them. -/
structure Adapter (δ : Type) where
  /-- Revision and payload of an entity that has no event yet (the reads of the
  business tables in `_current_entity_tx`). -/
  storedEntity : δ → Scope → SyncEntityType → String → Except SyncHubError (Nat × Option Dict)
  /-- `_apply_entity_tx`: write the payload at its new revision and return the
  canonical one. What was written before an exception is still there. -/
  applyEntity : Principal → SyncEntityType → String → Dict → Nat → Timestamp → Option Dict →
    δ → Except SyncHubError Dict × δ

structure HubDb (δ : Type) where
  events : Table SyncEvent SyncEvent.conflict
  operations : Table SyncOperation SyncOperation.conflict
  deviceCursors : List DeviceCursor
  tables : δ

variable {δ : Type}
variable {event : SyncEvent} {scope : Scope}

/-! ## Single statements -/

/-- The events of a scope, `ORDER BY cursor ASC`. -/
def HubDb.eventsOf (db : HubDb δ) (scope : Scope) : List SyncEvent :=
  db.events.rows.filter fun event => event.scope = scope

/-- `SELECT COALESCE(MAX(cursor), 0)` over the events of a scope. -/
def HubDb.latestCursor (db : HubDb δ) (scope : Scope) : Nat :=
  maxPos (·.cursor) (db.eventsOf scope)

/-- `_next_cursor_tx`. -/
def HubDb.nextCursor (db : HubDb δ) (scope : Scope) : Nat := db.latestCursor scope + 1

/-- `UPDATE device_cursors SET cursor = MAX(cursor, ?), updated_at = ? WHERE …`. -/
def HubDb.advanceDeviceCursor (db : HubDb δ) (principal : Principal) (cursor : Nat)
    (updatedAt : Timestamp) : HubDb δ :=
  { db with
    deviceCursors := db.deviceCursors.map fun row =>
      if row.scope = principal.scope ∧ row.deviceId = principal.deviceId then
        { row with cursor := max row.cursor cursor, updatedAt := updatedAt }
      else row }

/-- `_latest_event_tx`. -/
def HubDb.latestEvent (db : HubDb δ) (scope : Scope) (entityType : SyncEntityType)
    (entityId : String) : Option SyncEvent :=
  ((db.eventsOf scope).filter fun event =>
    event.entityType = entityType ∧ event.entityId = entityId).getLast?

/-- `_current_entity_tx`: revision, cursor and payload of an entity. -/
def HubDb.currentEntity (adapter : Adapter δ) (db : HubDb δ) (scope : Scope)
    (entityType : SyncEntityType) (entityId : String) :
    Except SyncHubError (Nat × Nat × Option Dict) :=
  match db.latestEvent scope entityType entityId with
  | some event => .ok (event.revision, event.cursor, some event.payload)
  | none =>
    match adapter.storedEntity db.tables scope entityType entityId with
    | .ok stored => .ok (stored.1, 0, stored.2)
    | .error e => .error e

/-! ## Push -/

/-- The arguments of `push`. -/
structure PushRequest where
  operationId : String
  deviceId : String
  entityType : SyncEntityType
  entityId : String
  baseRevision : Nat
  updatedAt : Timestamp
  payload : Dict

/-- A push transaction. -/
abbrev HubTx (δ α : Type) : Type := Tx (HubDb δ) SyncHubError α

def insertEvent (event : SyncEvent) : HubTx δ Unit := do
  let db ← get
  match db.events.insert? event with
  | some events => set { db with events := events }
  | none => throw .integrityError

def insertOperation (operation : SyncOperation) : HubTx δ Unit := do
  let db ← get
  match db.operations.insert? operation with
  | some operations => set { db with operations := operations }
  | none => throw .integrityError

def applyEntity (adapter : Adapter δ) (principal : Principal) (request : PushRequest)
    (revision : Nat) (current : Option Dict) : HubTx δ Dict := do
  let db ← get
  let result := adapter.applyEntity principal request.entityType request.entityId
    request.payload revision request.updatedAt current db.tables
  set { db with tables := result.2 }
  match result.1 with
  | .ok canonical => return canonical
  | .error e => throw e

/-- The row of `sync_operations` a push writes. -/
def PushRequest.operation (request : PushRequest) (principal : Principal) (status : PushStatus)
    (revision : Nat) (cursor : Option Nat) (current : Option Dict) : SyncOperation where
  operationId := request.operationId
  scope := principal.scope
  sourceDeviceId := principal.deviceId
  entityType := request.entityType
  entityId := request.entityId
  baseRevision := request.baseRevision
  updatedAt := request.updatedAt
  payload := request.payload
  status := status
  revision := revision
  cursor := cursor
  current := current

/-- The transaction of `push`. -/
def pushTx (adapter : Adapter δ) (principal : Principal) (request : PushRequest) :
    HubTx δ (Exit PushResult) := do
  let db ← get
  match db.operations.lookup fun operation => operation.operationId = request.operationId with
  | some operation =>
    if operation.scope ≠ principal.scope then
      throw (.operationIdCollisionError "operation id belongs to another user")
    else
      return .commit ⟨.duplicate, operation.revision, operation.cursor, operation.current⟩
  | none =>
    let (currentRevision, currentCursor, current) ←
      fromExcept (db.currentEntity adapter principal.scope request.entityType request.entityId)
    if request.baseRevision ≠ currentRevision then do
      insertOperation
        (request.operation principal .conflict currentRevision (some currentCursor) current)
      return .commit ⟨.conflict, currentRevision, some currentCursor, current⟩
    else do
      let revision := currentRevision + 1
      let canonical ← applyEntity adapter principal request revision current
      let cursor := (← get).nextCursor principal.scope
      insertEvent
        { cursor := cursor, sourceDeviceId := principal.deviceId
          entityType := request.entityType, entityId := request.entityId
          revision := revision, updatedAt := request.updatedAt, payload := canonical
          scope := principal.scope }
      insertOperation (request.operation principal .applied revision (some cursor) (some canonical))
      let db ← get
      set (db.advanceDeviceCursor principal cursor request.updatedAt)
      return .commit { status := .applied, revision := revision, cursor := some cursor }

/-- `push`: the checks before the transaction, then the transaction. -/
def push (adapter : Adapter δ) (principal : Principal) (request : PushRequest) (db : HubDb δ) :
    Except SyncHubError PushResult × HubDb δ :=
  if request.deviceId ≠ principal.deviceId then
    (.error (.syncEntityValidationError "device_id does not match authenticated device"), db)
  else if "capture:".toList.isPrefixOf request.operationId.toList then
    (.error (.syncEntityValidationError "sync operation_id uses a reserved namespace"), db)
  else
    atomically (pushTx adapter principal request) db

/-! ## What a push does to the events -/

variable {db db' : HubDb δ}

theorem HubDb.mem_eventsOf :
    event ∈ db.eventsOf scope ↔ event ∈ db.events ∧ event.scope = scope := by
  simp [HubDb.eventsOf, Table.mem_def]

theorem insertOperation_returns {operation : SyncOperation} {u : Unit}
    (h : Returns (insertOperation operation) db u db') : db'.events = db.events := by
  simp only [insertOperation, returns_get_bind] at h
  split at h
  · rw [returns_set] at h
    rw [← h]
  · exact (returns_throw.1 h).elim

theorem insertEvent_returns {u : Unit} (h : Returns (insertEvent event) db u db') :
    db'.events.rows = db.events.rows ++ [event] := by
  simp only [insertEvent, returns_get_bind] at h
  split at h
  · rename_i events hins
    rw [returns_set] at h
    rw [← h]
    exact Table.rows_of_insert? hins
  · exact (returns_throw.1 h).elim

theorem applyEntity_returns {adapter : Adapter δ} {principal : Principal} {request : PushRequest}
    {revision : Nat} {current : Option Dict} {canonical : Dict}
    (h : Returns (applyEntity adapter principal request revision current) db canonical db') :
    db'.events = db.events := by
  simp only [applyEntity, returns_bind, returns_get, returns_set] at h
  obtain ⟨_, _, ⟨rfl, rfl⟩, _, _, rfl, h⟩ := h
  split at h
  · rw [← (returns_pure.1 h).2]
  · exact (returns_throw.1 h).elim

theorem HubDb.le_latestCursor (h : event ∈ db.eventsOf scope) :
    event.cursor ≤ db.latestCursor scope :=
  @le_maxPos _ (fun event : SyncEvent => event.cursor) _ _ h

/-- A push leaves the events as they are, or appends one event of its scope
with the next cursor. -/
theorem push_events (adapter : Adapter δ) (principal : Principal) (request : PushRequest)
    (db : HubDb δ) :
    (push adapter principal request db).2.events.rows = db.events.rows ∨
      ∃ event : SyncEvent, event.scope = principal.scope ∧
        event.cursor = db.nextCursor principal.scope ∧
        (push adapter principal request db).2.events.rows = db.events.rows ++ [event] := by
  unfold push
  split
  · exact .inl rfl
  split
  · exact .inl rfl
  rcases atomically_cases (pushTx adapter principal request) db with h | ⟨result, db', hret, h⟩
  · rw [h]
    exact .inl rfl
  rw [h]
  simp only [pushTx, returns_get_bind] at hret
  split at hret
  · -- the operation is known
    split at hret
    · exact (returns_throw.1 hret).elim
    · rw [← (returns_pure.1 hret).2]
      exact .inl rfl
  obtain ⟨_, _, hcurrent, hret⟩ := returns_bind.1 hret
  obtain ⟨-, rfl⟩ := returns_fromExcept.1 hcurrent
  split at hret
  · -- a conflict is recorded with the operations only
    obtain ⟨_, _, hop, hret⟩ := returns_bind.1 hret
    rw [← (returns_pure.1 hret).2, insertOperation_returns hop]
    exact .inl rfl
  simp only [returns_bind, returns_get, returns_set, returns_pure] at hret
  obtain ⟨canonical, db₁, happly, _, _, ⟨rfl, rfl⟩, _, db₂, hev, _, db₃, hop, _, _,
    ⟨rfl, rfl⟩, _, _, rfl, _, rfl⟩ := hret
  have hrows := insertEvent_returns hev
  rw [← insertOperation_returns hop, applyEntity_returns happly] at hrows
  exact .inr ⟨_, rfl, by simp [HubDb.nextCursor, HubDb.latestCursor, HubDb.eventsOf,
    applyEntity_returns happly], hrows⟩

end Hub
