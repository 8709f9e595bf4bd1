import EchoDesk.Outbox.Table

/-! # The delivery state of the outbox and its statements

Every backend process projects the outbox to its own bus. The tables below hold
how far each consumer got, what it still has to retry, and the state of the one
global scan over rows that no process published.

A table with a primary key is a partial function of the key. A recovery lane
points at a row of its own scope, so the joins of the lanes with
`workflow_outbox` look the lane up by the scope of the row. The functions are
the bodies of the transactions of `WorkflowService`; an exception leaves no
trace in the database, so a body that raises has no database to return.
-/

namespace Outbox.Delivery

open EchoDesk OrderedLog

variable {π : Type}

abbrev ConsumerId : Type := String

/-- `_outbox_global_lease_owner`: the consumer id and the running instance. -/
structure LeaseOwner where
  consumerId : ConsumerId
  incarnation : Nat
deriving DecidableEq

/-- A row of `workflow_outbox_consumers`. No code reads the last two fields:
they remember the cursor of the registration and the rows published to the
consumer's bus since. -/
structure Consumer (π : Type) where
  consumerId : ConsumerId
  cursor : Nat
  heartbeatAt : Timestamp
  registeredAt : Nat
  bus : List (OutboxRow π)

/-- A recovery lane of a scope, of one consumer or of the global scan. -/
structure ScopeRecovery where
  nextOutboxId : Nat
  attempts : Nat
  nextRetryAt : Timestamp
  lastError : Option String

/-- A row of `workflow_outbox_consumer_recovery`, from before the lanes. -/
structure LegacyRecovery where
  attempts : Nat
  nextRetryAt : Timestamp
  lastError : Option String

/-- The row of `workflow_outbox_global_recovery_state`. -/
structure GlobalRecoveryState where
  recoveryThrough : Nat
  scanCursor : Nat
  leaseOwner : Option LeaseOwner
  leaseFence : Nat
  leaseExpiresAt : Timestamp
  lastFailedOwner : Option LeaseOwner
  failedOwnerRetryAt : Timestamp

structure Db (π : Type) where
  outbox : OutboxTable π
  consumers : List (Consumer π)
  legacy : ConsumerId → Nat → Option LegacyRecovery
  lanes : ConsumerId → Scope → Option ScopeRecovery
  globalState : GlobalRecoveryState
  globalLanes : Scope → Option ScopeRecovery

/-- The settings a flush or a prune reads. -/
structure Settings where
  replayWindowRows : Nat
  consumerTtl : Nat
  retention : Nat
  maxRows : Nat

inductive DeliveryError where
  | leaseLost
  | laneDisappeared
  | legacyRowDisappeared
  | integrityError
deriving DecidableEq

/-- The local lanes of `_mark_outbox_published` and `_mark_outbox_failed`. -/
inductive DeliveryLane where
  | main
  | legacy
  | scope

/-- `_OUTBOX_GLOBAL_RECOVERY_LEASE_S`, in milliseconds. -/
def globalRecoveryLease : Nat := 15000

/-- `_outbox_retry_delay`, in milliseconds. -/
def outboxRetryDelay (attempts : Nat) : Nat := min 30000 (250 * 2 ^ min (attempts - 1) 16)

/-- `text[:500]`. -/
def clip (text : String) : String := String.ofList (text.toList.take 500)

/-- `error[:500] if error else None`. -/
def shortError (error : Option String) : Option String := (truthy error).map clip

/-! ## Single statements -/

namespace Db

def consumer? (db : Db π) (c : ConsumerId) : Option (Consumer π) :=
  db.consumers.find? fun a => a.consumerId = c

/-- `UPDATE workflow_outbox_consumers SET … WHERE consumer_id = ?`. -/
def updateConsumer (db : Db π) (c : ConsumerId) (assign : Consumer π → Consumer π) : Db π :=
  { db with consumers := db.consumers.map fun a => if a.consumerId = c then assign a else a }

/-- `DELETE FROM workflow_outbox_consumers`: the recovery rows cascade. -/
def deleteConsumers (db : Db π) (gone : Consumer π → Bool) : Db π :=
  let deleted := fun c => db.consumers.any fun a => a.consumerId = c && gone a
  { db with
    consumers := db.consumers.filter fun a => !gone a
    legacy := fun c id => if deleted c then none else db.legacy c id
    lanes := fun c scope => if deleted c then none else db.lanes c scope }

/-- The heartbeat an update of the other lanes comes with. -/
def heartbeat (db : Db π) (c : ConsumerId) (now : Timestamp) : Db π :=
  db.updateConsumer c fun a => { a with heartbeatAt := now }

def setLane (db : Db π) (c : ConsumerId) (scope : Scope) (lane : Option ScopeRecovery) : Db π :=
  { db with lanes := Function.update db.lanes c (Function.update (db.lanes c) scope lane) }

def setLegacy (db : Db π) (c : ConsumerId) (id : Nat) (row : Option LegacyRecovery) : Db π :=
  { db with legacy := Function.update db.legacy c (Function.update (db.legacy c) id row) }

def setGlobalLane (db : Db π) (scope : Scope) (lane : Option ScopeRecovery) : Db π :=
  { db with globalLanes := Function.update db.globalLanes scope lane }

/-- `SET published_at = COALESCE(published_at, ?), attempts = attempts + 1, last_error = NULL`. -/
def setPublished (db : Db π) (id : Nat) (now : Timestamp) : Db π :=
  { db with
    outbox := db.outbox.modify (fun row =>
        if row.outboxId = id then
          { row with
            publishedAt := row.publishedAt <|> some now
            attempts := row.attempts + 1
            lastError := none }
        else row)
      (fun row => by split <;> rfl) }

/-- `SET attempts = attempts + 1, last_error = ?`. -/
def setFailed (db : Db π) (id : Nat) (error : String) : Db π :=
  { db with
    outbox := db.outbox.modify (fun row =>
        if row.outboxId = id then
          { row with attempts := row.attempts + 1, lastError := some (clip error) }
        else row)
      (fun row => by split <;> rfl) }

/-- The bus of the consumer is given a row. This is no statement: it is what the
field `bus` remembers of `publish_to`. -/
def published (db : Db π) (c : ConsumerId) (row : OutboxRow π) : Db π :=
  db.updateConsumer c fun a => { a with bus := a.bus ++ [row] }

end Db

/-! ## Registration -/

/-- `SELECT outbox_id … ORDER BY outbox_id DESC LIMIT 1 OFFSET ?`, or 0. -/
def idAtOffset (t : OutboxTable π) (rows : Nat) : Nat :=
  ((t.rows.reverse.drop rows).head?.map fun row => row.outboxId).getD 0

/-- `_outbox_replay_floor`. -/
def outboxReplayFloor (t : OutboxTable π) (rows : Nat) : Nat :=
  if rows = 0 then maxPos (fun row : OutboxRow π => row.outboxId) t.rows else idAtOffset t rows

/-- The transaction of `_ensure_outbox_consumer`, and the cursor it returns. -/
def ensureOutboxConsumer (db : Db π) (c : ConsumerId) (candidate : Option Nat)
    (now : Timestamp) : Db π × Nat :=
  match db.consumer? c with
  | none =>
    let cursor := candidate.getD 0
    let state := db.globalState
    ({ db with
        consumers := db.consumers ++ [⟨c, cursor, now, cursor, []⟩]
        globalState := { state with recoveryThrough := max state.recoveryThrough cursor } },
      cursor)
  | some row => (db.heartbeat c now, row.cursor)

/-! ## The local lanes -/

/-- `_has_earlier_scope_recovery`. -/
def hasEarlierScopeRecovery (db : Db π) (c : ConsumerId) (row : OutboxRow π) : Bool :=
  (db.lanes c row.scope).any (fun lane => lane.nextOutboxId < row.outboxId) ||
  (db.globalLanes row.scope).any (fun lane => lane.nextOutboxId < row.outboxId) ||
  db.outbox.rows.any fun earlier =>
    (db.legacy c earlier.outboxId).isSome && earlier.outboxId < row.outboxId &&
      earlier.scope = row.scope

/-- The lane `_queue_scope_recovery` and `_queue_global_scope_recovery` leave: a
new one at the row, the old one lowered to it or with one more attempt, or the
old one as it is. -/
def queueLane (existing : Option ScopeRecovery) (rowId : Nat) (error : Option String)
    (attempted : Bool) (now : Timestamp) : ScopeRecovery :=
  let attempts := if attempted then 1 else 0
  let atRow : ScopeRecovery :=
    ⟨rowId, attempts, if attempted then now + outboxRetryDelay attempts else 0, shortError error⟩
  match existing with
  | none => atRow
  | some lane =>
    if rowId < lane.nextOutboxId then atRow
    else if attempted ∧ rowId = lane.nextOutboxId then
      { lane with
        attempts := lane.attempts + 1
        nextRetryAt := now + outboxRetryDelay (lane.attempts + 1)
        lastError := shortError error }
    else lane

/-- `_queue_scope_recovery`; `existing` is the lane its `SELECT` read. The
foreign key and the primary key may refuse the insert, and an update of a lane
that cascaded away writes nothing. -/
def queueScopeRecovery (db : Db π) (c : ConsumerId) (row : OutboxRow π)
    (existing : Option ScopeRecovery) (error : Option String) (attempted : Bool)
    (now : Timestamp) : Except DeliveryError (Db π) :=
  match existing, db.lanes c row.scope with
  | none, none =>
    if (db.consumer? c).isSome then
      .ok (db.setLane c row.scope (some (queueLane none row.outboxId error attempted now)))
    else .error .integrityError
  | none, some _ => .error .integrityError
  | some _, none => .ok db
  | some lane, some _ =>
    .ok (db.setLane c row.scope (some (queueLane (some lane) row.outboxId error attempted now)))

/-- `_retry_legacy_recovery`. -/
def retryLegacyRecovery (db : Db π) (c : ConsumerId) (row : OutboxRow π) (error : String)
    (now : Timestamp) : Except DeliveryError (Db π) :=
  match db.legacy c row.outboxId with
  | none => .error .legacyRowDisappeared
  | some existing =>
    .ok (db.setLegacy c row.outboxId (some
      ⟨existing.attempts + 1, now + outboxRetryDelay (existing.attempts + 1), some (clip error)⟩))

/-- The update of `_advance_outbox_cursor`; `cursor` is the advanced `_outbox_cursor`. -/
def advanceOutboxCursor (db : Db π) (c : ConsumerId) (cursor : Nat) (now : Timestamp) : Db π :=
  db.updateConsumer c fun a => { a with cursor := max a.cursor cursor, heartbeatAt := now }

/-- `_advance_scope_recovery`: to the next row of the scope up to the cursor. -/
def advanceScopeRecovery (db : Db π) (c : ConsumerId) (cursor : Nat) (row : OutboxRow π) :
    Except DeliveryError (Db π) :=
  if (db.lanes c row.scope).any fun lane => lane.nextOutboxId = row.outboxId then
    let next := db.outbox.rows.find? fun later =>
      later.scope = row.scope ∧ row.outboxId < later.outboxId ∧ later.outboxId ≤ cursor
    .ok (db.setLane c row.scope (next.map fun later => ⟨later.outboxId, 0, 0, none⟩))
  else .error .laneDisappeared

/-- `_mark_outbox_published`; `cursor` is `_outbox_cursor`. -/
def markOutboxPublished (db : Db π) (c : ConsumerId) (cursor : Nat) (lane : DeliveryLane)
    (row : OutboxRow π) (now : Timestamp) : Except DeliveryError (Db π) :=
  let db := db.setPublished row.outboxId now
  match lane with
  | .main => .ok (advanceOutboxCursor db c (max cursor row.outboxId) now)
  | .legacy => .ok ((db.setLegacy c row.outboxId none).heartbeat c now)
  | .scope => (advanceScopeRecovery db c cursor row).map fun db => db.heartbeat c now

/-- `_mark_outbox_failed`. -/
def markOutboxFailed (db : Db π) (c : ConsumerId) (cursor : Nat) (lane : DeliveryLane)
    (row : OutboxRow π) (error : String) (now : Timestamp) : Except DeliveryError (Db π) :=
  let db := db.setFailed row.outboxId error
  let queued := queueScopeRecovery db c row (db.lanes c row.scope) (some error) true now
  match lane with
  | .main => queued.map fun db => advanceOutboxCursor db c (max cursor row.outboxId) now
  | .legacy => (retryLegacyRecovery db c row error now).map fun db => db.heartbeat c now
  | .scope => queued.map fun db => db.heartbeat c now

/-- The branch of the main lane for a row behind an earlier one of its scope. -/
def queueBehind (db : Db π) (c : ConsumerId) (cursor : Nat) (row : OutboxRow π)
    (existing : Option ScopeRecovery) (now : Timestamp) : Except DeliveryError (Db π) :=
  (queueScopeRecovery db c row existing none false now).map fun db =>
    advanceOutboxCursor db c (max cursor row.outboxId) now

/-- `_due_legacy_recovery_rows`. -/
def dueLegacyRecoveryRows (db : Db π) (c : ConsumerId) (now : Timestamp) (limit : Nat) :
    List (OutboxRow π) :=
  page (fun row =>
    (db.legacy c row.outboxId).any (fun recovery => recovery.nextRetryAt ≤ now) &&
    !db.outbox.rows.any fun prior =>
      (db.legacy c prior.outboxId).isSome && prior.outboxId < row.outboxId &&
        prior.scope = row.scope) limit db.outbox.rows

/-- `_due_scope_recovery_rows`. -/
def dueScopeRecoveryRows (db : Db π) (c : ConsumerId) (now : Timestamp) (limit : Nat) :
    List (OutboxRow π) :=
  page (fun row =>
    (db.lanes c row.scope).any (fun lane =>
      lane.nextOutboxId = row.outboxId ∧ lane.nextRetryAt ≤ now) &&
    !(db.outbox.rows.any fun legacy =>
      (db.legacy c legacy.outboxId).isSome && legacy.outboxId < row.outboxId &&
        legacy.scope = row.scope) &&
    !(db.globalLanes row.scope).any fun lane => lane.nextOutboxId < row.outboxId)
    limit db.outbox.rows

/-! ## The global scan -/

/-- The lease row names this owner with this fence, and has not expired. -/
def GlobalRecoveryState.heldBy (state : GlobalRecoveryState) (me : LeaseOwner)
    (fence : Option Nat) (now : Timestamp) : Bool :=
  state.leaseOwner = some me ∧ some state.leaseFence = fence ∧ now < state.leaseExpiresAt

/-- `_try_acquire_global_recovery_lease` and the fence it remembers. -/
def tryAcquireGlobalRecoveryLease (db : Db π) (me : LeaseOwner) (now : Timestamp) :
    Db π × Option Nat :=
  let state := db.globalState
  if (state.leaseOwner = none ∨ state.leaseOwner = some me ∨ state.leaseExpiresAt ≤ now) ∧
      (state.lastFailedOwner = none ∨ state.lastFailedOwner ≠ some me ∨
        state.failedOwnerRetryAt ≤ now) then
    let fence := if state.leaseOwner = some me then state.leaseFence else state.leaseFence + 1
    ({ db with
        globalState :=
          { state with
            leaseFence := fence
            leaseOwner := some me
            leaseExpiresAt := now + globalRecoveryLease } },
      some fence)
  else (db, none)

/-- `_begin_global_recovery_mutation`: the transaction starts with the check of
`_assert_global_recovery_lease`. -/
def beginGlobalRecoveryMutation (db : Db π) (me : LeaseOwner) (fence : Option Nat)
    (now : Timestamp) : Except DeliveryError (Db π) :=
  if db.globalState.heldBy me fence now then .ok db else .error .leaseLost

/-- An update of the lease row that must find the lease held and extends it. -/
def extendGlobalRecoveryLease (db : Db π) (me : LeaseOwner) (fence : Option Nat)
    (now : Timestamp) (assign : GlobalRecoveryState → GlobalRecoveryState) :
    Except DeliveryError (Db π) :=
  if db.globalState.heldBy me fence now then
    .ok { db with
      globalState :=
        { assign db.globalState with leaseExpiresAt := now + globalRecoveryLease } }
  else .error .leaseLost

/-- `_renew_global_recovery_lease`. -/
def renewGlobalRecoveryLease (db : Db π) (me : LeaseOwner) (fence : Option Nat)
    (now : Timestamp) : Except DeliveryError (Db π) :=
  extendGlobalRecoveryLease db me fence now id

/-- `_advance_global_scan_cursor`. -/
def advanceGlobalScanCursor (db : Db π) (me : LeaseOwner) (fence : Option Nat) (id : Nat)
    (now : Timestamp) : Except DeliveryError (Db π) :=
  extendGlobalRecoveryLease db me fence now fun state =>
    { state with scanCursor := max state.scanCursor id }

/-- `_release_global_recovery_lease`. -/
def releaseGlobalRecoveryLease (db : Db π) (me : LeaseOwner) (fence : Option Nat) : Db π :=
  let state := db.globalState
  if state.leaseOwner = some me ∧ some state.leaseFence = fence then
    { db with globalState := { state with leaseOwner := none, leaseExpiresAt := 0 } }
  else db

/-- `SELECT MIN(outbox_id)` of the unpublished rows of a scope between two ids. -/
def minUnpublished (t : OutboxTable π) (scope : Scope) (low high : Nat) : Option Nat :=
  (t.rows.find? fun row =>
    row.scope = scope ∧ low ≤ row.outboxId ∧ row.outboxId ≤ high ∧ row.publishedAt = none).map
    fun row => row.outboxId

/-- `_queue_global_scope_recovery`. -/
def queueGlobalScopeRecovery (db : Db π) (row : OutboxRow π) (error : Option String)
    (attempted : Bool) (now : Timestamp) : Db π :=
  db.setGlobalLane row.scope
    (some (queueLane (db.globalLanes row.scope) row.outboxId error attempted now))

/-- What the loop of `_normalize_global_scope_recovery` makes of one lane. -/
def normalizeLane (db : Db π) (scope : Scope) (lane : ScopeRecovery) : Option ScopeRecovery :=
  (minUnpublished db.outbox scope lane.nextOutboxId db.globalState.recoveryThrough).map fun next =>
    if next ≠ lane.nextOutboxId then ⟨next, 0, 0, none⟩ else lane

/-- The transaction of `_normalize_global_scope_recovery`. -/
def normalizeGlobalScopeRecovery (db : Db π) (me : LeaseOwner) (fence : Option Nat)
    (now : Timestamp) : Except DeliveryError (Db π) := do
  let db ← beginGlobalRecoveryMutation db me fence now
  let normalized := fun scope => (db.globalLanes scope).bind (normalizeLane db scope)
  renewGlobalRecoveryLease { db with globalLanes := normalized } me fence now

/-- `_advance_global_scope_recovery`. -/
def advanceGlobalScopeRecovery (db : Db π) (row : OutboxRow π) : Db π :=
  match minUnpublished db.outbox row.scope (row.outboxId + 1) db.globalState.recoveryThrough with
  | none => db.setGlobalLane row.scope none
  | some next =>
    -- an `UPDATE`: it makes no lane where there is none
    db.setGlobalLane row.scope ((db.globalLanes row.scope).map fun _ => ⟨next, 0, 0, none⟩)

/-- `_mark_global_outbox_published`. -/
def markGlobalOutboxPublished (db : Db π) (c : ConsumerId) (me : LeaseOwner)
    (fence : Option Nat) (row : OutboxRow π) (advanceLane : Bool) (now : Timestamp) :
    Except DeliveryError (Db π) := do
  let db ← beginGlobalRecoveryMutation db me fence now
  let db := db.setPublished row.outboxId now
  let db := if advanceLane then advanceGlobalScopeRecovery db row else db
  renewGlobalRecoveryLease (db.setLegacy c row.outboxId none) me fence now

/-- `_mark_global_outbox_failed`. -/
def markGlobalOutboxFailed (db : Db π) (me : LeaseOwner) (fence : Option Nat)
    (row : OutboxRow π) (error : String) (now : Timestamp) : Except DeliveryError (Db π) := do
  let db ← beginGlobalRecoveryMutation db me fence now
  let db := queueGlobalScopeRecovery (db.setFailed row.outboxId error) row (some error) true now
  extendGlobalRecoveryLease db me fence now fun state =>
    { state with
      lastFailedOwner := some me
      failedOwnerRetryAt := now + outboxRetryDelay 1 }

/-- `_global_scope_recovery_rows`. -/
def globalScopeRecoveryRows (db : Db π) (now : Timestamp) (limit : Nat) : List (OutboxRow π) :=
  page (fun row =>
    (db.globalLanes row.scope).any fun lane =>
      lane.nextOutboxId = row.outboxId ∧ lane.nextRetryAt ≤ now) limit db.outbox.rows

/-- The rows `_flush_global_discovery_rows` fetches. -/
def undiscoveredRows (db : Db π) (scan through limit : Nat) : List (OutboxRow π) :=
  page (fun row => row.publishedAt = none ∧ scan < row.outboxId ∧ row.outboxId ≤ through) limit
    db.outbox.rows

/-! ## Pruning -/

/-- The row is referenced by a recovery row, or lies in the range a lane still
has to deliver. -/
def inRecovery (db : Db π) (row : OutboxRow π) : Bool :=
  db.consumers.any fun a =>
    (db.legacy a.consumerId row.outboxId).isSome ||
    (db.lanes a.consumerId row.scope).any fun lane =>
      lane.nextOutboxId ≤ row.outboxId ∧ row.outboxId ≤ a.cursor

/-- The transaction of `prune_outbox`. A deleted row has no legacy recovery row
that could cascade. -/
def pruneOutbox (settings : Settings) (db : Db π) (now : Timestamp) : Db π :=
  let expired := fun a : Consumer π => a.heartbeatAt + settings.consumerTtl < now
  let db := db.deleteConsumers fun a => expired a
  let safeCursor := (((db.consumers.filter fun a => ¬ expired a).map (·.cursor)).min?).getD 0
  let deletionCursor := min safeCursor (outboxReplayFloor db.outbox settings.replayWindowRows)
  let countCutoff := idAtOffset db.outbox settings.maxRows
  if 0 < deletionCursor then
    { db with
      outbox := db.outbox.filter fun row =>
        !(row.publishedAt.any fun at_ =>
          row.outboxId ≤ deletionCursor ∧
          (at_ + settings.retention < now ∨ row.outboxId ≤ countCutoff) ∧
          inRecovery db row = false) }
  else db

/-- The transaction of `aclose`. -/
def aclose (db : Db π) (c : ConsumerId) (me : LeaseOwner) : Db π :=
  let state := db.globalState
  let released :=
    if state.leaseOwner = some me then { state with leaseOwner := none, leaseExpiresAt := 0 }
    else state
  { db with globalState := released }.deleteConsumers fun a => a.consumerId = c

end Outbox.Delivery
