import EchoDesk.Outbox.Flush

/-! # What delivery promises

The three promises about the outbox, as properties of the tables, and the states
a run starts from: a database right after the migrations, in which consumers of
the release before may still have recovery rows.
-/

namespace Outbox.Delivery

open EchoDesk OrderedLog Transition

variable {π : Type}

/-- A row of the outbox that nobody marked published. -/
def Unpublished (db : Db π) (row : OutboxRow π) : Prop :=
  row ∈ db.outbox.rows ∧ row.publishedAt = none

/-- Every unpublished row up to the scan cursor is in the global lane of its
scope, at or past the head of the lane. -/
def ScannedCovered (db : Db π) : Prop :=
  ∀ row, Unpublished db row → row.outboxId ≤ db.globalState.scanCursor →
    ∃ lane, db.globalLanes row.scope = some lane ∧ lane.nextOutboxId ≤ row.outboxId

/-- The row was published to the bus of the consumer at least once. -/
def Consumer.Got (a : Consumer π) (row : OutboxRow π) : Prop :=
  ∃ sent ∈ a.bus, sent.outboxId = row.outboxId

/-- The consumer got the row, or a recovery row of it will see to that. -/
def Covered (db : Db π) (a : Consumer π) (row : OutboxRow π) : Prop :=
  a.Got row ∨
  (∃ lane, db.lanes a.consumerId row.scope = some lane ∧ lane.nextOutboxId ≤ row.outboxId) ∨
  (db.legacy a.consumerId row.outboxId).isSome

/-- Every row between the registration of the consumer and its cursor is covered. -/
def NothingLost (db : Db π) (a : Consumer π) : Prop :=
  ∀ row ∈ db.outbox.rows, a.registeredAt < row.outboxId → row.outboxId ≤ a.cursor → Covered db a row

/-- No row was published to the bus of the consumer before an earlier row of its
scope, past the registration, was. -/
def InOrder (db : Db π) (a : Consumer π) : Prop :=
  ∀ before row after, a.bus = before ++ row :: after → ∀ earlier ∈ db.outbox.rows,
    earlier.scope = row.scope → a.registeredAt < earlier.outboxId →
    earlier.outboxId < row.outboxId → ∃ sent ∈ before, sent.outboxId = earlier.outboxId

/-- The recovery rows of a consumer stand where they belong. -/
structure RecoverySound (db : Db π) (a : Consumer π) : Prop where
  cursor_le : a.cursor ≤ db.outbox.lastId
  bus_le : ∀ sent ∈ a.bus, sent.outboxId ≤ db.outbox.lastId
  lane_le : ∀ scope lane, db.lanes a.consumerId scope = some lane → lane.nextOutboxId ≤ a.cursor
  legacy_le : ∀ id, (db.legacy a.consumerId id).isSome → id ≤ a.cursor
  /-- The legacy rows of a scope come before its lane. -/
  legacy_lt : ∀ row ∈ db.outbox.rows, (db.legacy a.consumerId row.outboxId).isSome →
    ∀ lane, db.lanes a.consumerId row.scope = some lane → row.outboxId < lane.nextOutboxId
  covered : NothingLost db a

def Db.consumerIds (db : Db π) : List ConsumerId := db.consumers.map fun a => a.consumerId

/-- The consumers and their recovery rows, as the foreign and primary keys and
the work of the consumers leave them. -/
structure ConsumersSound (db : Db π) : Prop where
  unique : db.consumerIds.Nodup
  sound : ∀ a ∈ db.consumers, RecoverySound db a
  lane_owner : ∀ c scope, (db.lanes c scope).isSome → c ∈ db.consumerIds
  legacy_owner : ∀ c id, (db.legacy c id).isSome → c ∈ db.consumerIds

/-- A database right after the migration that created the global scan: its
watermark is the largest cursor, nothing was scanned, and the consumers of the
release before did their work. -/
structure Migrated (db : Db π) : Prop where
  globalState : db.globalState =
    ⟨((db.consumers.map (·.cursor)).foldr max 0), 0, none, 0, 0, none, 0⟩
  globalLanes : ∀ scope, db.globalLanes scope = none
  consumers : ConsumersSound db
  ordered : ∀ a ∈ db.consumers, InOrder db a

/-- A migrated database, and processes that have just started. -/
def Init : StatePred (St π) := fun s =>
  Migrated s.db ∧ ∀ c, ∃ incarnation, s.procs c = Proc.fresh incarnation

/-- A database with rows in the outbox that no process has read yet. -/
def Db.ofOutbox (t : OutboxTable π) : Db π :=
  ⟨t, [], fun _ _ => none, fun _ _ => none, ⟨0, 0, none, 0, 0, none, 0⟩, fun _ => none⟩

/-- The processes start over an outbox nobody has read yet. -/
def St.ofOutbox (t : OutboxTable π) : St π := ⟨.ofOutbox t, fun _ => .fresh 0⟩

theorem init_ofOutbox (t : OutboxTable π) : Init (St.ofOutbox t) := by
  refine ⟨⟨rfl, fun _ => rfl, ⟨?_, ?_, ?_, ?_⟩, ?_⟩, fun _ => ⟨0, rfl⟩⟩
  · exact List.nodup_nil
  · intro a ha
    cases ha
  · intro c scope h
    cases h
  · intro c id h
    cases h
  · intro a ha
    cases ha

end Outbox.Delivery
