import EchoDesk.Foundations.Transition
import EchoDesk.Hub.Store
import Mathlib.Data.List.Chain

/-! # Optimistic concurrency of pushes

A push is one transaction under `BEGIN IMMEDIATE`, so the pushes of all devices
form a sequence. `Pushed` lists what one of them can do; the invariant of the
event log follows from it: the cursors of a scope count up from 1, the revisions
of an entity count up by one, and every event belongs to one operation.
-/

namespace Hub

open EchoDesk Transaction OrderedLog Transition List Table

variable {δ : Type}
variable {request : PushRequest} {outcome : Except SyncHubError PushResult}

/-! ## What a push can do -/

/-- The event of an applied push. -/
def PushRequest.event (request : PushRequest) (principal : Principal) (cursor revision : Nat)
    (canonical : Dict) : SyncEvent where
  cursor := cursor
  sourceDeviceId := principal.deviceId
  entityType := request.entityType
  entityId := request.entityId
  revision := revision
  updatedAt := request.updatedAt
  payload := canonical
  scope := principal.scope

/-- The operation id is new to the hub. -/
def HubDb.Unknown (db : HubDb δ) (operationId : String) : Prop :=
  ∀ operation ∈ db.operations, operation.operationId ≠ operationId

/-- The four ways a push ends. -/
inductive Pushed (adapter : Adapter δ) (principal : Principal) (request : PushRequest)
    (db : HubDb δ) : Except SyncHubError PushResult → HubDb δ → Prop
  /-- It raises, and the transaction is rolled back. -/
  | raised (e : SyncHubError) : Pushed adapter principal request db (.error e) db
  /-- The operation is known: its recorded outcome is repeated as a duplicate. -/
  | replayed (operation : SyncOperation) (hmem : operation ∈ db.operations)
      (hid : operation.operationId = request.operationId)
      (hscope : operation.scope = principal.scope) :
      Pushed adapter principal request db
        (.ok ⟨.duplicate, operation.revision, operation.cursor, operation.current⟩) db
  /-- The base revision is not the current one. -/
  | conflicting (current : Nat × Nat × Option Dict)
      (operations : Table SyncOperation SyncOperation.conflict)
      (hcurrent : db.currentEntity adapter principal.scope request.entityType request.entityId =
        .ok current)
      (hbase : request.baseRevision ≠ current.1) (hnew : db.Unknown request.operationId)
      (hop : db.operations.insert? (request.operation principal .conflict current.1
        (some current.2.1) current.2.2) = some operations) :
      Pushed adapter principal request db
        (.ok ⟨.conflict, current.1, some current.2.1, current.2.2⟩)
        { db with operations := operations }
  /-- The payload is written, and its event and operation are recorded. -/
  | applied (current : Nat × Nat × Option Dict) (canonical : Dict) (tables : δ)
      (events : Table SyncEvent SyncEvent.conflict)
      (operations : Table SyncOperation SyncOperation.conflict)
      (hcurrent : db.currentEntity adapter principal.scope request.entityType request.entityId =
        .ok current)
      (hbase : request.baseRevision = current.1) (hnew : db.Unknown request.operationId)
      (happly : adapter.applyEntity principal request.entityType request.entityId request.payload
        (current.1 + 1) request.updatedAt current.2.2 db.tables = (.ok canonical, tables))
      (hevent : db.events.insert? (request.event principal (db.nextCursor principal.scope)
        (current.1 + 1) canonical) = some events)
      (hop : db.operations.insert? (request.operation principal .applied (current.1 + 1)
        (some (db.nextCursor principal.scope)) (some canonical)) = some operations) :
      Pushed adapter principal request db
        (.ok ⟨.applied, current.1 + 1, some (db.nextCursor principal.scope), none⟩)
        (HubDb.advanceDeviceCursor ⟨events, operations, db.deviceCursors, tables⟩ principal
          (db.nextCursor principal.scope) request.updatedAt)

variable {db db' : HubDb δ} {adapter : Adapter δ} {principal : Principal}

theorem insertOperation_cases {operation : SyncOperation} {u : Unit}
    (h : Returns (insertOperation operation) db u db') :
    ∃ operations, db.operations.insert? operation = some operations ∧
      db' = { db with operations := operations } := by
  simp only [insertOperation, returns_get_bind] at h
  split at h
  · rename_i operations hins
    rw [returns_set] at h
    exact ⟨operations, hins, h.symm⟩
  · exact (returns_throw.1 h).elim

theorem insertEvent_cases {event : SyncEvent} {u : Unit}
    (h : Returns (insertEvent event) db u db') :
    ∃ events, db.events.insert? event = some events ∧ db' = { db with events := events } := by
  simp only [insertEvent, returns_get_bind] at h
  split at h
  · rename_i events hins
    rw [returns_set] at h
    exact ⟨events, hins, h.symm⟩
  · exact (returns_throw.1 h).elim

theorem applyEntity_cases {revision : Nat} {current : Option Dict} {canonical : Dict}
    (h : Returns (applyEntity adapter principal request revision current) db canonical db') :
    ∃ tables, adapter.applyEntity principal request.entityType request.entityId request.payload
        revision request.updatedAt current db.tables = (.ok canonical, tables) ∧
      db' = { db with tables := tables } := by
  simp only [applyEntity, returns_bind, returns_get, returns_set] at h
  obtain ⟨_, _, ⟨rfl, rfl⟩, _, _, rfl, h⟩ := h
  split at h
  · rename_i canonical' hok
    obtain ⟨rfl, rfl⟩ := returns_pure.1 h
    exact ⟨_, Prod.ext hok rfl, rfl⟩
  · exact (returns_throw.1 h).elim

/-- The transaction of a push that runs to its end. -/
theorem pushTx_cases {exit : Exit PushResult}
    (h : Returns (pushTx adapter principal request) db exit db') :
    ∃ result, exit = .commit result ∧ Pushed adapter principal request db (.ok result) db' := by
  simp only [pushTx, returns_get_bind] at h
  split at h
  · rename_i operation hfound
    obtain ⟨hmem, hid⟩ := mem_of_lookup hfound
    split at h
    · exact (returns_throw.1 h).elim
    rename_i hscope
    obtain ⟨rfl, rfl⟩ := returns_pure.1 h
    exact ⟨_, rfl, .replayed operation hmem (of_decide_eq_true hid) (not_not.1 hscope)⟩
  rename_i hfound
  have hnew : db.Unknown request.operationId := fun operation hmem =>
    of_decide_eq_false (lookup_eq_none.1 hfound operation hmem)
  obtain ⟨current, _, hread, h⟩ := returns_bind.1 h
  obtain ⟨hcurrent, rfl⟩ := returns_fromExcept.1 hread
  split at h
  · rename_i hbase
    obtain ⟨_, _, hop, h⟩ := returns_bind.1 h
    obtain ⟨rfl, rfl⟩ := returns_pure.1 h
    obtain ⟨operations, hins, rfl⟩ := insertOperation_cases hop
    exact ⟨_, rfl, .conflicting _ operations hcurrent hbase hnew hins⟩
  rename_i hbase
  simp only [returns_bind, returns_get, returns_set, returns_pure] at h
  obtain ⟨canonical, _, happly, _, _, ⟨rfl, rfl⟩, _, _, hev, _, _, hop, _, _,
    ⟨rfl, rfl⟩, _, _, rfl, rfl, rfl⟩ := h
  obtain ⟨tables, hwrite, rfl⟩ := applyEntity_cases happly
  obtain ⟨events, hevent, rfl⟩ := insertEvent_cases hev
  obtain ⟨operations, hins, rfl⟩ := insertOperation_cases hop
  exact ⟨_, rfl, .applied _ canonical tables events operations hcurrent (not_not.1 hbase) hnew
    hwrite hevent hins⟩

/-- Every push ends in one of the four ways. -/
theorem push_pushed (adapter : Adapter δ) (principal : Principal) (request : PushRequest)
    (db : HubDb δ) :
    Pushed adapter principal request db (push adapter principal request db).1
      (push adapter principal request db).2 := by
  unfold push
  split
  · exact .raised _
  split
  · exact .raised _
  unfold atomically
  rcases hrun : (pushTx adapter principal request).run.run db with ⟨e | exit, db'⟩
  · exact .raised e
  · obtain ⟨result, rfl, h⟩ := pushTx_cases (show Returns _ db exit db' from hrun)
    exact h

/-! ## The event log -/

/-- The events of one entity, `ORDER BY cursor ASC`. -/
def HubDb.entityEvents (db : HubDb δ) (scope : Scope) (entityType : SyncEntityType)
    (entityId : String) : List SyncEvent :=
  (db.eventsOf scope).filter fun event =>
    event.entityType = entityType ∧ event.entityId = entityId

/-- The operation was applied with this event. -/
structure SyncOperation.Produced (operation : SyncOperation) (event : SyncEvent) : Prop where
  status : operation.status = .applied
  scope : operation.scope = event.scope
  cursor : operation.cursor = some event.cursor
  entityType : operation.entityType = event.entityType
  entityId : operation.entityId = event.entityId

structure EventsSound (db : HubDb δ) : Prop where
  /-- The cursors of a scope are 1, 2, 3, … -/
  dense : ∀ scope, Dense (fun event : SyncEvent => event.cursor) (db.eventsOf scope)
  /-- The revisions of an entity count up by one. -/
  chain : ∀ scope entityType entityId, (db.entityEvents scope entityType entityId).IsChain
    fun a b => b.revision = a.revision + 1
  /-- Every event comes from an operation with the revision before it as its base. -/
  produced : ∀ event ∈ db.events, ∃ operation ∈ db.operations,
    operation.Produced event ∧ event.revision = operation.baseRevision + 1

/-- Operations with one id produced at most one event. -/
def ProducedOnce (db : HubDb δ) : Prop :=
  ∀ operation ∈ db.operations, ∀ operation' ∈ db.operations, ∀ event ∈ db.events,
    ∀ event' ∈ db.events, operation.operationId = operation'.operationId →
    operation.Produced event → operation'.Produced event' → event = event'

/-- What a push leaves alone, by how it ends. -/
structure PushFrame (adapter : Adapter δ) (db : HubDb δ) (principal : Principal)
    (request : PushRequest) : Prop where
  /-- A push that raises leaves every table as it was. -/
  raised : ∀ e, (push adapter principal request db).1 = .error e →
    (push adapter principal request db).2 = db
  /-- A replayed or conflicting operation changes no entity table and no event. -/
  refused : ∀ result, (push adapter principal request db).1 = .ok result →
    result.status ≠ .applied → (push adapter principal request db).2.tables = db.tables ∧
      (push adapter principal request db).2.events = db.events
  /-- An operation the hub knows appends no event. -/
  known : (∃ operation ∈ db.operations, operation.operationId = request.operationId) →
    (push adapter principal request db).2.events = db.events

instance : Std.Symm SyncEvent.conflict := ⟨fun _ _ h => ⟨h.1.symm, h.2.symm⟩⟩

instance : Std.Symm SyncOperation.conflict := ⟨fun _ _ h => Eq.symm h⟩

/-- Both ends of `Produced` are determined by the unique keys. -/
theorem producedOnce (db : HubDb δ) : ProducedOnce db := by
  intro operation hop operation' hop' event hev event' hev' hid hprod hprod'
  obtain rfl : operation = operation' := eq_of_conflict hop hop' hid
  have hcursor : event.cursor = event'.cursor :=
    Option.some.inj (hprod.cursor.symm.trans hprod'.cursor)
  exact eq_of_conflict hev hev' ⟨hprod.scope.symm.trans hprod'.scope, hcursor⟩

theorem Pushed.frame (h : Pushed adapter principal request db outcome db') :
    (∀ e, outcome = .error e → db' = db) ∧
      (∀ result, outcome = .ok result → result.status ≠ .applied →
        db'.tables = db.tables ∧ db'.events = db.events) ∧
      ((∃ operation ∈ db.operations, operation.operationId = request.operationId) →
        db'.events = db.events) := by
  cases h with
  | raised | replayed => exact ⟨fun _ _ => rfl, fun _ _ _ => ⟨rfl, rfl⟩, fun _ => rfl⟩
  | conflicting => exact ⟨fun e he => (by cases he), fun _ _ _ => ⟨rfl, rfl⟩, fun _ => rfl⟩
  | applied current canonical tables events operations _ _ hnew =>
    refine ⟨fun e he => (by cases he), fun result hok hstatus => ?_, fun hknown => ?_⟩
    · cases hok
      exact absurd rfl hstatus
    · obtain ⟨operation, hmem, hid⟩ := hknown
      exact absurd hid (hnew operation hmem)

theorem pushFrame (adapter : Adapter δ) (db : HubDb δ) (principal : Principal)
    (request : PushRequest) : PushFrame adapter db principal request := by
  obtain ⟨hraised, hrefused, hknown⟩ := (push_pushed adapter principal request db).frame
  exact ⟨hraised, hrefused, hknown⟩

/-- An applied event extends the log of its scope, and no other. -/
theorem eventsOf_append {db db' : HubDb δ} {event : SyncEvent}
    (h : db'.events.rows = db.events.rows ++ [event]) (scope : Scope) :
    db'.eventsOf scope = db.eventsOf scope ++ if event.scope = scope then [event] else [] := by
  simp only [HubDb.eventsOf, h, filter_append]
  by_cases hs : event.scope = scope <;> simp [hs]

theorem entityEvents_append {db db' : HubDb δ} {event : SyncEvent}
    (h : db'.events.rows = db.events.rows ++ [event]) (scope : Scope)
    (entityType : SyncEntityType) (entityId : String) :
    db'.entityEvents scope entityType entityId = db.entityEvents scope entityType entityId ++
      if event.scope = scope ∧ event.entityType = entityType ∧ event.entityId = entityId then
        [event] else [] := by
  rw [HubDb.entityEvents, eventsOf_append h, filter_append]
  congr 1
  by_cases hs : event.scope = scope
  · simp only [hs, true_and]
    by_cases he : event.entityType = entityType ∧ event.entityId = entityId <;> simp [he]
  · simp [hs]

/-- One push keeps the event log sound. -/
theorem eventsSound_push (adapter : Adapter δ) (principal : Principal) (request : PushRequest)
    (hs : EventsSound db) :
    EventsSound (push adapter principal request db).2 := by
  have h := push_pushed adapter principal request db
  generalize push adapter principal request db = out at h
  obtain ⟨outcome, db'⟩ := out
  cases h with
  | raised e | replayed => exact hs
  | conflicting current operations _ _ _ hop =>
    refine ⟨hs.dense, hs.chain, fun event hev => ?_⟩
    obtain ⟨operation, hmem, hprod⟩ := hs.produced event hev
    exact ⟨operation, (mem_insert? hop).2 (.inl hmem), hprod⟩
  | applied current canonical tables events operations hcurrent hbase hnew happly hevent hop =>
    have hrows := rows_of_insert? hevent
    refine ⟨fun scope => ?_, fun scope entityType entityId => ?_, fun event hev => ?_⟩
    · rw [@eventsOf_append _ db _ _ hrows]
      split
      · rename_i hscope
        exact (hs.dense scope).concat (by rw [← hscope]; rfl)
      · rw [append_nil]
        exact hs.dense scope
    · rw [@entityEvents_append _ db _ _ hrows]
      split
      · rename_i he
        obtain ⟨rfl, rfl, rfl⟩ := he
        refine (hs.chain _ _ _).append (isChain_singleton _) fun last hlast next hnext => ?_
        rw [head?_cons, Option.mem_some_iff] at hnext
        -- the new revision is the one after the latest event
        have hlatest : db.latestEvent principal.scope request.entityType request.entityId =
            some last := hlast
        simp only [HubDb.currentEntity, hlatest] at hcurrent
        rw [← hnext, ← Except.ok.inj hcurrent]
        rfl
      · rw [append_nil]
        exact hs.chain scope entityType entityId
    · rcases (mem_insert? hevent).1 hev with hold | rfl
      · obtain ⟨operation, hmem, hprod⟩ := hs.produced event hold
        exact ⟨operation, (mem_insert? hop).2 (.inl hmem), hprod⟩
      · exact ⟨_, (mem_insert? hop).2 (.inr rfl), ⟨rfl, rfl, rfl, rfl, rfl⟩,
          congrArg (· + 1) hbase.symm⟩

/-! ## The answers -/

/-- The event log has an event that the operation produced. -/
def Synced (db : HubDb δ) (operationId : String) : Prop :=
  ∃ operation ∈ db.operations, operation.operationId = operationId ∧
    ∃ event ∈ db.events, operation.Produced event

/-- Every operation the hub knows is a conflict or produced an event. -/
def OperationsSound (db : HubDb δ) : Prop :=
  ∀ operation ∈ db.operations,
    operation.status = .conflict ∨ ∃ event ∈ db.events, operation.Produced event

section

variable (h : Pushed adapter principal request db outcome db')

include h

/-- A push removes no operation and no event. -/
theorem Pushed.grows : (∀ operation ∈ db.operations, operation ∈ db'.operations) ∧
      ∀ event ∈ db.events, event ∈ db'.events := by
  cases h with
  | raised | replayed => exact ⟨fun _ h => h, fun _ h => h⟩
  | conflicting _ operations _ _ _ hop =>
    exact ⟨fun _ h => (mem_insert? hop).2 (.inl h), fun _ h => h⟩
  | applied _ _ _ _ _ _ _ _ _ hevent hop =>
    exact ⟨fun _ h => (mem_insert? hop).2 (.inl h), fun _ h => (mem_insert? hevent).2 (.inl h)⟩

theorem Pushed.synced {operationId : String}
    (hs : Synced db operationId) : Synced db' operationId := by
  obtain ⟨operation, hop, hid, event, hev, hprod⟩ := hs
  exact ⟨operation, h.grows.1 operation hop, hid, event, h.grows.2 event hev, hprod⟩

/-- The operation an applied push inserts produced the event it inserts. -/
theorem Pushed.operationsSound
    (hs : OperationsSound db) : OperationsSound db' := by
  intro operation hmem
  have hold : operation ∈ db.operations →
      operation.status = .conflict ∨ ∃ event ∈ db'.events, operation.Produced event := by
    intro hop
    rcases hs operation hop with hconflict | ⟨event, hev, hprod⟩
    · exact .inl hconflict
    · exact .inr ⟨event, h.grows.2 event hev, hprod⟩
  cases h with
  | raised | replayed => exact hold hmem
  | conflicting _ operations _ _ _ hop =>
    rcases (mem_insert? hop).1 hmem with hmem | rfl
    · exact hold hmem
    · exact .inl rfl
  | applied _ _ _ _ _ _ _ _ _ hevent hop =>
    rcases (mem_insert? hop).1 hmem with hmem | rfl
    · exact hold hmem
    · exact .inr ⟨_, (mem_insert? hevent).2 (.inr rfl), rfl, rfl, rfl, rfl, rfl⟩

end

/-- An answer other than `conflict` is about an operation that produced an event,
unless it repeats a recorded conflict. -/
theorem Pushed.synced_of_answer {result : PushResult}
    (h : Pushed adapter principal request db (.ok result) db') (hs : OperationsSound db)
    (hreplay : ∀ operation ∈ db.operations, operation.operationId = request.operationId →
      operation.status ≠ .conflict) (hstatus : result.status ≠ .conflict) :
    Synced db' request.operationId := by
  cases h with
  | replayed operation hmem hid hscope =>
    rcases hs operation hmem with hconflict | hevent
    · exact absurd hconflict (hreplay operation hmem hid)
    · exact ⟨operation, hmem, hid, hevent⟩
  | conflicting => exact absurd rfl hstatus
  | applied _ _ _ _ _ _ _ _ _ hevent hop =>
    exact ⟨_, (mem_insert? hop).2 (.inr rfl), rfl, _,
      (mem_insert? hevent).2 (.inr rfl), rfl, rfl, rfl, rfl, rfl⟩

/-! ## Every sequence of pushes -/

/-- A hub without sync history over its business tables. -/
def HubDb.fresh (tables : δ) : HubDb δ := ⟨Table.empty, Table.empty, [], tables⟩

/-- The hub after a push of some device. -/
def pushStep (adapter : Adapter δ) (db : HubDb δ) (l : Principal × PushRequest) : HubDb δ :=
  (push adapter l.1 l.2 db).2

theorem eventsSound_fresh (tables : δ) : EventsSound (HubDb.fresh tables) :=
  ⟨fun _ => Dense.nil, fun _ _ _ => isChain_nil, fun event h => absurd h (not_mem_empty event)⟩

/-- Every sequence of pushes keeps the event log sound. -/
theorem eventsSound_run (adapter : Adapter δ) (tables : δ)
    (trace : List (Principal × PushRequest)) :
    EventsSound (run (pushStep adapter) (.fresh tables) trace) := by
  have hstep : ∀ db l, EventsSound db → EventsSound (pushStep adapter db l) := fun _ l hs =>
    eventsSound_push adapter l.1 l.2 hs
  exact run_invariant hstep (eventsSound_fresh tables) trace

/-- After any sequence of pushes of any devices: the cursors of a scope are 1 to n,
the revisions of an entity form a chain over the base revisions, an operation id
has at most one event, and a push that is refused or raises leaves the tables. -/
theorem pushes_sound (adapter : Adapter δ) (tables : δ) (trace : List (Principal × PushRequest)) :
    EventsSound (run (pushStep adapter) (.fresh tables) trace) ∧
      ProducedOnce (run (pushStep adapter) (.fresh tables) trace) ∧
      ∀ principal request,
        PushFrame adapter (run (pushStep adapter) (.fresh tables) trace) principal request :=
  ⟨eventsSound_run adapter tables trace, producedOnce _, pushFrame adapter _⟩

end Hub
