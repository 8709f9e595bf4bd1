import EchoDesk.Agents.ProjectionSteps

/-! # The agent service as a system

Workers claim and project logged events, and any of them may stop between two of its statements.
Beside them events are recorded, tasks are created and the other transactions of the database run.
A lease that expired is taken over by the next claim; nothing tells the worker that lost it.

The state also remembers which deliveries were appended to which run, and which domain events the
acknowledgements appended.
-/

namespace Agents

open EchoDesk Workflow Transaction Runtime Outbox

/-! ## Transactions of others -/

/-- An operation of the workflow service that delivers no agent event and writes no table of the
agent service. The write of `create_run` is that of `create_run_atomic`. -/
abbrev PlainOp : Type := { op : Op AgentTables // op.Plain fun tables tables' => tables = tables' }

/-- Another update of `agent_tasks`: the answer of a runner, or the end of a bridge. -/
structure TaskUpdate where
  key : TaskKey
  alsoWhere : AgentTaskRow → Bool
  assign : AgentTaskRow → AgentTaskRow
  keeps : ∀ row, (assign row).key = row.key ∧ (assign row).workflowRunId = row.workflowRunId

/-- The tables a database starts with: no event is logged, and tasks from before the workflow runs
are linked to none. -/
structure LegacyTables where
  tasks : Table AgentTaskRow AgentTaskRow.conflict
  meetings : Scope → String → Bool
  unlinked : ∀ row ∈ tasks, row.workflowRunId = none

/-! ## The state -/

inductive Phase where
  /-- The statements of `_project_workflow_event` that are left; after them comes the
  acknowledgement. -/
  | running (todo : List Statement)
  /-- The `finally` block. -/
  | releasing

/-- A projection in flight. -/
structure Projection extends Attempt where
  phase : Phase

/-- A delivery that was appended: the event it stands for, and the run. -/
structure Delivery where
  scope : Scope
  id : DeliveryId
  run : RunKey

structure Sys where
  db : Db AgentTables
  /-- The projections in flight, and the number of the next one. -/
  projections : Nat → Option Projection
  nextProjection : Nat
  /-- The creations in flight, and the number of the next one. -/
  creations : Nat → Option Creation
  nextCreation : Nat
  /-- The deliveries that were appended, oldest first. -/
  delivered : List Delivery
  /-- The domain events that were appended, each with the event it stands for, oldest first. -/
  published : List (EventKey × EchoEvent)

def Sys.start (tables : LegacyTables) : Sys where
  db := Db.empty
    { tasks := tables.tasks, events := Table.empty, commands := Table.empty
      meetings := tables.meetings }
  projections _ := none
  nextProjection := 0
  creations _ := none
  nextCreation := 0
  delivered := []
  published := []

inductive Lbl where
  /-- A worker calls `_project_event`. -/
  | claim (ctx : Context) (holderId : String) (ttlSeconds : Nat)
      (taskLease : Option (LeaseToken Timestamp)) (taskId : String) (seq : Nat)
  /-- The next transaction of a projection, at a time and with an answer of the world. -/
  | advance (id : Nat) (now leaseNow : Timestamp) (reply : Reply)
  /-- The worker of a projection stops, and releases nothing. -/
  | crash (id : Nat)
  | record (ctx : Context) (args : RecordArgs) (event : EchoTaskEvent)
  | create (call : Creation)
  | advanceCreation (id : Nat)
  | dropCreation (id : Nat)
  | updateTask (update : TaskUpdate)
  | updateCommands (selected : AgentCommandRow → Bool) (assign : AgentCommandRow → AgentCommandRow)
  | workflow (ctx : Context) (op : PlainOp)
  /-- A claim of another lease, also one that `_claim_event_projection` would make. -/
  | acquire (ctx : Context) (key : LeaseKey) (holderId : String) (ttlSeconds : Nat)
  /-- A heartbeat. -/
  | renew (ctx : Context) (lease : LeaseToken Timestamp) (ttlSeconds : Nat)
  | release (ctx : Context) (lease : LeaseToken Timestamp)
  /-- A flush or a prune changes the outbox. Ids are never given out again. -/
  | outbox (table : OutboxTable OutboxPayload)

/-! ## The steps -/

variable (lib : Library) (settings : Settings)

def Sys.setProjection (s : Sys) (id : Nat) (p : Option Projection) : Sys :=
  { s with projections := Function.update s.projections id p }

def Sys.setCreation (s : Sys) (id : Nat) (call : Option Creation) : Sys :=
  { s with creations := Function.update s.creations id call }

/-- The delivery a statement appended. -/
def Attempt.deliveryOf (a : Attempt) (appended : Option DeliveryId) : List Delivery :=
  match appended, a.record.run? with
  | some id, some run => [⟨a.record.scope, id, run⟩]
  | _, _ => []

/-- The phase after a statement. -/
def phaseAfter (next : Except WorkflowError (List Statement)) (rest : List Statement) : Phase :=
  match next with
  | .ok next => .running (next ++ rest)
  | .error _ => .releasing

/-- The next transaction of a projection. -/
def Sys.advance (s : Sys) (id : Nat) (p : Projection) (ctx : Context) (reply : Reply) : Sys :=
  match p.phase with
  | .running (st :: rest) =>
    let r := p.exec lib ctx reply s.db st
    { s.setProjection id (some { p with phase := phaseAfter r.next rest }) with
      db := r.db, delivered := s.delivered ++ p.deliveryOf r.appended }
  | .running [] =>
    match atomically (acknowledge lib ctx p.toAttempt) s.db with
    | (.ok events, db) =>
      { s.setProjection id (some { p with phase := .releasing }) with
        db := db, published := s.published ++ events.map fun event => (p.key, event) }
    | (.error _, db) => { s.setProjection id (some { p with phase := .releasing }) with db := db }
  | .releasing =>
    { s.setProjection id none with db := (atomically (releaseRunLease ctx p.lease) s.db).2 }

/-- A worker enters `_project_event`. -/
def Sys.claim (s : Sys) (ctx : Context) (holderId : String) (ttlSeconds : Nat)
    (taskLease : Option (LeaseToken Timestamp)) (key : EventKey) : Sys :=
  match atomically (claimEventProjection lib ctx holderId ttlSeconds taskLease key) s.db with
  | (.ok (.claimed lease stored record), db) =>
    let a : Attempt := { ctx := ctx, key := key, lease := lease, stored := stored, record := record }
    { s.setProjection s.nextProjection (some { a with phase := .running a.program }) with
      db := db, nextProjection := s.nextProjection + 1 }
  | (_, db) => { s with db := db }

/-- The transaction of another lease. -/
def acquireLease (ctx : Context) (key : LeaseKey) (holderId : String) (ttlSeconds : Nat) :
    AgentTx (Exit (Option (LeaseToken Timestamp))) := do
  let db ← get
  match Runtime.acquire db.leases ctx.leaseNow key holderId ttlSeconds with
  | .error e => throw (.lease e)
  | .ok (lease, leases) => do
    set { db with leases := leases }
    return .commit lease

/-- A transaction whose result nobody in the system waits for. -/
def Sys.transact {α : Type} (s : Sys) (body : AgentTx (Exit α)) : Sys :=
  { s with db := (atomically body s.db).2 }

def step (s : Sys) : Lbl → Sys
  | .claim ctx holderId ttlSeconds taskLease taskId seq =>
    s.claim lib ctx holderId ttlSeconds taskLease ⟨⟨ctx.scope, taskId⟩, seq⟩
  | .advance id now leaseNow reply =>
    match s.projections id with
    | none => s
    | some p => s.advance lib id p { p.ctx with now := now, leaseNow := leaseNow } reply
  | .crash id => s.setProjection id none
  | .record ctx args event => s.transact (recordTaskEvent lib ctx args event)
  | .create call =>
    { s.setCreation s.nextCreation (some { call with phase := .lookupTask }) with
      nextCreation := s.nextCreation + 1 }
  | .advanceCreation id =>
    match s.creations id with
    | none => s
    | some call =>
      let next := call.advance lib settings s.db
      { s.setCreation id next.1 with db := next.2 }
  | .dropCreation id => s.setCreation id none
  | .updateTask update => s.transact do
      let _ ← updateTask update.key update.alsoWhere update.assign
      return .commit ()
  | .updateCommands selected assign => s.transact do
      let _ ← updateCommands selected assign
      return .commit ()
  | .workflow ctx op => { s with db := (op.1.exec ctx s.db).2 }
  | .acquire ctx key holderId ttlSeconds => s.transact (acquireLease ctx key holderId ttlSeconds)
  | .renew ctx lease ttlSeconds => s.transact (renewRunLease ctx lease ttlSeconds)
  | .release ctx lease => s.transact (releaseRunLease ctx lease)
  | .outbox table =>
    if s.db.outbox.lastId ≤ table.lastId then { s with db := { s.db with outbox := table } } else s

end Agents
