import EchoDesk.Foundations.Transition
import EchoDesk.Workflow.Operations

/-! # The workflow service as a system

Any number of callers run the operations of `WorkflowService` against one
database. An operation whose reads and writes share a write transaction is one
step. `create_run` reads outside its transaction: it is a call in flight that
takes one step for each of its statements, and so is the creation of an agent
task, which runs the same statements and writes the task with the run.

The state also remembers what the claims about runs speak of: what `create_run`
returned, which events `complete_new_run_atomic` appended, and which lease
tokens were handed out.
-/

namespace Workflow

open EchoDesk Transaction Transition OrderedLog Outbox Runtime

variable {δ : Type}

/-! ## Operations in one transaction -/

/-- The callers of `_set_state`. -/
inductive StateCall where
  | startRun
  | completeRun (output : Option Dict) (message : Option String)
  | completeRunAtomic (output : Dict) (message : String)
  | failRun (error : String) (payload : Option Dict)
  | timeoutRun (error : String)
  | requestCancel (reason : Option String)
  | markCancelled (message : String)
  | markCancelFailed (error : String)

/-- The arguments a caller passes on to `_set_state`. -/
def StateCall.change : StateCall → StateChange
  | .startRun => Workflow.startRun
  | .completeRun output message => Workflow.completeRun output message
  | .completeRunAtomic output message => Workflow.completeRunAtomic output message
  | .failRun error payload => Workflow.failRun error payload
  | .timeoutRun error => Workflow.timeoutRun error
  | .requestCancel reason => Workflow.requestCancel reason
  | .markCancelled message => Workflow.markCancelled message
  | .markCancelFailed error => Workflow.markCancelFailed error

theorem StateCall.eventType_mem (call : StateCall) : call.change.eventType ∈ stateEventTypes := by
  cases call <;> simp [change, Workflow.startRun, Workflow.completeRun, Workflow.completeRunAtomic,
    Workflow.failRun, Workflow.timeoutRun, Workflow.requestCancel, Workflow.markCancelled,
    Workflow.markCancelFailed, stateEventTypes]

/-- An operation that is one transaction. Those of a caller-owned transaction
come with the caller's own writes before and after them. -/
inductive Op (δ : Type) where
  | createRunAtomic (body : WorkflowRunCreate) (domainWriter : DomainWriter δ) (runId : String)
      (parentRunId : Option String) (attempt : Nat)
  | recordEvent (runId eventType : String) (message : Option String) (payload : Dict)
      (visibility : WorkflowVisibility) (lease : Option (LeaseToken Timestamp))
  | recordAgentDeliveryOnce (before : DomainWriter δ) (runId deliveryKey eventType : String)
      (message : Option String) (payload : Dict) (visibility : WorkflowVisibility)
      (after : Bool → DomainWriter δ)
  | mergeAgentOutputOnce (before : DomainWriter δ) (runId deliveryKey : String) (patch : Dict)
      (eventType message : String) (after : Bool → DomainWriter δ)
  | mergeOutput (runId : String) (patch : Dict) (eventType : String) (message : Option String)
      (mergeStrategy : Option (Dict → Dict → Dict)) (lease : Option (LeaseToken Timestamp))
  | commitRunProgressAtomic (runId : String) (output : Dict) (domainWriter : DomainWriter δ)
      (domainEvents : List EchoEvent) (eventType message : String)
      (lease : Option (LeaseToken Timestamp))
  | setState (runId : String) (call : StateCall) (domainWriter : Option (DomainWriter δ))
      (domainEvents : List EchoEvent) (lease : Option (LeaseToken Timestamp))
  | completeNewRunAtomic (body : WorkflowRunCreate) (newRunId : String) (output : Dict)
      (domainWriter : DomainWriter δ) (domainEvents : List EchoEvent) (message : String)
  | requestCancelInTransaction (before : DomainWriter δ) (runId : String)
      (reason : Option String) (after : Option RunRow → DomainWriter δ)
  | settleAgentTerminal (before : DomainWriter δ) (runId : String) (state : WorkflowState)
      (message : Option String) (output payload : Option Dict)
      (after : Option RunRow → DomainWriter δ)
  | retryRun (runId newRunId : String) (reason : Option String)
      (domainWriter : Option (WorkflowRunRecord → DomainWriter δ))
  | projectActiveRun (runId : String) (domainWriter : WorkflowRunRecord → DomainWriter δ)
      (lease : Option (LeaseToken Timestamp))
  /-- A transaction of another subsystem. -/
  | domain (writer : DomainWriter δ)

/-- The outcome of a transaction without its value. -/
def outcome {α : Type} (result : Except WorkflowError α × Db δ) :
    Except WorkflowError Unit × Db δ :=
  (result.1.map fun _ => (), result.2)

/-- Run an operation: whether it raises, and the database it leaves. -/
def Op.exec [DomainTables δ] (ctx : Context) (op : Op δ) (db : Db δ) :
    Except WorkflowError Unit × Db δ :=
  match op with
  | .createRunAtomic body domainWriter runId parentRunId attempt =>
    outcome (atomically (Workflow.createRunAtomic ctx body domainWriter runId parentRunId attempt)
      db)
  | .recordEvent runId eventType message payload visibility lease =>
    outcome (atomically (Workflow.recordEvent ctx runId eventType message payload visibility
      lease) db)
  | .recordAgentDeliveryOnce before runId deliveryKey eventType message payload visibility after =>
    outcome (atomically (inUnitOfWork ctx before (recordAgentDeliveryOnceInTransaction ctx runId
      deliveryKey eventType message payload visibility) after) db)
  | .mergeAgentOutputOnce before runId deliveryKey patch eventType message after =>
    outcome (atomically (inUnitOfWork ctx before (mergeAgentOutputOnceInTransaction ctx runId
      deliveryKey patch eventType message) after) db)
  | .mergeOutput runId patch eventType message mergeStrategy lease =>
    outcome (atomically (Workflow.mergeOutput ctx runId patch eventType message mergeStrategy
      lease) db)
  | .commitRunProgressAtomic runId output domainWriter domainEvents eventType message lease =>
    outcome (atomically (Workflow.commitRunProgressAtomic ctx runId output domainWriter domainEvents
      eventType message lease) db)
  | .setState runId call domainWriter domainEvents lease =>
    outcome (atomically (Workflow.setState ctx runId call.change domainWriter domainEvents
      lease) db)
  | .completeNewRunAtomic body newRunId output domainWriter domainEvents message =>
    outcome (atomically (Workflow.completeNewRunAtomic ctx body newRunId output domainWriter
      domainEvents message) db)
  | .requestCancelInTransaction before runId reason after =>
    outcome (atomically (inUnitOfWork ctx before (Workflow.requestCancelInTransaction ctx runId
      reason) after) db)
  | .settleAgentTerminal before runId state message output payload after =>
    outcome (atomically (inUnitOfWork ctx before (settleAgentTerminalInTransaction ctx runId state
      message output payload) after) db)
  | .retryRun runId newRunId reason domainWriter =>
    outcome (atomically (Workflow.retryRun ctx runId newRunId reason domainWriter) db)
  | .projectActiveRun runId domainWriter lease =>
    outcome (atomically (Workflow.projectActiveRun ctx runId domainWriter lease) db)
  | .domain writer =>
    outcome (atomically (inUnitOfWork ctx writer (pure ()) fun _ db => { tables := db.domain }) db)

/-- The run and the explicit lease of an operation that asserts ownership. -/
def Op.asserted : Op δ → Option (String × Option (LeaseToken Timestamp))
  | .recordEvent runId _ _ _ _ lease => some (runId, lease)
  | .mergeOutput runId _ _ _ _ lease => some (runId, lease)
  | .commitRunProgressAtomic runId _ _ _ _ _ lease => some (runId, lease)
  | .setState runId _ _ _ lease => some (runId, lease)
  | .requestCancelInTransaction _ runId _ _ => some (runId, none)
  | .settleAgentTerminal _ runId _ _ _ _ _ => some (runId, none)
  | .projectActiveRun runId _ lease => some (runId, lease)
  | _ => none

/-! ## Creation in flight -/

/-- The next statement of a creation. -/
inductive CreatePhase where
  | lookupIdempotency
  | lookupActive
  /-- The write transaction, from the `INSERT` to the commit. -/
  | insert
  /-- After an integrity error, `get_by_idempotency`. -/
  | recoverIdempotency
  /-- … and `get_active_by_active_key`. -/
  | recoverActive
  /-- The transaction that writes an agent task to a run that was found. -/
  | link (found : WorkflowRunRecord)

/-- A `create_run` call in flight. For the creation of an agent task, `task` is
what it writes with the run; it does not recover from an integrity error. -/
structure CreateCall (δ : Type) where
  ctx : Context
  body : WorkflowRunCreate
  runId : String
  parentRunId : Option String := none
  attempt : Nat := 1
  task : Option (WorkflowRunRecord → DomainWriter δ) := none
  phase : CreatePhase := .lookupIdempotency

/-- What a `create_run` call returned. -/
structure Returned where
  call : Nat
  scope : Scope
  idempotencyKey : Option String
  runId : String
  created : Bool
deriving DecidableEq

structure Sys (δ : Type) where
  db : Db δ
  /-- The number of the next creation. -/
  nextCall : Nat
  /-- The creations in flight. -/
  calls : Nat → Option (CreateCall δ)
  /-- What the `create_run` calls returned, oldest first. -/
  returned : List Returned
  /-- The events that `complete_new_run_atomic` appended. -/
  inlined : List EventRow
  /-- The lease tokens handed out, oldest first. -/
  granted : List (LeaseToken Timestamp)

/-- A database without runs, and nothing in flight. -/
def Sys.start (domain : δ) : Sys δ := ⟨Db.empty domain, 0, fun _ => none, [], [], []⟩

inductive Lbl (δ : Type) where
  /-- A caller enters `create_run`, or creates an agent task. -/
  | create (call : CreateCall δ)
  /-- The next statement of a creation. -/
  | advance (id : Nat)
  /-- The caller of a creation goes away. -/
  | drop (id : Nat)
  | op (ctx : Context) (op : Op δ)
  | claimRunForExecution (ctx : Context) (runId holderId : String) (ttlSeconds : Nat)
  | renewRunLease (ctx : Context) (lease : LeaseToken Timestamp) (ttlSeconds : Nat)
  | releaseRunLease (ctx : Context) (lease : LeaseToken Timestamp)
  /-- A flush or a prune changes the outbox. Ids are never given out again. -/
  | outbox (table : OutboxTable OutboxPayload)

/-- The write transaction of a creation. -/
def CreateCall.insertBody [DomainTables δ] (call : CreateCall δ) :
    WorkflowTx δ (Exit WorkflowRunRecord) := do
  let record ← insertNewRun call.ctx call.body call.runId call.parentRunId call.attempt
  let _ ← runOptionalWriter call.ctx (call.task.map fun task => task record)
  return .commit record

/-- The idempotency key of a call, if the code treats it as one. -/
def CreateCall.key (call : CreateCall δ) : Option String := truthy call.body.idempotencyKey

def Sys.setCall (s : Sys δ) (id : Nat) (call : Option (CreateCall δ)) : Sys δ :=
  { s with calls := Function.update s.calls id call }

/-- `create_run` returns a run; the creation of a task goes on to write the task. -/
def Sys.finish (s : Sys δ) (id : Nat) (call : CreateCall δ) (record : WorkflowRunRecord)
    (created : Bool) : Sys δ :=
  if call.task.isSome then
    s.setCall id (if created then none else some { call with phase := .link record })
  else
    { s.setCall id none with
      returned := s.returned ++ [⟨id, call.ctx.scope, call.key, record.runId, created⟩] }

/-- One statement of a creation. -/
def Sys.advance [DomainTables δ] (s : Sys δ) (id : Nat) (call : CreateCall δ) : Sys δ :=
  match call.phase with
  | .lookupIdempotency =>
    match lookupIdempotency s.db call.ctx call.body with
    | some row => s.finish id call row.toWorkflowRunRecord false
    | none => s.setCall id (some { call with phase := .lookupActive })
  | .lookupActive =>
    match lookupActive s.db call.ctx call.body with
    | some row => s.finish id call row.toWorkflowRunRecord false
    | none => s.setCall id (some { call with phase := .insert })
  | .insert =>
    match atomically call.insertBody s.db with
    | (.ok record, db) => { s with db := db }.finish id call record true
    | (.error .integrityError, _) =>
      s.setCall id (if call.task.isSome then none
        else some { call with phase := .recoverIdempotency })
    | (.error _, _) => s.setCall id none
  | .recoverIdempotency =>
    match lookupIdempotency s.db call.ctx call.body with
    | some row => s.finish id call row.toWorkflowRunRecord false
    | none => s.setCall id (some { call with phase := .recoverActive })
  | .recoverActive =>
    match lookupActive s.db call.ctx call.body with
    | some row => s.finish id call row.toWorkflowRunRecord false
    | none => s.setCall id none
  | .link found =>
    { s.setCall id none with
      db := (atomically (inUnitOfWork call.ctx (fun db => { tables := db.domain })
        (runOptionalWriter call.ctx (call.task.map fun task => task found))
        fun _ db => { tables := db.domain }) s.db).2 }

def step [DomainTables δ] (s : Sys δ) : Lbl δ → Sys δ
  | .create call =>
    { s.setCall s.nextCall (some { call with phase := .lookupIdempotency }) with
      nextCall := s.nextCall + 1 }
  | .advance id =>
    match s.calls id with
    | none => s
    | some call => s.advance id call
  | .drop id => s.setCall id none
  | .op ctx op =>
    let result := op.exec ctx s.db
    { s with
      db := result.2
      inlined := s.inlined ++ match op with
        | .completeNewRunAtomic _ _ _ _ _ _ =>
          result.2.events.rows.drop s.db.events.rows.length
        | _ => [] }
  | .claimRunForExecution ctx runId holderId ttlSeconds =>
    match atomically (claimRunForExecution ctx runId holderId ttlSeconds) s.db with
    | (.ok (some (_, lease)), db) => { s with db := db, granted := s.granted ++ [lease] }
    | (_, db) => { s with db := db }
  | .renewRunLease ctx lease ttlSeconds =>
    { s with db := (atomically (renewRunLease ctx lease ttlSeconds) s.db).2 }
  | .releaseRunLease ctx lease =>
    { s with db := (atomically (releaseRunLease ctx lease) s.db).2 }
  | .outbox table =>
    if s.db.outbox.lastId ≤ table.lastId then { s with db := { s.db with outbox := table } }
    else s

end Workflow
