import EchoDesk.Workflow.Store

/-! # The operations of `WorkflowService`

Every operation that writes a workflow run, as the body of its transaction. A
body that returns `.commit` is committed by its caller, one that returns
`.abandon` leaves its connection without a commit, and one that raises is
rolled back (`Transaction.atomically`). Operations of a caller-owned
transaction are plain bodies; `inUnitOfWork` puts the caller's own writes
around them.

`create_run`, the one operation whose reads come before its transaction, is
taken apart in `Workflow.System`.
-/

namespace Workflow

open EchoDesk Transaction Outbox Runtime

variable {δ : Type}

/-! ## Creation -/

/-- `SELECT … WHERE idempotency_key = ?`; the index makes the row unique. -/
def Db.byIdempotency (db : Db δ) (scope : Scope) (key : String) : Option RunRow :=
  db.runs.lookup fun row => row.scope = scope ∧ row.idempotencyKey = some key

/-- `SELECT … WHERE active_key = ? AND state IN ('pending', 'running',
'cancel_requested')`; the index makes the row unique. -/
def Db.activeByActiveKey (db : Db δ) (scope : Scope) (key : String) : Option RunRow :=
  db.runs.lookup fun row =>
    row.scope = scope ∧ row.activeKey = some key ∧ row.state.isActive

/-- The lookup for a creation with an idempotency key. -/
def lookupIdempotency (db : Db δ) (ctx : Context) (body : WorkflowRunCreate) : Option RunRow :=
  (truthy body.idempotencyKey).bind (db.byIdempotency ctx.scope)

/-- The lookup for a creation with an active key. -/
def lookupActive (db : Db δ) (ctx : Context) (body : WorkflowRunCreate) : Option RunRow :=
  (truthy body.activeKey).bind (db.activeByActiveKey ctx.scope)

/-- The record of a new run. -/
def newRecord (ctx : Context) (body : WorkflowRunCreate) (runId : String)
    (parentRunId : Option String) (attempt : Nat) : WorkflowRunRecord where
  runId := runId
  kind := body.kind
  source := body.source
  state := .pending
  title := body.title
  intentText := body.intentText
  meetingId := body.meetingId
  todoId := body.todoId
  agentTaskId := body.agentTaskId
  input := body.input
  timeoutS := body.timeoutS
  idempotencyKey := body.idempotencyKey
  activeKey := body.activeKey
  attempt := attempt
  parentRunId := parentRunId
  deadlineAt := body.timeoutS.map (ctx.now + ·)
  createdAt := ctx.now
  updatedAt := ctx.now

/-- The stored row of a record the context's principal owns. -/
def Context.row (ctx : Context) (run : WorkflowRunRecord) : RunRow :=
  { run with scope := ctx.scope, deviceId := ctx.principal.deviceId }

/-- `INSERT INTO workflow_runs`, with its foreign keys and unique indexes. -/
def insertRun [DomainTables δ] (row : RunRow) : WorkflowTx δ Unit := do
  let db ← get
  if row.meetingId.any (fun meeting => !DomainTables.hasMeeting db.domain row.scope meeting) ∨
      row.parentRunId.any fun parent => (db.findRun ⟨row.scope, parent⟩).isNone then
    throw .integrityError
  else
    match db.runs.insert? row with
    | none => throw .integrityError
    | some runs => set { db with runs := runs }

/-- The writing part of `create_run_in_transaction`. -/
def insertNewRun [DomainTables δ] (ctx : Context) (body : WorkflowRunCreate) (runId : String)
    (parentRunId : Option String) (attempt : Nat) : WorkflowTx δ WorkflowRunRecord := do
  let record := newRecord ctx body runId parentRunId attempt
  insertRun (ctx.row record)
  let _ ← appendEventTx ctx record "workflow.created"
    ((truthy record.title).getD (String.ofList (record.intentText.toList.take 120)))
    [("kind", .str record.kind), ("source", .str record.source)] .debug
  return record

/-- `create_run_in_transaction`; `runId` is the given id or the generated one. -/
def createRunInTransaction [DomainTables δ] (ctx : Context) (body : WorkflowRunCreate)
    (runId : String) (parentRunId : Option String) (attempt : Nat) :
    WorkflowTx δ (WorkflowRunRecord × Bool) := do
  let db ← get
  match lookupIdempotency db ctx body with
  | some row => return (row.toWorkflowRunRecord, false)
  | none =>
    match lookupActive db ctx body with
    | some row => return (row.toWorkflowRunRecord, false)
    | none => do
      let record ← insertNewRun ctx body runId parentRunId attempt
      return (record, true)

def createRunAtomic [DomainTables δ] (ctx : Context) (body : WorkflowRunCreate)
    (domainWriter : DomainWriter δ) (runId : String) (parentRunId : Option String)
    (attempt : Nat) : WorkflowTx δ (Exit (WorkflowRunRecord × Bool)) := do
  let (record, created) ← createRunInTransaction ctx body runId parentRunId attempt
  if created then do
    let _ ← runDomainWriter ctx domainWriter
    return .commit (record, created)
  else return .commit (record, created)

/-! ## Events without a state change -/

def recordEvent (ctx : Context) (runId : String) (eventType : String) (message : Option String)
    (payload : Dict) (visibility : WorkflowVisibility) (lease : Option (LeaseToken Timestamp)) :
    WorkflowTx δ (Exit (Option WorkflowEventRecord)) := do
  assertWorkflowLease ctx runId lease
  match ← selectRun ⟨ctx.scope, runId⟩ with
  | none => return .abandon none
  | some run => do
    let event ← appendEventTx ctx run.toWorkflowRunRecord eventType message payload visibility
    return .commit (some event)

/-- Whether an event of the run carries the delivery key. -/
def Db.delivered (db : Db δ) (key : RunKey) (deliveryKey : String) : Bool :=
  (db.history key).any fun event =>
    match event.payload.get? "agent_delivery_key" with
    | some (.str stored) => stored = deliveryKey
    | _ => false

/-- The check of a delivery key. -/
def checkDeliveryKey (deliveryKey : String) : WorkflowTx δ Unit :=
  if deliveryKey = "" ∨ 200 < deliveryKey.length then
    throw (.valueError "Agent delivery key must be 1..200 characters")
  else return ()

def recordAgentDeliveryOnceInTransaction (ctx : Context) (runId deliveryKey eventType : String)
    (message : Option String) (payload : Dict) (visibility : WorkflowVisibility) :
    WorkflowTx δ Bool := do
  checkDeliveryKey deliveryKey
  match ← selectRun ⟨ctx.scope, runId⟩ with
  | none => return false
  | some run =>
    let db ← get
    if db.delivered ⟨ctx.scope, runId⟩ deliveryKey then return false
    else do
      let _ ← appendEventTx ctx run.toWorkflowRunRecord eventType message
        (payload.set "agent_delivery_key" (.str deliveryKey)) visibility
      return true

/-! ## Output without a state change -/

/-- The columns a merge writes. -/
def RunRow.withOutput (row : RunRow) (output : Dict) (now : Timestamp) : RunRow :=
  { row with output := output, updatedAt := now, revision := row.revision + 1 }

def mergeAgentOutputOnceInTransaction (ctx : Context) (runId deliveryKey : String) (patch : Dict)
    (eventType message : String) : WorkflowTx δ Bool := do
  checkDeliveryKey deliveryKey
  let db ← get
  if db.delivered ⟨ctx.scope, runId⟩ deliveryKey then return false
  else
    match ← selectRun ⟨ctx.scope, runId⟩ with
    | none => return false
    | some run => do
      let output := run.output.merge patch
      updateRunOrConflict ⟨ctx.scope, runId⟩ run.revision (fun _ => true)
        (·.withOutput output ctx.now) "workflow revision conflict: "
      let _ ← appendEventTx ctx (run.withOutput output ctx.now).toWorkflowRunRecord eventType
        (some message) [("output", .obj patch), ("agent_delivery_key", .str deliveryKey)] .debug
      return true

def mergeOutput (ctx : Context) (runId : String) (patch : Dict) (eventType : String)
    (message : Option String) (mergeStrategy : Option (Dict → Dict → Dict))
    (lease : Option (LeaseToken Timestamp)) :
    WorkflowTx δ (Exit (Option WorkflowRunRecord)) := do
  assertWorkflowLease ctx runId lease
  match ← selectRun ⟨ctx.scope, runId⟩ with
  | none => return .abandon none
  | some rec => do
    let output := (mergeStrategy.getD Dict.merge) rec.output patch
    updateRunOrConflict ⟨ctx.scope, runId⟩ rec.revision (fun _ => true)
      (·.withOutput output ctx.now) "workflow revision conflict: "
    let updated ← reselectRun ⟨ctx.scope, runId⟩ "workflow disappeared during update: "
    let _ ← appendEventTx ctx updated.toWorkflowRunRecord eventType message
      [("output", .obj patch)] .debug
    return .commit (some updated.toWorkflowRunRecord)

def commitRunProgressAtomic (ctx : Context) (runId : String) (output : Dict)
    (domainWriter : DomainWriter δ) (domainEvents : List EchoEvent) (eventType message : String)
    (lease : Option (LeaseToken Timestamp)) : WorkflowTx δ (Exit (Option WorkflowRunRecord)) := do
  assertWorkflowLease ctx runId lease
  match ← selectRun ⟨ctx.scope, runId⟩ with
  | none => return .abandon none
  | some rec =>
    if rec.isTerminal then return .abandon (some rec.toWorkflowRunRecord)
    else do
      let applied ← runDomainWriter ctx domainWriter
      let nextOutput := rec.output.merge output
      updateRunOrConflict ⟨ctx.scope, runId⟩ rec.revision (·.state.isActive)
        (·.withOutput nextOutput ctx.now) "workflow revision conflict: "
      let updated ← reselectRun ⟨ctx.scope, runId⟩ "workflow disappeared during update: "
      let _ ← appendEventTx ctx updated.toWorkflowRunRecord eventType (some message)
        [("output", .obj output)] .debug
      appendDomainOutboxTx ctx runId (if applied then domainEvents else [])
      return .commit (some updated.toWorkflowRunRecord)

/-! ## State changes -/

/-- The arguments of `_set_state` and of `_transition_agent_run_in_transaction`
that say what to change. -/
structure StateChange where
  state : WorkflowState
  eventType : String
  message : Option String := none
  payload : Dict := []
  output : Option Dict := none
  error : Option String := none
  started : Bool := false
  finished : Bool := false

/-- The columns a state change writes, from the record it read. -/
def StateChange.apply (change : StateChange) (rec : WorkflowRunRecord) (now : Timestamp)
    (row : RunRow) : RunRow :=
  { row with
    state := change.state
    output := change.output.getD rec.output
    error := change.error
    startedAt := if change.started ∧ rec.startedAt = none then some now else rec.startedAt
    finishedAt := if change.finished then some now else rec.finishedAt
    updatedAt := now
    revision := row.revision + 1
    cancelRequestedAt :=
      if change.state = .cancelRequested then some now else rec.cancelRequestedAt }

def illegalTransition (old new : WorkflowState) : WorkflowError :=
  .invalidWorkflowTransition ("illegal workflow transition: " ++ old.text ++ " -> " ++ new.text)

/-- `_set_state`. -/
def setState (ctx : Context) (runId : String) (change : StateChange)
    (domainWriter : Option (DomainWriter δ)) (domainEvents : List EchoEvent)
    (lease : Option (LeaseToken Timestamp)) : WorkflowTx δ (Exit (Option WorkflowRunRecord)) := do
  assertWorkflowLease ctx runId lease
  match ← selectRun ⟨ctx.scope, runId⟩ with
  | none => return .abandon none
  | some rec =>
    if change.state = rec.state then return .abandon (some rec.toWorkflowRunRecord)
    else if change.state ∉ rec.state.legalTransitions then
      throw (illegalTransition rec.state change.state)
    else do
      let applied ← runOptionalWriter ctx domainWriter
      updateRunOrConflict ⟨ctx.scope, runId⟩ rec.revision (fun _ => true)
        (change.apply rec.toWorkflowRunRecord ctx.now) "workflow revision conflict: "
      let updated ← reselectRun ⟨ctx.scope, runId⟩ "workflow disappeared during update: "
      let _ ← appendEventTx ctx updated.toWorkflowRunRecord change.eventType change.message
        change.payload .user
      appendDomainOutboxTx ctx runId (if applied then domainEvents else [])
      return .commit (some updated.toWorkflowRunRecord)

/-- `payload or {"error": error}`. -/
def errorPayload (payload : Option Dict) (error : String) : Dict :=
  match payload with
  | some (entry :: rest) => entry :: rest
  | _ => [("error", .str error)]

/-- `{"reason": reason} if reason else {}`. -/
def reasonPayload (reason : Option String) : Dict :=
  match truthy reason with
  | some reason => [("reason", .str reason)]
  | none => []

def startRun : StateChange where
  state := .running
  eventType := "workflow.started"
  message := "任务开始执行"
  started := true

def completeRun (output : Option Dict) (message : Option String) : StateChange where
  state := .succeeded
  eventType := "workflow.succeeded"
  message := (truthy message).getD "任务完成"
  output := some (output.getD [])
  finished := true

def completeRunAtomic (output : Dict) (message : String) : StateChange where
  state := .succeeded
  eventType := "workflow.succeeded"
  message := message
  output := some output
  finished := true

/-- `fail_run` and `fail_run_atomic`. -/
def failRun (error : String) (payload : Option Dict) : StateChange where
  state := .failed
  eventType := "workflow.failed"
  message := error
  payload := errorPayload payload error
  error := error
  finished := true

def timeoutRun (error : String) : StateChange where
  state := .timeout
  eventType := "workflow.timeout"
  message := error
  payload := [("error", .str error)]
  error := error
  finished := true

def requestCancel (reason : Option String) : StateChange where
  state := .cancelRequested
  eventType := "workflow.cancel_requested"
  message := (truthy reason).getD "已请求取消"
  payload := reasonPayload reason

def markCancelled (message : String) : StateChange where
  state := .cancelled
  eventType := "workflow.cancelled"
  message := message
  finished := true

def markCancelFailed (error : String) : StateChange where
  state := .cancelFailed
  eventType := "workflow.cancel_failed"
  message := error
  payload := [("error", .str error)]
  error := error
  finished := true

/-- The columns `complete_new_run_atomic` writes over the new row. -/
def RunRow.completedInline (row : RunRow) (output : Dict) (now : Timestamp) : RunRow :=
  { row with
    state := .succeeded, output := output, error := none, startedAt := some now
    finishedAt := some now, updatedAt := now, revision := row.revision + 1 }

def completeNewRunAtomic [DomainTables δ] (ctx : Context) (body : WorkflowRunCreate)
    (newRunId : String) (output : Dict) (domainWriter : DomainWriter δ)
    (domainEvents : List EchoEvent) (message : String) :
    WorkflowTx δ (Exit WorkflowRunRecord) := do
  let (record, created) ← createRunInTransaction ctx body newRunId none 1
  if !created then
    throw (.workflowConflictError "inline workflow must create a new run")
  else do
    let _ ← runDomainWriter ctx domainWriter
    updateRunOrConflict ⟨ctx.scope, record.runId⟩ record.revision (·.state = .pending)
      (·.completedInline output ctx.now) "inline workflow revision conflict: "
    let updated ← reselectRun ⟨ctx.scope, record.runId⟩
      "inline workflow disappeared during update: "
    let _ ← appendEventTx ctx updated.toWorkflowRunRecord "workflow.succeeded" (some message) []
      .user
    appendDomainOutboxTx ctx record.runId domainEvents
    return .commit updated.toWorkflowRunRecord

/-! ## State changes on a caller-owned transaction -/

/-- The columns `request_cancel_in_transaction` writes. -/
def RunRow.cancelRequestedInTransaction (row : RunRow) (now : Timestamp) : RunRow :=
  { row with
    state := .cancelRequested, updatedAt := now, revision := row.revision + 1
    cancelRequestedAt := row.cancelRequestedAt.or (some now) }

def requestCancelInTransaction (ctx : Context) (runId : String) (reason : Option String) :
    WorkflowTx δ (Option RunRow) := do
  assertWorkflowLease ctx runId none
  match ← selectRun ⟨ctx.scope, runId⟩ with
  | none => return none
  | some current =>
    if current.state = .cancelRequested then return some current
    else if .cancelRequested ∉ current.state.legalTransitions then
      throw (illegalTransition current.state .cancelRequested)
    else do
      updateRunOrConflict ⟨ctx.scope, runId⟩ current.revision (fun _ => true)
        (·.cancelRequestedInTransaction ctx.now) "workflow revision conflict: "
      let current := current.cancelRequestedInTransaction ctx.now
      let _ ← appendEventTx ctx current.toWorkflowRunRecord "workflow.cancel_requested"
        ((truthy reason).getD "已请求取消") (reasonPayload reason) .user
      return some current

/-- `_transition_agent_run_in_transaction`. -/
def transitionAgentRunInTransaction (ctx : Context) (current : RunRow) (change : StateChange) :
    WorkflowTx δ RunRow :=
  if change.state ∉ current.state.legalTransitions then
    throw (illegalTransition current.state change.state)
  else do
    updateRunOrConflict ⟨ctx.scope, current.runId⟩ current.revision (fun _ => true)
      (change.apply current.toWorkflowRunRecord ctx.now) "workflow revision conflict: "
    let updated ← reselectRun ⟨ctx.scope, current.runId⟩ "workflow disappeared during update: "
    let _ ← appendEventTx ctx updated.toWorkflowRunRecord change.eventType change.message
      change.payload .user
    return updated

/-- The event type of a terminal state. -/
def terminalEventType : WorkflowState → String
  | .failed => "workflow.failed"
  | .timeout => "workflow.timeout"
  | .cancelled => "workflow.cancelled"
  | .cancelFailed => "workflow.cancel_failed"
  | _ => "workflow.succeeded"

/-- The default message of a terminal state. -/
def terminalMessage : WorkflowState → String
  | .failed => "任务失败"
  | .timeout => "任务超时"
  | .cancelled => "任务已取消"
  | .cancelFailed => "取消失败"
  | _ => "任务完成"

/-- The terminal change of `settle_agent_terminal_in_transaction`. -/
def settleChange (state : WorkflowState) (message : Option String) (output payload : Option Dict) :
    StateChange :=
  let text := (truthy message).getD (terminalMessage state)
  { state := state
    eventType := terminalEventType state
    message := text
    payload := payload.getD []
    output := output
    error := if state ∈ [.failed, .timeout, .cancelFailed] then some text else none
    finished := true }

/-- The start `settle_agent_terminal_in_transaction` puts before a success. -/
def agentStarted : StateChange where
  state := .running
  eventType := "workflow.started"
  message := "任务开始执行"
  started := true

/-- The legal intermediate state before a success. -/
def startBeforeSuccess (ctx : Context) (state : WorkflowState) (current : RunRow) :
    WorkflowTx δ RunRow :=
  if state = .succeeded ∧ current.state = .pending then
    transitionAgentRunInTransaction ctx current agentStarted
  else return current

/-- The cancel request before a cancelled state. -/
def requestBeforeCancelled (ctx : Context) (runId : String) (state : WorkflowState)
    (current : RunRow) : WorkflowTx δ (Option RunRow) :=
  if state ∈ [.cancelled, .cancelFailed] ∧ current.state ≠ .cancelRequested then
    requestCancelInTransaction ctx runId (some "Agent Runner 已返回取消终态")
  else return some current

def settleAgentTerminalInTransaction (ctx : Context) (runId : String) (state : WorkflowState)
    (message : Option String) (output payload : Option Dict) :
    WorkflowTx δ (Option RunRow) :=
  if !state.isTerminal then
    throw (.valueError "Agent terminal arbitration requires a terminal state")
  else do
    assertWorkflowLease ctx runId none
    match ← selectRun ⟨ctx.scope, runId⟩ with
    | none => return none
    | some current =>
      if current.isTerminal then return some current
      else do
        let current ← startBeforeSuccess ctx state current
        match ← requestBeforeCancelled ctx runId state current with
        | none => return none
        | some current => do
          let updated ← transitionAgentRunInTransaction ctx current
            (settleChange state message output payload)
          return some updated

/-- A caller-owned transaction around an operation: the caller's writes before
it, the operation, the writes that follow from its result, and the commit. -/
def inUnitOfWork {α : Type} (ctx : Context) (before : DomainWriter δ) (operation : WorkflowTx δ α)
    (after : α → DomainWriter δ) : WorkflowTx δ (Exit α) := do
  let _ ← runDomainWriter ctx before
  let result ← operation
  let _ ← runDomainWriter ctx (after result)
  return .commit result

/-! ## Retry, projection and the execution lease -/

/-- The request `retry_run` creates the child of `old` with. -/
def retryBody (old : RunRow) (reason : Option String) : WorkflowRunCreate where
  kind := old.kind
  source := old.source
  title := old.title
  intentText := old.intentText
  meetingId := old.meetingId
  todoId := old.todoId
  agentTaskId := old.agentTaskId
  input :=
    let input := old.input.set "retry_of" (.str old.runId)
    match truthy reason with
    | some reason => input.set "retry_reason" (.str reason)
    | none => input
  timeoutS := old.timeoutS
  idempotencyKey := "workflow.retry:" ++ old.runId ++ ":" ++ toString (old.attempt + 1)
  activeKey := old.activeKey

def retryRun [DomainTables δ] (ctx : Context) (runId newRunId : String) (reason : Option String)
    (domainWriter : Option (WorkflowRunRecord → DomainWriter δ)) :
    WorkflowTx δ (Exit (Option WorkflowRunRecord)) := do
  match ← selectRun ⟨ctx.scope, runId⟩ with
  | none => return .abandon none
  | some old =>
    if !old.isTerminal then
      throw (.invalidWorkflowTransition
        ("cannot retry non-terminal workflow in state " ++ old.state.text))
    else if old.state = .succeeded then
      throw (.invalidWorkflowTransition "cannot retry a succeeded workflow")
    else do
      let (newRun, created) ← createRunInTransaction ctx (retryBody old reason) newRunId
        (some old.runId) (old.attempt + 1)
      if !created ∧ newRun.parentRunId ≠ some old.runId then
        throw (.workflowConflictError ("active workflow already won retry race: " ++ newRun.runId))
      else if created then do
        let _ ← runOptionalWriter ctx (domainWriter.map fun writer => writer newRun)
        let _ ← appendEventTx ctx old.toWorkflowRunRecord "workflow.retry_created" (some "已创建重试任务")
          [("retry_run_id", .str newRun.runId), ("reason", (reason.map .str).getD .null)] .debug
        return .commit (some newRun)
      else return .commit (some newRun)

def projectActiveRun (ctx : Context) (runId : String)
    (domainWriter : WorkflowRunRecord → DomainWriter δ) (lease : Option (LeaseToken Timestamp)) :
    WorkflowTx δ (Exit (Option WorkflowRunRecord)) := do
  assertWorkflowLease ctx runId lease
  match ← selectRun ⟨ctx.scope, runId⟩ with
  | none => return .abandon none
  | some run =>
    if run.isTerminal then return .abandon (some run.toWorkflowRunRecord)
    else do
      let _ ← runDomainWriter ctx (domainWriter run.toWorkflowRunRecord)
      return .commit (some run.toWorkflowRunRecord)

def claimRunForExecution (ctx : Context) (runId holderId : String) (ttlSeconds : Nat) :
    WorkflowTx δ (Exit (Option (WorkflowRunRecord × LeaseToken Timestamp))) := do
  let db ← get
  match acquire db.leases ctx.leaseNow (leaseKey ctx.scope runId) holderId ttlSeconds with
  | .error e => throw (.lease e)
  | .ok (none, leases) => do
    set { db with leases := leases }
    return .commit none
  | .ok (some lease, leases) =>
    match (db.findRun ⟨ctx.scope, runId⟩).filter (·.state.isActive) with
    | none =>
      match release leases ctx.leaseNow lease with
      | .error e => throw (.lease e)
      | .ok (_, leases) => do
        set { db with leases := leases }
        return .commit none
    | some row => do
      set { db with leases := leases }
      return .commit (some (row.toWorkflowRunRecord, lease))

def renewRunLease (ctx : Context) (lease : LeaseToken Timestamp) (ttlSeconds : Nat) :
    WorkflowTx δ (Exit (Option (LeaseToken Timestamp))) := do
  let db ← get
  match renew db.leases ctx.leaseNow lease ttlSeconds with
  | .error e => throw (.lease e)
  | .ok (renewed, leases) => do
    set { db with leases := leases }
    return .commit renewed

def releaseRunLease (ctx : Context) (lease : LeaseToken Timestamp) : WorkflowTx δ (Exit Bool) := do
  let db ← get
  match release db.leases ctx.leaseNow lease with
  | .error e => throw (.lease e)
  | .ok (released, leases) => do
    set { db with leases := leases }
    return .commit released

end Workflow
