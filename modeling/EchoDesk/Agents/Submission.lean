import EchoDesk.Agents.Commands
import EchoDesk.Agents.Snapshot

/-! # Creating a task

`_create_task_with_run` looks for the task, looks for a run with the task's idempotency key, and
writes the run and the task in one transaction. The two lookups come before the transaction, so a
creation is a call in flight that takes one step for each.
-/

namespace Agents

open EchoDesk Workflow Transaction

/-- `AgentIntent`, as far as the stores use it. The device is the effective one. -/
structure AgentIntent where
  text : String
  deviceId : String
  echoTaskId : String
  conversationId : Option String := none
  messageId : Option String := none
  title : String
  taskKind : Option String := none
  context : Dict := []
  outputContract : Dict := []
  permissionProfile : Option String := none
  grantId : Option String := none
  timeoutS : Nat := 1800
  runnerModel : Option String := none
  runnerBaseUrl : Option String := none

/-- The settings a task takes its runner from. -/
structure Settings where
  llmMainModel : String
  llmMainBaseUrl : String

/-- `_context_str`. -/
def contextStr (lib : Library) (context : Dict) (key : String) : Option String :=
  match context.read key with
  | .null => none
  | .str s => truthy (some s)
  | value => some (lib.str value)

/-- `_workflow_source`. -/
def workflowSource (lib : Library) (intent : AgentIntent) : String :=
  match contextStr lib intent.context "origin" with
  | some "command" => "command"
  | some "todo" => "todo"
  | some "retry" => "retry"
  | _ => if (contextStr lib intent.context "todo_id").isSome then "todo" else "command"

/-- The idempotency key of the run of a task. -/
def taskRunKey (taskId : String) : String := "agent-task:" ++ taskId

/-- `_workflow_create`. -/
def workflowCreate (lib : Library) (intent : AgentIntent) : WorkflowRunCreate where
  kind := "agent_task"
  source := workflowSource lib intent
  title := some intent.title
  intentText := intent.text
  meetingId := contextStr lib intent.context "meeting_id"
  todoId := contextStr lib intent.context "todo_id"
  agentTaskId := some intent.echoTaskId
  input :=
    [("device_id", .str intent.deviceId), ("conversation_id", .ofText intent.conversationId),
      ("message_id", .ofText intent.messageId), ("task_kind", .ofText intent.taskKind),
      ("context", .obj intent.context), ("output_contract", .obj intent.outputContract),
      ("runner", .str "claude_code")]
  timeoutS := some intent.timeoutS
  idempotencyKey := some (taskRunKey intent.echoTaskId)

def envelope (settings : Settings) (intent : AgentIntent) : Dict :=
  [("source", .str "echodesk"), ("echo_task_id", .str intent.echoTaskId), ("runner_task_id", .null),
    ("device_id", .str intent.deviceId), ("user_text", .str intent.text),
    ("user_visible_title", .str intent.title), ("task_kind", .ofText intent.taskKind),
    ("context", .obj intent.context), ("output_contract", .obj intent.outputContract),
    ("runner", .obj [("type", .str "claude_code"),
      ("model", .str ((truthy intent.runnerModel).getD settings.llmMainModel)),
      ("base_url", .str ((truthy intent.runnerBaseUrl).getD settings.llmMainBaseUrl))])]

/-- The row that `_insert_task_tx` inserts. -/
def taskRow (settings : Settings) (ctx : Context) (intent : AgentIntent) (state : AgentTaskState)
    (workflowRunId : Option String) : AgentTaskRow :=
  let start := defaultSnapshot (some intent.title) state.value
  let snapshot :=
    match state with
    | .waitingPermission => start.set "progress_text" (.str "等待授权")
    | .pending => start.set "progress_text" (.str "任务已提交，等待执行")
    | _ => start
  { taskId := intent.echoTaskId, scope := ctx.scope, deviceId := intent.deviceId
    title := intent.title, intentText := intent.text, state := state.value
    conversationId := intent.conversationId, messageId := intent.messageId
    taskKind := intent.taskKind, progressText := textColumn (snapshot.read "progress_text")
    snapshot := snapshot, envelope := envelope settings intent, grantId := intent.grantId
    permissionProfile := intent.permissionProfile, workflowRunId := workflowRunId
    submittedAt := ctx.now, timeoutS := intent.timeoutS }

/-- What `ON CONFLICT … DO UPDATE` writes over a stored row. -/
def AgentTaskRow.overwrite (row new : AgentTaskRow) : AgentTaskRow :=
  { row with
    runnerTaskId := new.runnerTaskId, deviceId := new.deviceId
    conversationId := new.conversationId, messageId := new.messageId, title := new.title
    intentText := new.intentText, route := new.route, taskKind := new.taskKind, state := new.state
    progressText := new.progressText, snapshot := new.snapshot, envelope := new.envelope
    grantId := new.grantId, permissionProfile := new.permissionProfile
    workflowRunId := new.workflowRunId, submittedAt := new.submittedAt, timeoutS := new.timeoutS }

/-- `_insert_task_tx`, with the foreign key of the run. -/
def insertTaskTx (settings : Settings) (ctx : Context) (intent : AgentIntent)
    (state : AgentTaskState) (workflowRunId : Option String) : AgentTx Unit := do
  let row := taskRow settings ctx intent state workflowRunId
  let db ← get
  if workflowRunId.any fun runId => (db.findRun ⟨ctx.scope, runId⟩).isNone then
    throw .integrityError
  else
    match db.domain.findTask row.key with
    | some _ => do
      let _ ← updateTask row.key (fun _ => true) (·.overwrite row)
    | none =>
      match db.domain.tasks.insert? row with
      | none => throw .integrityError
      | some tasks => writeTables { db.domain with tasks := tasks }

/-! ## A creation in flight -/

inductive CreationPhase where
  /-- `SELECT * FROM agent_tasks`. -/
  | lookupTask
  /-- The lookup of `create_run_in_transaction`; the request has no active key. -/
  | lookupRun
  /-- The transaction that inserts the run and the task. -/
  | insert
  /-- The transaction that writes the task to the run that was found. -/
  | link (runId : String)

/-- A `_create_task_with_run` call in flight; `newRunId` is the id it gives a run it creates. -/
structure Creation where
  ctx : Context
  intent : AgentIntent
  state : AgentTaskState
  newRunId : String
  phase : CreationPhase := .lookupTask

/-- The transaction of a creation that found no run. -/
def insertTaskWithRun (lib : Library) (settings : Settings) (call : Creation) : AgentTx (Exit Unit) := do
  let record ← insertNewRun call.ctx (workflowCreate lib call.intent) call.newRunId none 1
  insertTaskTx settings call.ctx call.intent call.state (some record.runId)
  return .commit ()

/-- The transaction of a creation that found a run. -/
def linkTask (settings : Settings) (call : Creation) (runId : String) : AgentTx (Exit Unit) := do
  insertTaskTx settings call.ctx call.intent call.state (some runId)
  return .commit ()

/-- The next statement of a creation: the call that is left, if it goes on, and the database. -/
def Creation.advance (lib : Library) (settings : Settings) (call : Creation) (db : Db AgentTables) :
    Option Creation × Db AgentTables :=
  match call.phase with
  | .lookupTask =>
    match db.domain.findTask ⟨call.ctx.scope, call.intent.echoTaskId⟩ with
    | some _ => (none, db)
    | none => (some { call with phase := .lookupRun }, db)
  | .lookupRun =>
    match lookupIdempotency db call.ctx (workflowCreate lib call.intent) with
    | some row => (some { call with phase := .link row.runId }, db)
    | none => (some { call with phase := .insert }, db)
  | .insert => (none, (atomically (insertTaskWithRun lib settings call) db).2)
  | .link runId => (none, (atomically (linkTask settings call runId) db).2)

end Agents
