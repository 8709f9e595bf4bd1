import EchoDesk.Agents.Commands
import EchoDesk.Agents.Snapshot

/-! # Recording an event

The transaction of `record_task_event`: the event is numbered and logged, the task row follows it,
and a terminal event is arbitrated with the linked run on the same transaction. What the caller
does after the commit, the projection of the event, is in `Agents.Projection`.
-/

namespace Agents

open EchoDesk Workflow Transaction Runtime

/-- What a call of `record_task_event` is given beside the event. -/
structure RecordArgs where
  rawHash : Option String := none
  rawKind : Option String := none
  leaseToken : Option (LeaseToken Timestamp) := none
  submitLeaseToken : Option (LeaseToken Timestamp) := none
  cancelCommand : Option (AgentCommandRow × LeaseToken Timestamp) := none

/-- The event a late state is kept as: of no consequence, for the audit alone. -/
def terminalIgnored (rec : AgentTaskRow) (stored : EchoTaskEvent) (runnerTaskId : Option String)
    (state message : String) : EchoTaskEvent :=
  { stored with
    runnerTaskId := runnerTaskId, conversationId := rec.conversationId, messageId := rec.messageId
    title := some rec.title, event := "task.terminal_ignored", state := state, visibility := .debug
    textDelta := none, message := some message, step := none, artifacts := [], actions := []
    permission := none, snapshot := [] }

/-- An event of another state than the terminal one of its task is not let through, but for the
artifacts that are still scanned then. -/
def settleLate (rec : AgentTaskRow) (stored : EchoTaskEvent) : EchoTaskEvent :=
  let incoming := readState stored.state
  if rec.recordState.isTerminal ∧ incoming ≠ rec.recordState then
    if stored.event ≠ "task.artifact_updated" then
      terminalIgnored rec stored rec.runnerTaskId rec.recordState.value
        ("忽略迟到状态 " ++ incoming.value ++ "；权威终态为 " ++ rec.recordState.value)
    else { stored with state := rec.recordState.value }
  else stored

/-- The output of a run whose task succeeded. -/
def successOutput (rec : AgentTaskRow) (stored : EchoTaskEvent) : Dict :=
  [("agent_task_id", .str rec.taskId),
    ("runner_task_id", .ofText ((truthy stored.runnerTaskId).or rec.runnerTaskId)),
    ("artifacts", .arr ((if stored.artifacts = [] then rec.artifacts else stored.artifacts).map .obj))]

/-- Settle the linked run with a terminal event; the run's own terminal state wins. Also says
whether there was something to settle. -/
def arbitrate (ctx : Context) (rec : AgentTaskRow) (stored : EchoTaskEvent) :
    AgentTx (EchoTaskEvent × Bool) :=
  let settled := readState stored.state
  match truthy rec.workflowRunId, settled.workflow? with
  | some runId, some state =>
    if settled.isTerminal ∧ stored.event ≠ "task.artifact_updated" then do
      match ← settleAgentTerminalInTransaction ctx runId state stored.message
          (if settled = .succeeded then some (successOutput rec stored) else none)
          (some [("agent_task_id", .str rec.taskId)]) with
      | none => throw (.domain "Agent terminal target is missing its Workflow run")
      | some workflow =>
        if workflow.state ≠ state then
          return (terminalIgnored rec stored ((truthy stored.runnerTaskId).or rec.runnerTaskId)
            workflow.state.text ("忽略迟到状态 " ++ settled.value ++ "；Workflow 权威终态为 " ++
              workflow.state.text), true)
        else return (stored, true)
    else return (stored, false)
  | _, _ => return (stored, false)

/-- `_persist_cancel_intent_tx`. -/
def persistCancelIntentTx (lib : Library) (ctx : Context) (rec : AgentTaskRow)
    (event : EchoTaskEvent) : AgentTx Unit :=
  if event.event ≠ "task.cancel_requested" then return ()
  else do
    match truthy rec.workflowRunId with
    | none => pure ()
    | some runId =>
      match ← requestCancelInTransaction ctx runId (some "用户请求取消 Agent 任务") with
      | none => throw (.domain "Agent cancel target is missing its Workflow run")
      | some _ => pure ()
    enqueueCancelInTransaction lib ctx rec.taskId ((truthy event.runnerTaskId).or rec.runnerTaskId)

/-- The columns of the task row an event writes. -/
def AgentTaskRow.follow (row : AgentTaskRow) (stored : EchoTaskEvent) (snapshot : Dict) (seq : Nat)
    (finishedAt : Option Timestamp) : AgentTaskRow :=
  { row with
    state := stored.state
    progressText := textColumn (snapshot.read "progress_text")
    finalText := textColumn (snapshot.read "final_text")
    error := textColumn (snapshot.read "error")
    artifacts := artifactsColumn snapshot
    snapshot := snapshot
    lastSeq := seq
    runnerTaskId := stored.runnerTaskId.or row.runnerTaskId
    finishedAt := finishedAt }

/-- Log the event as the given number and let the task row follow it. -/
def storeEvent (ctx : Context) (rec : AgentTaskRow) (args : RecordArgs) (stored : EchoTaskEvent)
    (seq : Nat) : AgentTx EchoTaskEvent := do
  let snapshot := reduceSnapshot rec.snapshot stored
  let stored := { stored with snapshot := snapshot }
  let finishedAt :=
    if (readState stored.state).isTerminal then rec.finishedAt.or (some ctx.now) else rec.finishedAt
  insertTaskEvent
    { taskId := stored.taskId, seq := seq, payload := stored, rawEventHash := args.rawHash
      rawKind := args.rawKind, projectedAt := none, scope := ctx.scope
      deviceId := ctx.principal.deviceId }
  let _ ← updateTask ⟨ctx.scope, stored.taskId⟩ (fun _ => true) fun row =>
    row.follow stored snapshot seq finishedAt
  return stored

/-- The outcome of a cancel command, by the terminal state of its task. -/
def commandOutcome : AgentTaskState → AgentCommandOutcome
  | .cancelled => .cancelled
  | .cancelFailed => .cancelFailed
  | _ => .terminalWon

/-- The command that the event completes. -/
def completeCommand (ctx : Context) (state : AgentTaskState)
    (command : Option (AgentCommandRow × LeaseToken Timestamp)) : AgentTx Unit :=
  match command with
  | none => return ()
  | some (command, _) =>
    if !state.isTerminal then
      throw (.domain "cancel command completion requires a terminal Agent event")
    else do
      let completed ← markCompletedInTransaction ctx command (commandOutcome state)
      if !completed then
        throw (.lease (.leaseOwnershipError
          "cancel command was already completed by another fenced worker"))
      else return ()

/-- The leases a call of `record_task_event` brings. -/
def assertRecordLeases (ctx : Context) (args : RecordArgs) (taskId : String) : AgentTx Unit := do
  match args.leaseToken with
  | none => pure ()
  | some token => assertTaskLease ctx token taskId
  match args.submitLeaseToken with
  | none => pure ()
  | some token => assertSubmitLease ctx token taskId
  match args.cancelCommand with
  | none => pure ()
  | some (command, token) => assertCancelCommandLease ctx command token taskId

/-- What `record_task_event` goes on with after its commit: the stored event, unless it was a
duplicate, the number to project, and whether a run was arbitrated. -/
structure Recorded where
  stored : Option EchoTaskEvent
  projectionSeq : Option Nat
  arbitrated : Bool

/-- The event that was logged under the raw hash before. -/
def findDuplicate (tables : AgentTables) (key : TaskKey) (rawHash : Option String) :
    Option AgentEventRow :=
  (truthy rawHash).bind fun hash =>
    tables.events.lookup fun row => row.taskKey = key ∧ row.rawEventHash = some hash

/-- The part of `record_task_event` for an event that is not a duplicate. -/
def recordNew (lib : Library) (ctx : Context) (args : RecordArgs) (rec : AgentTaskRow)
    (event : EchoTaskEvent) : AgentTx Recorded := do
  let seq := rec.lastSeq + 1
  let (stored, arbitrated) ← arbitrate ctx rec (settleLate rec { event with seq := seq })
  persistCancelIntentTx lib ctx rec stored
  let stored ← storeEvent ctx rec args stored seq
  completeCommand ctx (readState stored.state) args.cancelCommand
  return ⟨some stored, some seq, arbitrated⟩

/-- The transaction of `record_task_event`; `none` for a task that does not exist. -/
def recordTaskEvent (lib : Library) (ctx : Context) (args : RecordArgs) (event : EchoTaskEvent) :
    AgentTx (Exit (Option Recorded)) := do
  assertRecordLeases ctx args event.taskId
  let tables ← selectTables
  match tables.findTask ⟨ctx.scope, event.taskId⟩ with
  | none => return .abandon none
  | some rec =>
    match findDuplicate tables ⟨ctx.scope, event.taskId⟩ args.rawHash with
    | some duplicate =>
      return .commit (some ⟨none,
        if duplicate.projectedAt = none then some duplicate.seq else none, false⟩)
    | none => do
      let recorded ← recordNew lib ctx args rec event
      return .commit (some recorded)

/-! ## What the transaction keeps -/

variable {ctx : Context} {rec : AgentTaskRow} {lib : Library} {args : RecordArgs}
variable {event stored : EchoTaskEvent} {taskId : String}

theorem keeps_arbitrate : Keeps (Quiet Grows) (arbitrate ctx rec stored) := by
  unfold arbitrate
  dsimp only
  split
  · refine keeps_ite (fun _ => ?_) fun _ => keeps_pure _
    -- the payload of the settled run names the task, and has no delivery key
    refine keeps_bind (keeps_settleAgentTerminal ?_) fun workflow => ?_
    · intro payload hpayload
      cases hpayload
      rfl
    cases workflow with
    | none => exact keeps_throw _
    | some run => exact keeps_ite (fun _ => keeps_pure _) fun _ => keeps_pure _
  · exact keeps_pure _

theorem keeps_persistCancelIntent :
    Keeps (Quiet Grows) (persistCancelIntentTx lib ctx rec event) := by
  refine keeps_ite (fun _ => keeps_pure _) fun _ => ?_
  split
  · exact keeps_enqueueCancel
  refine keeps_bind keeps_requestCancelInTransaction fun run => ?_
  cases run with
  | none => exact keeps_bind (keeps_throw _) fun _ => keeps_enqueueCancel
  | some _ => exact keeps_enqueueCancel

theorem keeps_storeEvent {seq : Nat} : Keeps (Quiet Grows) (storeEvent ctx rec args stored seq) :=
  keeps_bind (keeps_insertTaskEvent rfl) fun _ =>
    keeps_bind (keeps_updateTask fun _ => ⟨rfl, rfl⟩) fun _ => keeps_pure _

theorem keeps_completeCommand {state : AgentTaskState}
    {command : Option (AgentCommandRow × LeaseToken Timestamp)} :
    Keeps (Quiet Grows) (completeCommand ctx state command) := by
  cases command with
  | none => exact keeps_pure _
  | some command =>
    refine keeps_ite (fun _ => keeps_throw _) fun _ => keeps_bind (keeps_bind keeps_updateCommands fun _ => keeps_pure _) fun _ => ?_
    exact keeps_ite (fun _ => keeps_throw _) fun _ => keeps_pure _

theorem keeps_assertRecordLeases : Keeps (Quiet Grows) (assertRecordLeases ctx args taskId) := by
  have hcancel : Keeps (Quiet Grows) (match args.cancelCommand with
      | none => pure ()
      | some (command, token) => assertCancelCommandLease ctx command token taskId) := by
    split
    · exact keeps_pure _
    · exact keeps_ite (fun _ => keeps_throw _) fun _ => keeps_assertLeaseOf
  unfold assertRecordLeases
  dsimp only
  split
  · split
    · exact hcancel
    · exact keeps_bind keeps_assertLeaseOf fun _ => hcancel
  · refine keeps_bind keeps_assertLeaseOf fun _ => ?_
    split
    · exact hcancel
    · exact keeps_bind keeps_assertLeaseOf fun _ => hcancel

theorem keeps_recordNew : Keeps (Quiet Grows) (recordNew lib ctx args rec event) := by
  refine keeps_bind keeps_arbitrate fun arbitrated => ?_
  refine keeps_bind keeps_persistCancelIntent fun _ => keeps_bind keeps_storeEvent fun _ => ?_
  exact keeps_bind keeps_completeCommand fun _ => keeps_pure _

/-- Recording an event delivers nothing, marks nothing and leaves every task its run. -/
theorem keeps_recordTaskEvent : Keeps (Quiet Grows) (recordTaskEvent lib ctx args event) := by
  refine keeps_bind keeps_assertRecordLeases fun _ db => keepsFrom_tables ?_
  split
  · exact keepsFrom_pure _ _
  split
  · exact keepsFrom_pure _ _
  · exact keepsFrom_bind (keeps_recordNew db) fun _ _ _ => keepsFrom_pure _ _

end Agents
