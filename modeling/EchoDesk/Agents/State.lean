import EchoDesk.Core.Json
import EchoDesk.Workflow.Store

/-! # Agent tasks, their events and their commands

The records and tables of `app/agents`: a task, the event a runner or the service reports about it,
the durable log of these events with its projection marker, and the command that cancels a task.

A column that holds a JSON text is kept as its value. States are stored as the text they came in
and read through `_state`, which takes an unknown text for pending.
-/

namespace Agents

open EchoDesk Workflow

inductive AgentTaskState where
  | waitingPermission
  | pending
  | running
  | cancelRequested
  | succeeded
  | failed
  | cancelled
  | cancelFailed
  | timeout
deriving DecidableEq

namespace AgentTaskState

def value : AgentTaskState → String
  | waitingPermission => "waiting_permission"
  | pending => "pending"
  | running => "running"
  | cancelRequested => "cancel_requested"
  | succeeded => "succeeded"
  | failed => "failed"
  | cancelled => "cancelled"
  | cancelFailed => "cancel_failed"
  | timeout => "timeout"

def isTerminal (state : AgentTaskState) : Bool :=
  state ∈ [succeeded, failed, cancelled, cancelFailed, timeout]

/-- The workflow state of the same name, for the states that have one. -/
def workflow? : AgentTaskState → Option WorkflowState
  | waitingPermission => none
  | pending => some .pending
  | running => some .running
  | cancelRequested => some .cancelRequested
  | succeeded => some .succeeded
  | failed => some .failed
  | cancelled => some .cancelled
  | cancelFailed => some .cancelFailed
  | timeout => some .timeout

end AgentTaskState

/-- `_state`. -/
def readState (raw : String) : AgentTaskState :=
  match raw with
  | "waiting_permission" => .waitingPermission
  | "running" => .running
  | "cancel_requested" => .cancelRequested
  | "succeeded" => .succeeded
  | "failed" => .failed
  | "cancelled" => .cancelled
  | "cancel_failed" => .cancelFailed
  | "timeout" => .timeout
  | _ => .pending

/-! ## Events -/

/-- `EchoTaskEvent`. -/
structure EchoTaskEvent where
  taskId : String
  runnerTaskId : Option String := none
  conversationId : Option String := none
  messageId : Option String := none
  seq : Nat := 0
  event : String
  state : String
  visibility : WorkflowVisibility := .user
  title : Option String := none
  textDelta : Option String := none
  message : Option String := none
  step : Option Dict := none
  artifacts : List Dict := []
  snapshot : Dict := []
  actions : List Dict := []
  permission : Option Dict := none
  rawRef : Option String := none
  ts : String

def visibilityText : WorkflowVisibility → String
  | .user => "user"
  | .debug => "debug"
  | .hidden => "hidden"

def optionalDict : Option Dict → Json
  | none => .null
  | some d => .obj d

/-- `event.model_dump(mode="json")`. -/
def EchoTaskEvent.modelDump (event : EchoTaskEvent) : Dict :=
  [("type", .str "echo_task_event"), ("task_id", .str event.taskId),
    ("runner_task_id", .ofText event.runnerTaskId),
    ("conversation_id", .ofText event.conversationId), ("message_id", .ofText event.messageId),
    ("seq", .int event.seq), ("event", .str event.event), ("state", .str event.state),
    ("visibility", .str (visibilityText event.visibility)), ("title", .ofText event.title),
    ("text_delta", .ofText event.textDelta), ("message", .ofText event.message),
    ("step", optionalDict event.step), ("artifacts", .arr (event.artifacts.map .obj)),
    ("snapshot", .obj event.snapshot), ("actions", .arr (event.actions.map .obj)),
    ("permission", optionalDict event.permission), ("raw_ref", .ofText event.rawRef),
    ("ts", .str event.ts)]

/-! ## Rows -/

/-- Primary key of `agent_tasks`. -/
structure TaskKey where
  scope : Scope
  taskId : String
deriving DecidableEq

/-- A row of `agent_tasks`. -/
structure AgentTaskRow where
  taskId : String
  scope : Scope
  deviceId : String
  title : String
  intentText : String
  state : String
  runnerTaskId : Option String := none
  conversationId : Option String := none
  messageId : Option String := none
  route : String := "claude_code"
  taskKind : Option String := none
  progressText : Option String := none
  finalText : Option String := none
  error : Option String := none
  artifacts : List Dict := []
  snapshot : Dict := []
  envelope : Dict := []
  grantId : Option String := none
  permissionProfile : Option String := none
  workflowRunId : Option String := none
  lastSeq : Nat := 0
  submittedAt : Timestamp
  finishedAt : Option Timestamp := none
  bridgeCompletedAt : Option Timestamp := none
  timeoutS : Nat := 1800

def AgentTaskRow.key (row : AgentTaskRow) : TaskKey := ⟨row.scope, row.taskId⟩

/-- The state of the record that `_row_to_record` makes of a row. -/
def AgentTaskRow.recordState (row : AgentTaskRow) : AgentTaskState := readState row.state

/-- The run a task is linked to; an empty id is no link. -/
def AgentTaskRow.run? (row : AgentTaskRow) : Option RunKey :=
  (truthy row.workflowRunId).map fun runId => ⟨row.scope, runId⟩

/-- Primary key of `agent_task_events`. -/
structure EventKey where
  task : TaskKey
  seq : Nat
deriving DecidableEq

/-- A row of `agent_task_events`. The columns `event`, `state`, `visibility` and `created_at` are
those of the payload. -/
structure AgentEventRow where
  taskId : String
  seq : Nat
  payload : EchoTaskEvent
  rawEventHash : Option String
  rawKind : Option String
  projectedAt : Option Timestamp
  scope : Scope
  deviceId : String

def AgentEventRow.taskKey (row : AgentEventRow) : TaskKey := ⟨row.scope, row.taskId⟩

def AgentEventRow.key (row : AgentEventRow) : EventKey := ⟨row.taskKey, row.seq⟩

inductive AgentCommandOutcome where
  | cancelled
  | cancelFailed
  | terminalWon

/-- A row of `agent_command_outbox`; every command is a cancel command. -/
structure AgentCommandRow where
  commandId : String
  scope : Scope
  deviceId : String
  taskId : String
  runnerTaskId : Option String
  operationKey : String
  attempts : Nat := 0
  nextAttemptAt : Timestamp := 0
  lastError : Option String := none
  outcome : Option AgentCommandOutcome := none
  forceRemote : Bool := false
  createdAt : Timestamp
  updatedAt : Timestamp
  completedAt : Option Timestamp := none

def AgentCommandRow.taskKey (row : AgentCommandRow) : TaskKey := ⟨row.scope, row.taskId⟩

/-! ## Tables -/

def AgentTaskRow.conflict (a b : AgentTaskRow) : Prop := a.key = b.key

instance : DecidableRel AgentTaskRow.conflict := fun _ _ => inferInstanceAs (Decidable (_ = _))

instance : Std.Symm AgentTaskRow.conflict := ⟨fun _ _ h => h.symm⟩

/-- The primary key, and the raw hash of a frame within its task. -/
def AgentEventRow.conflict (a b : AgentEventRow) : Prop :=
  a.key = b.key ∨ (a.taskKey = b.taskKey ∧ a.rawEventHash ≠ none ∧ a.rawEventHash = b.rawEventHash)

instance : DecidableRel AgentEventRow.conflict := fun _ _ => inferInstanceAs (Decidable (_ ∨ _))

instance : Std.Symm AgentEventRow.conflict where
  symm a b := by
    rintro (h | ⟨htask, hsome, hhash⟩)
    · exact .inl h.symm
    · exact .inr ⟨htask.symm, hhash ▸ hsome, hhash.symm⟩

/-- The primary key, the operation key, and one cancel command for each task. -/
def AgentCommandRow.conflict (a b : AgentCommandRow) : Prop :=
  (a.scope = b.scope ∧ a.commandId = b.commandId) ∨ a.operationKey = b.operationKey ∨
    a.taskKey = b.taskKey

instance : DecidableRel AgentCommandRow.conflict := fun _ _ =>
  inferInstanceAs (Decidable (_ ∨ _ ∨ _))

instance : Std.Symm AgentCommandRow.conflict where
  symm a b := by
    rintro (⟨hscope, hid⟩ | h | h)
    · exact .inl ⟨hscope.symm, hid.symm⟩
    · exact .inr (.inl h.symm)
    · exact .inr (.inr h.symm)

/-- The tables of the agent service, and the meetings a run may refer to. -/
structure AgentTables where
  tasks : Table AgentTaskRow AgentTaskRow.conflict
  events : Table AgentEventRow AgentEventRow.conflict
  commands : Table AgentCommandRow AgentCommandRow.conflict
  meetings : Scope → String → Bool

instance : DomainTables AgentTables := ⟨AgentTables.meetings⟩

/-- `SELECT * FROM agent_tasks WHERE task_id = ? AND tenant_id = ? AND owner_id = ?`. -/
def AgentTables.findTask (tables : AgentTables) (key : TaskKey) : Option AgentTaskRow :=
  tables.tasks.lookup fun row => row.key = key

/-- `SELECT … FROM agent_task_events WHERE task_id = ? AND seq = ? AND …`. -/
def AgentTables.findEvent (tables : AgentTables) (key : EventKey) : Option AgentEventRow :=
  tables.events.lookup fun row => row.key = key

variable {tables : AgentTables}

theorem AgentTables.findTask_eq_some {key : TaskKey} {row : AgentTaskRow} :
    tables.findTask key = some row ↔ row ∈ tables.tasks ∧ row.key = key := by
  rw [AgentTables.findTask, Table.lookup_eq_some]
  · simp
  · intro a b ha hb
    exact (of_decide_eq_true ha).trans (of_decide_eq_true hb).symm

theorem AgentTables.findEvent_eq_some {key : EventKey} {row : AgentEventRow} :
    tables.findEvent key = some row ↔ row ∈ tables.events ∧ row.key = key := by
  rw [AgentTables.findEvent, Table.lookup_eq_some]
  · simp
  · intro a b ha hb
    exact .inl ((of_decide_eq_true ha).trans (of_decide_eq_true hb).symm)

end Agents
