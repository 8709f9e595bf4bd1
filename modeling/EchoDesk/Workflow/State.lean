import EchoDesk.Core.Data

/-! # Workflow states, runs and events

The states of a run with their transition table, and the records of
`app/workflows/service.py` and `app/schemas/workflow.py`: a run, an event, and
the request that creates a run.
-/

namespace Workflow

open EchoDesk

inductive WorkflowState where
  | pending
  | running
  | cancelRequested
  | succeeded
  | failed
  | timeout
  | cancelled
  | cancelFailed
deriving DecidableEq

inductive WorkflowVisibility where
  | user
  | debug
  | hidden

namespace WorkflowState

/-- The stored text of a state. -/
def text : WorkflowState → String
  | pending => "pending"
  | running => "running"
  | cancelRequested => "cancel_requested"
  | succeeded => "succeeded"
  | failed => "failed"
  | timeout => "timeout"
  | cancelled => "cancelled"
  | cancelFailed => "cancel_failed"

/-- `TERMINAL_WORKFLOW_STATES`. -/
def terminalWorkflowStates : List WorkflowState :=
  [succeeded, failed, timeout, cancelled, cancelFailed]

/-- `state in TERMINAL_WORKFLOW_STATES`. -/
def isTerminal (state : WorkflowState) : Bool := state ∈ terminalWorkflowStates

/-- `state IN ('pending', 'running', 'cancel_requested')`. -/
def isActive (state : WorkflowState) : Bool := state ∈ [pending, running, cancelRequested]

/-- `_LEGAL_TRANSITIONS`. -/
def legalTransitions : WorkflowState → List WorkflowState
  | pending => [running, cancelRequested, cancelled, failed, timeout]
  | running => [cancelRequested, succeeded, failed, timeout]
  | cancelRequested => [cancelled, cancelFailed, succeeded, failed, timeout]
  | succeeded => []
  | failed => []
  | timeout => []
  | cancelled => []
  | cancelFailed => []

@[simp] theorem isActive_eq_not (state : WorkflowState) : state.isActive = !state.isTerminal := by
  cases state <;> rfl

/-- Nothing leads out of a terminal state. -/
theorem not_terminal_of_legal {a b : WorkflowState} (h : b ∈ a.legalTransitions) :
    a.isTerminal = false := by
  cases a <;> first | rfl | cases h

end WorkflowState

/-- `WorkflowRunRecord`: the columns of a run that clients see. -/
structure WorkflowRunRecord where
  runId : String
  kind : String
  source : String
  state : WorkflowState
  title : Option String
  intentText : String
  meetingId : Option String := none
  todoId : Option String := none
  agentTaskId : Option String := none
  input : Dict := []
  output : Dict := []
  error : Option String := none
  timeoutS : Option Nat := none
  revision : Nat := 0
  idempotencyKey : Option String := none
  activeKey : Option String := none
  attempt : Nat := 1
  parentRunId : Option String := none
  deadlineAt : Option Timestamp := none
  cancelRequestedAt : Option Timestamp := none
  createdAt : Timestamp
  startedAt : Option Timestamp := none
  finishedAt : Option Timestamp := none
  updatedAt : Timestamp

def WorkflowRunRecord.isTerminal (run : WorkflowRunRecord) : Bool := run.state.isTerminal

/-- A row of `workflow_runs`. -/
structure RunRow extends WorkflowRunRecord where
  scope : Scope
  deviceId : String

/-- `WorkflowEventRecord`: an event as clients see it. -/
structure WorkflowEventRecord where
  runId : String
  seq : Nat
  eventType : String
  state : WorkflowState
  visibility : WorkflowVisibility
  message : Option String
  payload : Dict := []
  createdAt : Timestamp

/-- A row of `workflow_events`; its payload is the durable one. -/
structure EventRow extends WorkflowEventRecord where
  scope : Scope
  deviceId : String

/-- `_row_to_event`: the private delivery key never leaves the store. -/
def rowToEvent (row : EventRow) : WorkflowEventRecord :=
  { row.toWorkflowEventRecord with payload := row.payload.pop "agent_delivery_key" }

/-- `WorkflowRunCreate`. -/
structure WorkflowRunCreate where
  kind : String
  source : String := "manual"
  title : Option String := none
  intentText : String
  meetingId : Option String := none
  todoId : Option String := none
  agentTaskId : Option String := none
  input : Dict := []
  timeoutS : Option Nat := none
  idempotencyKey : Option String := none
  activeKey : Option String := none

/-- Primary key of `workflow_runs`. -/
structure RunKey where
  scope : Scope
  runId : String
deriving DecidableEq

def RunRow.key (row : RunRow) : RunKey := ⟨row.scope, row.runId⟩

def EventRow.key (row : EventRow) : RunKey := ⟨row.scope, row.runId⟩

/-- The unique indexes of `workflow_runs`: the primary key, the permanent
idempotency key, and the active key among active runs. -/
def RunRow.conflict (a b : RunRow) : Prop :=
  a.key = b.key ∨
  (a.scope = b.scope ∧ a.idempotencyKey ≠ none ∧ a.idempotencyKey = b.idempotencyKey) ∨
  (a.scope = b.scope ∧ a.activeKey ≠ none ∧ a.activeKey = b.activeKey ∧
    a.state.isActive ∧ b.state.isActive)

instance : DecidableRel RunRow.conflict := fun _ _ => inferInstanceAs (Decidable (_ ∨ _ ∨ _))

instance : Std.Symm RunRow.conflict where
  symm a b := by
    rintro (h | ⟨hs, hn, hk⟩ | ⟨hs, hn, hk, ha, hb⟩)
    · exact .inl h.symm
    · exact .inr (.inl ⟨hs.symm, hk ▸ hn, hk.symm⟩)
    · exact .inr (.inr ⟨hs.symm, hk ▸ hn, hk.symm, hb, ha⟩)

/-- Primary key of `workflow_events`. -/
def EventRow.conflict (a b : EventRow) : Prop := a.key = b.key ∧ a.seq = b.seq

instance : DecidableRel EventRow.conflict := fun _ _ => inferInstanceAs (Decidable (_ ∧ _))

end Workflow
