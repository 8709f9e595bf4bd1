import EchoDesk.Agents.State
import EchoDesk.Core.Python
import EchoDesk.Workflow.Deliveries

/-! # The statements of the agent tables

Reads and writes of `agent_tasks`, `agent_task_events` and `agent_command_outbox` on an open
transaction, the checks of a lease against the scope a call works in, and the cancel commands of
`app/agents/command_outbox.py`.
-/

namespace Agents

open EchoDesk Workflow Transaction Runtime List

/-- A transaction of the agent service. -/
abbrev AgentTx (α : Type) : Type := WorkflowTx AgentTables α

/-- What the service takes from the standard library: hashes of texts as hexadecimal digits, and
`str` of a value that is not a text. -/
structure Library where
  sha1 : String → String
  sha256 : String → String
  str : Json → String

/-! ## Tables -/

def selectTables : AgentTx AgentTables := do
  return (← get).domain

def writeTables (tables : AgentTables) : AgentTx Unit := do
  let db ← get
  set { db with domain := tables }

/-- `UPDATE agent_tasks SET … WHERE task_id = ? AND tenant_id = ? AND owner_id = ? …` and its row
count. -/
def updateTask (key : TaskKey) (alsoWhere : AgentTaskRow → Bool)
    (assign : AgentTaskRow → AgentTaskRow) : AgentTx Nat := do
  let tables ← selectTables
  match tables.tasks.update? (fun row => row.key = key ∧ alsoWhere row) assign with
  | none => throw .integrityError
  | some tasks =>
    writeTables { tables with tasks := tasks }
    return tables.tasks.rows.countP fun row => row.key = key ∧ alsoWhere row

/-- `INSERT INTO agent_task_events`. -/
def insertTaskEvent (event : AgentEventRow) : AgentTx Unit := do
  let tables ← selectTables
  match tables.events.insert? event with
  | none => throw .integrityError
  | some events => writeTables { tables with events := events }

/-- An update of `agent_task_events` and its row count. -/
def updateTaskEvents (selected : AgentEventRow → Bool) (assign : AgentEventRow → AgentEventRow) :
    AgentTx Nat := do
  let tables ← selectTables
  match tables.events.update? selected assign with
  | none => throw .integrityError
  | some events =>
    writeTables { tables with events := events }
    return tables.events.rows.countP selected

/-- An update of `agent_command_outbox` and its row count. -/
def updateCommands (selected : AgentCommandRow → Bool) (assign : AgentCommandRow → AgentCommandRow) :
    AgentTx Nat := do
  let tables ← selectTables
  match tables.commands.update? selected assign with
  | none => throw .integrityError
  | some commands =>
    writeTables { tables with commands := commands }
    return tables.commands.rows.countP selected

/-! ## Leases -/

/-- A lease that must be one of the given resource, and owned. -/
def assertLeaseOf (ctx : Context) (token : LeaseToken Timestamp) (key : LeaseKey)
    (mismatch : String) : AgentTx Unit :=
  if token.toLeaseKey ≠ key then throw (.lease (.leaseOwnershipError mismatch))
  else do
    match assertOwned (← get).leases ctx.leaseNow token with
    | .ok () => return ()
    | .error e => throw (.lease e)

def leaseKeyOf (scope : Scope) (resourceKind resourceId : String) : LeaseKey :=
  ⟨scope.tenantId, scope.ownerId, resourceKind, resourceId⟩

/-- `_assert_task_lease`. -/
def assertTaskLease (ctx : Context) (token : LeaseToken Timestamp) (taskId : String) :
    AgentTx Unit :=
  assertLeaseOf ctx token (leaseKeyOf ctx.scope "agent_task" taskId)
    "agent task event lease scope does not match task"

/-- `_assert_submit_lease`. -/
def assertSubmitLease (ctx : Context) (token : LeaseToken Timestamp) (taskId : String) :
    AgentTx Unit :=
  assertLeaseOf ctx token (leaseKeyOf ctx.scope "agent_submit" taskId)
    "submit lease scope does not match task"

/-- `_assert_cancel_command_lease`. -/
def assertCancelCommandLease (ctx : Context) (command : AgentCommandRow)
    (token : LeaseToken Timestamp) (taskId : String) : AgentTx Unit :=
  if command.taskKey ≠ ⟨ctx.scope, taskId⟩ then
    throw (.lease (.leaseOwnershipError "cancel command lease scope does not match task"))
  else
    assertLeaseOf ctx token (leaseKeyOf ctx.scope "agent_command" command.commandId)
      "cancel command lease scope does not match task"

/-! ## Cancel commands -/

def nul : String := String.singleton (Char.ofNat 0)

/-- `cancel_operation_key`. -/
def cancelOperationKey (lib : Library) (key : TaskKey) : String :=
  "agent-cancel-" ++ lib.sha256 ("v1" ++ nul ++ key.scope.tenantId ++ nul ++ key.scope.ownerId ++
    nul ++ key.taskId ++ nul ++ "cancel")

/-- The id of a cancel command: `operation_key.removeprefix('agent-cancel-')[:32]`. -/
def cancelCommandId (lib : Library) (key : TaskKey) : String :=
  "agent_cmd_" ++ slice 32 (String.ofList ((cancelOperationKey lib key).toList.drop 13))

/-- `enqueue_cancel_in_transaction`: one command for each task; a command that is not completed
takes over a runner id it did not have, a completed one stays as it is. No caller uses the row it
returns. -/
def enqueueCancelInTransaction (lib : Library) (ctx : Context) (taskId : String)
    (runnerTaskId : Option String) : AgentTx Unit := do
  let key : TaskKey := ⟨ctx.scope, taskId⟩
  let tables ← selectTables
  match tables.commands.lookup fun row => row.taskKey = key with
  | some _ => do
    let _ ← updateCommands (fun row => row.taskKey = key ∧ row.completedAt = none) fun row =>
      { row with runnerTaskId := row.runnerTaskId.or runnerTaskId, updatedAt := ctx.now }
  | none =>
    let command : AgentCommandRow :=
      { commandId := cancelCommandId lib key, scope := ctx.scope
        deviceId := ctx.principal.deviceId, taskId := taskId, runnerTaskId := runnerTaskId
        operationKey := cancelOperationKey lib key, createdAt := ctx.now, updatedAt := ctx.now }
    match tables.commands.insert? command with
    | none => throw .integrityError
    | some commands => writeTables { tables with commands := commands }

/-- `mark_completed_in_transaction`. -/
def markCompletedInTransaction (ctx : Context) (command : AgentCommandRow)
    (outcome : AgentCommandOutcome) : AgentTx Bool := do
  let changed ← updateCommands
    (fun row => row.scope = command.scope ∧ row.commandId = command.commandId ∧
      row.completedAt = none)
    fun row =>
      { row with
        outcome := some outcome, completedAt := some ctx.now, updatedAt := ctx.now
        lastError := none, forceRemote := false }
  return changed = 1

/-! ## What the statements keep -/

/-- The log of events only grows, by events that are not projected, and the tasks are the same, each
linked to the same run. -/
structure Grows (a b : AgentTables) : Prop where
  events : ∃ new, b.events.rows = a.events.rows ++ new ∧ ∀ row ∈ new, row.projectedAt = none
  tasks : ∀ row ∈ a.tasks, ∃ row' ∈ b.tasks,
    row'.key = row.key ∧ row'.workflowRunId = row.workflowRunId
  known : ∀ row' ∈ b.tasks, ∃ row ∈ a.tasks,
    row.key = row'.key ∧ row.workflowRunId = row'.workflowRunId

variable {a b : AgentTables}

/-- No event is new, and every task row is known by its key and its run. -/
theorem Grows.of_events (hevents : b.events = a.events) (htasks : ∀ row ∈ a.tasks, ∃ row' ∈ b.tasks,
      row'.key = row.key ∧ row'.workflowRunId = row.workflowRunId)
    (hknown : ∀ row' ∈ b.tasks, ∃ row ∈ a.tasks,
      row.key = row'.key ∧ row.workflowRunId = row'.workflowRunId) : Grows a b := by
  refine ⟨⟨[], ?_, ?_⟩, htasks, hknown⟩
  · rw [hevents, append_nil]
  · intro row hrow
    exact absurd hrow not_mem_nil

theorem Grows.of_same (hevents : b.events = a.events) (htasks : b.tasks = a.tasks) : Grows a b := by
  refine .of_events hevents (fun row h => ⟨row, ?_, rfl, rfl⟩) fun row h => ⟨row, ?_, rfl, rfl⟩
  · rwa [htasks]
  · rwa [← htasks]

instance : Std.Refl Grows := ⟨fun _ => .of_same rfl rfl⟩

instance : IsTrans AgentTables Grows where
  trans a b c hab hbc := by
    obtain ⟨new, hnew, hfresh⟩ := hab.events
    obtain ⟨new', hnew', hfresh'⟩ := hbc.events
    refine ⟨⟨new ++ new', by rw [hnew', hnew, List.append_assoc], fun row hrow => ?_⟩, ?_, ?_⟩
    · rcases List.mem_append.1 hrow with h | h
      · exact hfresh row h
      · exact hfresh' row h
    · intro row hrow
      obtain ⟨row₁, hrow₁, hkey₁, hrun₁⟩ := hab.tasks row hrow
      obtain ⟨row₂, hrow₂, hkey₂, hrun₂⟩ := hbc.tasks row₁ hrow₁
      exact ⟨row₂, hrow₂, hkey₂.trans hkey₁, hrun₂.trans hrun₁⟩
    · intro row hrow
      obtain ⟨row₁, hrow₁, hkey₁, hrun₁⟩ := hbc.known row hrow
      obtain ⟨row₂, hrow₂, hkey₂, hrun₂⟩ := hab.known row₁ hrow₁
      exact ⟨row₂, hrow₂, hkey₂.trans hkey₁, hrun₂.trans hrun₁⟩

variable {db : Db AgentTables} {tables : AgentTables} {D : AgentTables → AgentTables → Prop}
variable {ctx : Context}
variable {assign : AgentTaskRow → AgentTaskRow}
variable {alsoWhere : AgentTaskRow → Bool} {db' : Db AgentTables} {key : TaskKey}

theorem selectTables_returns :
    Returns selectTables db tables db' ↔ db.domain = tables ∧ db = db' := by
  simp only [selectTables, returns_get_bind, returns_pure]

theorem writeTables_returns {u : Unit} :
    Returns (writeTables tables) db u db' ↔ db' = { db with domain := tables } := by
  simp only [writeTables, returns_get_bind, returns_set, eq_comm]

/-- A write of the tables that were read just before. -/
theorem keepsFrom_tables {α : Type} {f : AgentTables → AgentTx α}
    (h : KeepsFrom (Quiet D) db (f db.domain)) : KeepsFrom (Quiet D) db (selectTables >>= f) := by
  intro a db' hret
  obtain ⟨tables, db₁, hsel, hrest⟩ := returns_bind.1 hret
  obtain ⟨rfl, rfl⟩ := selectTables_returns.1 hsel
  exact h a db' hrest

theorem keepsFrom_writeTables (h : D db.domain tables) :
    KeepsFrom (Quiet D) db (writeTables tables) := by
  intro u db' hret
  rw [writeTables_returns.1 hret]
  exact ⟨rfl, fun row hrow => ⟨row, hrow, rfl, rfl⟩, h⟩

theorem keeps_assertLeaseOf [Std.Refl D] {token : LeaseToken Timestamp} {key : LeaseKey}
    {mismatch : String} :
    Keeps (Quiet D) (assertLeaseOf ctx token key mismatch) := by
  refine keeps_ite (fun _ => keeps_throw _) fun _ db => keepsFrom_get_bind ?_
  split
  · exact keepsFrom_pure _ _
  · exact keepsFrom_throw _ _

/-- A task row that an update has written is the row before it, with the same link. -/
theorem grows_of_updateTask {selected : AgentTaskRow → Bool}
    (hassign : ∀ row ∈ tables.tasks, selected row → (assign row).key = row.key ∧
      (assign row).workflowRunId = row.workflowRunId)
    {tasks : Table AgentTaskRow AgentTaskRow.conflict}
    (h : tables.tasks.update? selected assign = some tasks) :
    Grows tables { tables with tasks := tasks } := by
  have hsame : ∀ row ∈ tables.tasks, (if selected row then assign row else row).key = row.key ∧
      (if selected row then assign row else row).workflowRunId = row.workflowRunId := by
    intro row hrow
    by_cases hsel : selected row
    · rw [if_pos hsel]
      exact hassign row hrow hsel
    · rw [if_neg hsel]
      exact ⟨rfl, rfl⟩
  refine .of_events rfl (fun row hrow => ?_) fun row hrow => ?_
  · exact ⟨_, (Table.mem_update? h).2 ⟨row, hrow, rfl⟩, hsame row hrow⟩
  · rcases (Table.mem_update? h).1 hrow with ⟨old, hold, rfl⟩
    exact ⟨old, hold, (hsame old hold).1.symm, (hsame old hold).2.symm⟩

/-- An update that leaves the rows it writes their key and their run. -/
theorem keepsFrom_updateTask
    (hassign : ∀ row ∈ db.domain.tasks, row.key = key → (assign row).key = row.key ∧
      (assign row).workflowRunId = row.workflowRunId) :
    KeepsFrom (Quiet Grows) db (updateTask key alsoWhere assign) := by
  refine keepsFrom_tables ?_
  split
  · exact keepsFrom_throw _ _
  rename_i tasks htasks
  refine keepsFrom_bind (keepsFrom_writeTables (grows_of_updateTask ?_ htasks)) fun _ _ _ =>
    keepsFrom_pure _ _
  intro row hrow hselected
  exact hassign row hrow (of_decide_eq_true hselected).1

theorem keeps_updateTask
    (hassign : ∀ row, (assign row).key = row.key ∧ (assign row).workflowRunId = row.workflowRunId) :
    Keeps (Quiet Grows) (updateTask key alsoWhere assign) :=
  fun _ => keepsFrom_updateTask fun row _ _ => hassign row

theorem grows_of_commands (commands : Table AgentCommandRow AgentCommandRow.conflict) :
    Grows tables { tables with commands := commands } :=
  .of_same rfl rfl

theorem keeps_updateCommands {selected : AgentCommandRow → Bool}
    {assign : AgentCommandRow → AgentCommandRow} :
    Keeps (Quiet Grows) (updateCommands selected assign) := by
  intro db
  refine keepsFrom_tables ?_
  split
  · exact keepsFrom_throw _ _
  · exact keepsFrom_bind (keepsFrom_writeTables (grows_of_commands _)) fun _ _ _ => keepsFrom_pure _ _

theorem keeps_insertTaskEvent {event : AgentEventRow} (hnew : event.projectedAt = none) :
    Keeps (Quiet Grows) (insertTaskEvent event) := by
  intro db
  refine keepsFrom_tables ?_
  split
  · exact keepsFrom_throw _ _
  rename_i events hevents
  refine keepsFrom_writeTables ⟨⟨[event], Table.rows_of_insert? hevents, fun row hrow => ?_⟩,
    fun row h => ⟨row, h, rfl, rfl⟩, fun row h => ⟨row, h, rfl, rfl⟩⟩
  rwa [mem_singleton.1 hrow]

theorem keeps_enqueueCancel {lib : Library} {taskId : String} {runnerTaskId : Option String} :
    Keeps (Quiet Grows) (enqueueCancelInTransaction lib ctx taskId runnerTaskId) := by
  intro db
  refine keepsFrom_tables ?_
  dsimp only
  split
  · exact keepsFrom_bind (keeps_updateCommands db) fun _ _ _ => keepsFrom_pure _ _
  split
  · exact keepsFrom_throw _ _
  · exact keepsFrom_writeTables (grows_of_commands _)

end Agents
