import EchoDesk.Foundations.Table
import EchoDesk.Foundations.Transaction
import EchoDesk.Outbox.Table
import EchoDesk.Runtime.ExecutionLease
import EchoDesk.Workflow.State

/-! # The workflow database and its statements

The tables a workflow transaction touches, the context a call captures, and the
helpers every operation of `WorkflowService` is composed of: the row read, the
revision-checked update, `_append_event_tx` and `_append_domain_outbox_tx`, the
bound lease and its check, and the call of a domain writer.

Other subsystems' tables are the parameter `δ`. A domain writer may read the
whole database and writes `δ` and rows of the outbox of kind `domain`.
-/

namespace Workflow

open EchoDesk Transaction OrderedLog Outbox Runtime List

/-- The `payload_json` of an outbox row, with the `meeting_id` beside it. -/
inductive OutboxPayload where
  | event (meetingId : Option String) (body : WorkflowEventRecord)
  | snapshot (meetingId : Option String) (body : WorkflowRunRecord)
  | domain (meetingId : Option String) (body : Dict)

/-- The tables outside the workflow store. -/
class DomainTables (δ : Type) where
  /-- The row a foreign key of `workflow_runs` asks for in `meetings`. -/
  hasMeeting : δ → Scope → String → Bool

/-- Without other tables, no foreign key is checked. -/
instance : DomainTables Unit := ⟨fun _ _ _ => true⟩

/-- The database. -/
structure Db (δ : Type) where
  runs : Table RunRow RunRow.conflict
  events : Table EventRow EventRow.conflict
  outbox : OutboxTable OutboxPayload
  leases : Leases Timestamp
  domain : δ

/-- An empty database around given domain tables. -/
def Db.empty {δ : Type} (domain : δ) : Db δ :=
  ⟨Table.empty, Table.empty, OutboxTable.empty, fun _ => none, domain⟩

/-- What a call captures: its principal, the execution lease bound to its
context, and the readings of the two clocks it makes. -/
structure Context where
  principal : Principal
  boundLease : Option (LeaseToken Timestamp) := none
  now : Timestamp := 0
  leaseNow : Timestamp := 0

def Context.scope (ctx : Context) : Scope := ctx.principal.scope

/-- What an operation raises. -/
inductive WorkflowError where
  | invalidWorkflowTransition (message : String)
  | workflowConflictError (message : String)
  | lease (error : LeaseError)
  | valueError (message : String)
  | integrityError
  | domain (message : String)

/-- A workflow transaction. -/
abbrev WorkflowTx (δ α : Type) : Type := Tx (Db δ) WorkflowError α

variable {δ : Type}
variable {runs : Table RunRow RunRow.conflict} {key : RunKey}
variable {new old row : RunRow}

/-! ## Rows -/

/-- `SELECT * FROM workflow_runs WHERE run_id = ? AND tenant_id = ? AND owner_id = ?`. -/
def Db.findRun (db : Db δ) (key : RunKey) : Option RunRow :=
  db.runs.lookup fun row => row.key = key

/-- The events of a run, in the order they were written. -/
def Db.history (db : Db δ) (key : RunKey) : List EventRow :=
  db.events.rows.filter fun event => event.key = key

/-- `SELECT COALESCE(MAX(seq), 0) + 1`. -/
def Db.nextSeq (db : Db δ) (key : RunKey) : Nat :=
  maxPos (fun event : EventRow => event.seq) (db.history key) + 1

def selectRun (key : RunKey) : WorkflowTx δ (Option RunRow) := do
  return (← get).findRun key

/-- `UPDATE workflow_runs SET … WHERE run_id = ? AND tenant_id = ? AND owner_id = ?
AND revision = ? …` and its row count. -/
def updateRun (key : RunKey) (revision : Nat) (alsoWhere : RunRow → Bool)
    (assign : RunRow → RunRow) : WorkflowTx δ Nat := do
  let db ← get
  let selected := fun row : RunRow => row.key = key ∧ row.revision = revision ∧ alsoWhere row
  match db.runs.update? (fun row => selected row) assign with
  | none => throw .integrityError
  | some runs =>
    set { db with runs := runs }
    return db.runs.rows.countP fun row => selected row

/-- An update that must hit its row. -/
def updateRunOrConflict (key : RunKey) (revision : Nat) (alsoWhere : RunRow → Bool)
    (assign : RunRow → RunRow) (conflict : String) : WorkflowTx δ Unit := do
  let changed ← updateRun key revision alsoWhere assign
  if changed ≠ 1 then throw (.workflowConflictError (conflict ++ key.runId)) else return ()

/-- The row an update has just written. -/
def reselectRun (key : RunKey) (disappeared : String) : WorkflowTx δ RunRow := do
  match ← selectRun key with
  | none => throw (.workflowConflictError (disappeared ++ key.runId))
  | some row => return row

/-! ## Events and outbox rows -/

def insertEvent (event : EventRow) : WorkflowTx δ Unit := do
  let db ← get
  match db.events.insert? event with
  | none => throw .integrityError
  | some events => set { db with events := events }

def insertOutbox (row : NewOutboxRow OutboxPayload) : WorkflowTx δ Unit := do
  let db ← get
  set { db with outbox := db.outbox.append row }

/-- The two outbox rows of an event: the event itself and a snapshot of `run`. -/
def workflowOutboxRows (ctx : Context) (run : WorkflowRunRecord) (event : WorkflowEventRecord) :
    List (NewOutboxRow OutboxPayload) :=
  let row := fun topic payload =>
    { scope := ctx.scope, deviceId := ctx.principal.deviceId, aggregateType := .workflow
      aggregateId := run.runId, eventType := topic, payload := payload
      createdAt := event.createdAt }
  [row "workflow.event" (.event run.meetingId event),
    row "workflow.snapshot" (.snapshot run.meetingId run)]

/-- `_append_event_tx`. The delivery key stays in the durable payload only. -/
def appendEventTx (ctx : Context) (run : WorkflowRunRecord) (eventType : String)
    (message : Option String) (payload : Dict) (visibility : WorkflowVisibility) :
    WorkflowTx δ WorkflowEventRecord := do
  let db ← get
  let event : WorkflowEventRecord :=
    { runId := run.runId, seq := db.nextSeq ⟨ctx.scope, run.runId⟩, eventType := eventType
      state := run.state, visibility := visibility, message := message
      payload := payload.pop "agent_delivery_key", createdAt := ctx.now }
  insertEvent { event with
    payload := payload, scope := ctx.scope, deviceId := ctx.principal.deviceId }
  (workflowOutboxRows ctx run event).forM insertOutbox
  return event

/-- The outbox row of `_append_domain_outbox_tx`. -/
def domainOutboxRow (ctx : Context) (aggregateId : String) (event : EchoEvent) :
    NewOutboxRow OutboxPayload where
  scope := ctx.scope
  deviceId := ctx.principal.deviceId
  aggregateType := .domain
  aggregateId := aggregateId
  eventType := event.type
  payload := .domain event.meetingId event.payload
  createdAt := event.ts

/-- `_append_domain_outbox_tx` for each event of a list. -/
def appendDomainOutboxTx (ctx : Context) (aggregateId : String) (events : List EchoEvent) :
    WorkflowTx δ Unit :=
  events.forM fun event => insertOutbox (domainOutboxRow ctx aggregateId event)

/-! ## Domain writers -/

/-- What a domain writer did: the domain tables it left (also when it raised),
the domain events it staged with `append_domain_event_in_transaction`, and its
return value or exception. -/
structure DomainWrite (δ : Type) where
  tables : δ
  staged : List (String × EchoEvent) := []
  outcome : Except String Bool := .ok true

abbrev DomainWriter (δ : Type) : Type := Db δ → DomainWrite δ

/-- Call a domain writer on the open transaction. -/
def runDomainWriter (ctx : Context) (writer : DomainWriter δ) : WorkflowTx δ Bool := do
  let db : Db δ ← get
  let write := writer db
  set { db with
    domain := write.tables
    outbox := db.outbox.appendAll
      (write.staged.map fun entry : String × EchoEvent => domainOutboxRow ctx entry.1 entry.2) }
  match write.outcome with
  | .ok applied => return applied
  | .error message => throw (.domain message)

/-- Call a domain writer that may be missing. -/
def runOptionalWriter (ctx : Context) (writer : Option (DomainWriter δ)) : WorkflowTx δ Bool :=
  match writer with
  | none => return true
  | some writer => runDomainWriter ctx writer

/-! ## The bound lease -/

/-- `_workflow_lease`: the explicit lease, or the one bound to the context. -/
def workflowLease (ctx : Context) (lease : Option (LeaseToken Timestamp)) :
    Except WorkflowError (Option (LeaseToken Timestamp)) :=
  match lease.or ctx.boundLease with
  | none => .ok none
  | some active =>
    if active.resourceKind ≠ "workflow" then
      .error (.lease (.leaseOwnershipError "non-workflow lease used for workflow mutation"))
    else .ok (some active)

/-- The lease key of a run. -/
def leaseKey (scope : Scope) (runId : String) : LeaseKey :=
  ⟨scope.tenantId, scope.ownerId, "workflow", runId⟩

/-- `_assert_workflow_lease`. -/
def assertWorkflowLease (ctx : Context) (runId : String)
    (lease : Option (LeaseToken Timestamp)) : WorkflowTx δ Unit := do
  match workflowLease ctx lease with
  | .error e => throw e
  | .ok none => return ()
  | .ok (some active) =>
    if active.tenantId ≠ ctx.scope.tenantId ∨ active.ownerId ≠ ctx.scope.ownerId ∨
        active.resourceId ≠ runId then
      throw (.lease (.leaseOwnershipError "workflow lease scope does not match the requested run"))
    else
      match assertOwned (← get).leases ctx.leaseNow active with
      | .ok () => return ()
      | .error e => throw (.lease e)

/-! ## What the statements return -/

variable {db db' : Db δ}

theorem Db.findRun_eq_some : db.findRun key = some row ↔ row ∈ db.runs ∧ row.key = key := by
  rw [Db.findRun, Table.lookup_eq_some]
  · simp
  · intro a b ha hb
    exact .inl ((of_decide_eq_true ha).trans (of_decide_eq_true hb).symm)

theorem Db.findRun_eq_none : db.findRun key = none ↔ ∀ row ∈ db.runs, row.key ≠ key := by
  simp [Db.findRun, Table.lookup_eq_none]

@[simp] theorem selectRun_returns {row : Option RunRow} :
    Returns (selectRun key) db row db' ↔ db.findRun key = row ∧ db = db' := by
  simp only [selectRun, returns_get_bind, returns_pure]

/-- Exactly the row `old` of the table became `new`. -/
structure Replaced (runs : Table RunRow RunRow.conflict) (old new : RunRow)
    (runs' : Table RunRow RunRow.conflict) : Prop where
  stored : old ∈ runs
  rows : runs'.rows = runs.rows.map fun row => if row.key = old.key then new else row

theorem Replaced.mem_iff {runs' : Table RunRow RunRow.conflict} (h : Replaced runs old new runs') :
    row ∈ runs' ↔ row = new ∨ (row ∈ runs ∧ row.key ≠ old.key) := by
  rw [Table.mem_def, h.rows, mem_map]
  constructor
  · rintro ⟨r, hr, rfl⟩
    by_cases hk : r.key = old.key
    · rw [if_pos hk]
      exact .inl rfl
    · rw [if_neg hk]
      exact .inr ⟨hr, hk⟩
  · rintro (rfl | ⟨hr, hk⟩)
    · exact ⟨old, h.stored, if_pos rfl⟩
    · exact ⟨row, hr, if_neg hk⟩

/-- Two stored rows with one key are one row. -/
theorem eq_of_key_eq {a b : RunRow} (ha : a ∈ runs) (hb : b ∈ runs) (h : a.key = b.key) :
    a = b := Table.eq_of_conflict ha hb (.inl h)

/-- A revision-checked update that did not raise replaced the row it read. -/
theorem updateRunOrConflict_returns {revision : Nat} {alsoWhere : RunRow → Bool}
    {assign : RunRow → RunRow} {conflict : String} {u : Unit}
    (h : Returns (updateRunOrConflict key revision alsoWhere assign conflict) db u db') :
    ∃ old, old.key = key ∧ old.revision = revision ∧ alsoWhere old ∧
      ∃ runs, Replaced db.runs old (assign old) runs ∧ db' = { db with runs := runs } := by
  simp only [updateRunOrConflict, updateRun, returns_bind, returns_get] at h
  obtain ⟨changed, db₁, ⟨_, _, ⟨rfl, rfl⟩, hupd⟩, hcheck⟩ := h
  split at hupd
  · exact (returns_throw.1 hupd).elim
  rename_i runs hruns
  obtain ⟨_, _, rfl, rfl, rfl⟩ := hupd
  obtain ⟨hone, hret⟩ := returns_guard.1 hcheck
  rw [← (returns_pure.1 hret).2]
  -- the count is one, so some row was selected; the key makes it the only one
  rw [not_not] at hone
  have hpos : 0 < db.runs.rows.countP fun row =>
      decide (row.key = key ∧ row.revision = revision ∧ alsoWhere row) := by omega
  rcases countP_pos_iff.1 hpos with ⟨old, hmem, hsel⟩
  have hold := of_decide_eq_true hsel
  refine ⟨old, hold.1, hold.2.1, hold.2.2, runs, ⟨hmem, ?_⟩, rfl⟩
  rw [Table.rows_of_update? hruns]
  refine map_congr_left fun row hrow => ?_
  by_cases hk : row.key = old.key
  · rw [eq_of_key_eq hrow hmem hk, if_pos hsel, if_pos rfl]
  have : ¬ (row.key = key ∧ row.revision = revision ∧ alsoWhere row) :=
    fun h => hk (h.1.trans hold.1.symm)
  rw [if_neg hk, if_neg (by simpa using this)]

theorem Replaced.findRun (h : Replaced db.runs old new runs) (hkey : new.key = old.key) :
    ({ db with runs := runs } : Db δ).findRun old.key = some new :=
  Db.findRun_eq_some.2 ⟨h.mem_iff.2 (.inl rfl), hkey⟩

theorem reselectRun_returns {disappeared : String}
    (h : Returns (reselectRun key disappeared) db row db') :
    db.findRun key = some row ∧ db' = db := by
  simp only [reselectRun, returns_bind, selectRun_returns] at h
  obtain ⟨_, _, ⟨rfl, rfl⟩, h⟩ := h
  split at h
  · exact (returns_throw.1 h).elim
  rename_i found hfound
  rcases returns_pure.1 h with ⟨rfl, rfl⟩
  exact ⟨hfound, rfl⟩

theorem forM_insertOutbox_returns {rows : List (NewOutboxRow OutboxPayload)} {u : PUnit}
    (h : Returns (rows.forM insertOutbox) db u db') :
    db' = { db with outbox := db.outbox.appendAll rows } := by
  induction rows generalizing db with
  | nil => exact (returns_pure.1 h).2.symm
  | cons row rows ih =>
    simp only [forM_eq_forM, forM_cons, returns_bind, insertOutbox, returns_get, returns_set] at h
    obtain ⟨_, _, ⟨_, _, ⟨rfl, rfl⟩, rfl⟩, h⟩ := h
    rw [ih h]
    rfl

end Workflow
