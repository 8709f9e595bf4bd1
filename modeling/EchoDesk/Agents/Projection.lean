import EchoDesk.Agents.Commands
import EchoDesk.Core.JsonWriter

/-! # Projecting an event

`_project_event` takes a logged event to the workflow and to the client: it claims a lease on the
event, delivers the event to the linked run, and acknowledges, which appends the domain event and
marks the row as projected. Claim, deliveries and acknowledgement are transactions of their own. A
delivery carries a key made from the task, the number and the kind of the event, and is appended
only to a run that has no event with the key.

`_project_workflow_event` is kept as the list of statements it still has to execute, so that other
calls may come between any two of them and the worker may stop at any of them.
-/

namespace Agents

open EchoDesk Workflow Transaction Runtime JsonSyntax

/-! ## Delivery keys -/

/-- What the key of a delivery is made from. The names of the subject are in their order. -/
structure DeliveryId where
  taskId : String
  seq : Nat
  eventType : String
  subject : List (String × String) := []

/-- The dictionary that `_workflow_delivery_key` hashes, its keys in their order. -/
def DeliveryId.material (id : DeliveryId) : Tree :=
  .obj [("event_type", .str id.eventType), ("seq", .int id.seq (Nat.toDigits 10 id.seq).length),
    ("subject", .obj (id.subject.map fun entry => (entry.1, .str entry.2))),
    ("task_id", .str id.taskId)]

/-- `_workflow_delivery_key`. -/
def deliveryKey (lib : Library) (id : DeliveryId) : String :=
  "agent-delivery:" ++ lib.sha256 id.material.text

theorem material_written (id : DeliveryId) : id.material.Written := by
  have hsubject : ∀ subject : List (String × String),
      WrittenFields (subject.map fun entry => (entry.1, .str entry.2)) := by
    intro subject
    induction subject with
    | nil => trivial
    | cons entry subject ih => exact ⟨trivial, ih⟩
  exact ⟨trivial, rfl, hsubject id.subject, trivial, trivial⟩

/-- The text that is hashed tells two deliveries apart. -/
theorem material_text_inj {a b : DeliveryId} (h : a.material.text = b.material.text) : a = b := by
  have htree := (text_inj (material_written a) (material_written b)).1 h
  rcases a with ⟨taskId, seq, eventType, subject⟩
  rcases b with ⟨taskId', seq', eventType', subject'⟩
  simp only [DeliveryId.material, Tree.obj.injEq, List.cons.injEq, Prod.mk.injEq, Tree.str.injEq,
    Tree.int.injEq, Int.natCast_inj, true_and, and_true] at htree
  rcases htree with ⟨rfl, ⟨rfl, -⟩, hsubject, rfl⟩
  have hinj : Function.Injective fun entry : String × String => (entry.1, Tree.str entry.2) := by
    rintro ⟨key, value⟩ ⟨key', value'⟩ hentry
    simpa using hentry
  rw [List.map_injective_iff.2 hinj hsubject]

/-- `_projection_resource_id`. -/
def projectionResourceId (lib : Library) (key : EventKey) : String :=
  "agent-projection-" ++ slice 32 (lib.sha256 (key.task.taskId ++ nul ++ toString key.seq))

/-! ## Claims -/

/-- What a claim found: nothing to project, another owner, or an event it may project. -/
inductive Claim where
  | nothing
  | busy
  | claimed (lease : LeaseToken Timestamp) (stored : EchoTaskEvent) (rec : AgentTaskRow)

/-- `_claim_event_projection` once the lease of the task is checked. -/
def claimUnmarked (lib : Library) (ctx : Context) (holderId : String) (ttlSeconds : Nat)
    (key : EventKey) : AgentTx (Exit Claim) := do
  let db ← get
  match (db.domain.findEvent key).filter (·.projectedAt = none), db.domain.findTask key.task with
  | some event, some rec =>
    match acquire db.leases ctx.leaseNow
        (leaseKeyOf ctx.scope "agent_projection" (projectionResourceId lib key)) holderId
        ttlSeconds with
    | .error e => throw (.lease e)
    | .ok (none, leases) => do
      set { db with leases := leases }
      return .commit .busy
    | .ok (some lease, leases) => do
      set { db with leases := leases }
      return .commit (.claimed lease event.payload rec)
  | _, _ => return .commit .nothing

/-- The transaction of `_claim_event_projection`. -/
def claimEventProjection (lib : Library) (ctx : Context) (holderId : String) (ttlSeconds : Nat)
    (taskLease : Option (LeaseToken Timestamp)) (key : EventKey) : AgentTx (Exit Claim) := do
  match taskLease with
  | none => pure ()
  | some token => assertTaskLease ctx token key.task.taskId
  claimUnmarked lib ctx holderId ttlSeconds key

/-! ## The statements of a projection -/

/-- What is left of an artifact while it is imported. -/
structure ArtifactItem where
  relpath : String
  artifactId : String

/-- A statement of `_project_workflow_event`. -/
inductive Statement where
  /-- `get_run`, and the decision to start a run that its task is ahead of. -/
  | readBeforeStart
  /-- `_assert_record_projection` on a connection of its own. -/
  | assertOwned
  | setState (call : StateCall)
  /-- `_record_workflow_event_once`. -/
  | record (eventType : String) (subject : List (String × String)) (message : Option String)
      (payload : Dict) (visibility : WorkflowVisibility)
  /-- `_import_agent_artifacts` up to its loop. -/
  | importArtifacts
  /-- One round of the loop, up to the transfer. -/
  | importArtifact (meetingId : Option String) (item : Dict)
  /-- `download_artifact_to_path`. -/
  | download (meetingId : Option String) (item : ArtifactItem)
  /-- The transaction that registers a downloaded artifact. -/
  | register (meetingId : Option String) (item : ArtifactItem) (artifact : Dict)
  /-- `_merge_workflow_output_once`. -/
  | merge
  /-- `_project_workflow_cancel_terminal` up to its first write. -/
  | readBeforeCancel (state : AgentTaskState)

/-- What the world outside the database answers to a statement. -/
inductive Reply where
  | nothing
  /-- The transfer is done; the artifact it makes, as `model_dump` gives it. -/
  | downloaded (artifact : Dict)
  | transferFailed (reason : String)
  /-- The artifact repository has stored the artifact under this link. -/
  | registered (linkId : String) (link : Dict)
  | registrationFailed

/-- A projection in flight. `ctx` is the captured principal and bound lease; every statement reads
the clocks anew. -/
structure Attempt where
  ctx : Context
  key : EventKey
  lease : LeaseToken Timestamp
  stored : EchoTaskEvent
  record : AgentTaskRow

variable (lib : Library)

/-- The delivery of the event itself. -/
def Attempt.delivery (a : Attempt) : DeliveryId :=
  { taskId := a.record.taskId, seq := a.key.seq, eventType := "agent." ++ a.stored.event }

/-- The statement that delivers the event itself. -/
def Attempt.deliver (a : Attempt) : Statement :=
  .record ("agent." ++ a.stored.event) [] a.stored.message a.stored.modelDump
    (if a.stored.event = "task.terminal_ignored" then .debug else a.stored.visibility)

/-- `event.runner_task_id or rec.runner_task_id`. -/
def Attempt.runnerTaskId (a : Attempt) : Option String :=
  (truthy a.stored.runnerTaskId).or a.record.runnerTaskId

/-- `event.message or text`. -/
def Attempt.messageOr (a : Attempt) (text : String) : String := (truthy a.stored.message).getD text

/-- The statements that take the run to the state of a terminal event. -/
def Attempt.settle (a : Attempt) : List Statement :=
  match readState a.stored.state with
  | .succeeded =>
    let artifacts := if a.stored.artifacts = [] then a.record.artifacts else a.stored.artifacts
    [.assertOwned, .setState (.completeRun
      (some [("agent_task_id", .str a.record.taskId), ("runner_task_id", .ofText a.runnerTaskId),
        ("artifacts", .arr (artifacts.map .obj))]) (some (a.messageOr "任务完成")))]
  | .failed =>
    [.assertOwned, .setState (.failRun (a.messageOr "任务失败")
      (some [("agent_task_id", .str a.record.taskId)]))]
  | .timeout => [.assertOwned, .setState (.timeoutRun (a.messageOr "任务超时"))]
  | .cancelled => [.readBeforeCancel .cancelled]
  | .cancelFailed => [.readBeforeCancel .cancelFailed]
  | _ => []

/-- The statements of `_project_workflow_event`. -/
def Attempt.program (a : Attempt) : List Statement :=
  if (truthy a.record.workflowRunId).isNone then []
  else if a.stored.event = "task.terminal_ignored" then [a.deliver]
  else
    let artifacts :=
      if a.stored.event = "task.artifact_updated" ∧ a.stored.artifacts ≠ [] then
        [.assertOwned, .importArtifacts, .merge]
      else []
    [.readBeforeStart, a.deliver] ++ artifacts ++ a.settle

/-! ## Executing a statement -/

/-- `_assert_record_projection`. -/
def assertRecordProjection (ctx : Context) (a : Attempt) : AgentTx Unit :=
  assertLeaseOf ctx a.lease
    (leaseKeyOf a.record.scope "agent_projection" (projectionResourceId lib a.key))
    "agent projection lease scope does not match event"

/-- `_record_workflow_event_once`: whether it appended the event. -/
def recordWorkflowEventOnce (ctx : Context) (a : Attempt) (id : DeliveryId)
    (message : Option String) (payload : Dict) (visibility : WorkflowVisibility) :
    AgentTx (Exit Bool) :=
  match truthy a.record.workflowRunId with
  | none => return .abandon false
  | some runId => do
    assertRecordProjection lib ctx a
    let inserted ← recordAgentDeliveryOnceInTransaction ctx runId (deliveryKey lib id) id.eventType
      message payload visibility
    return .commit inserted

/-- `_merge_workflow_output_once`. -/
def mergeWorkflowOutputOnce (ctx : Context) (a : Attempt) (id : DeliveryId) (patch : Dict)
    (message : String) : AgentTx (Exit Bool) :=
  match truthy a.record.workflowRunId with
  | none => return .abandon false
  | some runId => do
    assertRecordProjection lib ctx a
    let inserted ← mergeAgentOutputOnceInTransaction ctx runId (deliveryKey lib id) patch id.eventType
      message
    return .commit inserted

/-- The transaction that registers an artifact; the artifact repository writes its own tables. -/
def registerArtifact (ctx : Context) (a : Attempt) (id : DeliveryId) (meetingId : Option String)
    (item : ArtifactItem) (artifact : Dict) (reply : Reply) : AgentTx (Exit Bool) :=
  match truthy a.record.workflowRunId, reply with
  | some runId, .registered linkId link => do
    assertRecordProjection lib ctx a
    let imported ← recordAgentDeliveryOnceInTransaction ctx runId (deliveryKey lib id) id.eventType
      (some "Agent 产物已归档")
      [("artifact_id", .str item.artifactId), ("relpath", .str item.relpath),
        ("link_id", .str linkId)] .debug
    appendDomainOutboxTx ctx item.artifactId (if imported then
        [{ type := "artifact.ready", ts := ctx.now, meetingId := meetingId
           payload := artifact.merge [("run_id", .str runId), ("agent_task_id", .str a.record.taskId),
             ("links", .arr [.obj link])] }]
      else [])
    return .commit imported
  | _, _ => do
    assertRecordProjection lib ctx a
    throw (.domain "artifact registration failed")

instance lawfulBEqChars : LawfulBEq (List Char) := inferInstance

/-- The parts of `PurePosixPath(relpath)`, and whether an artifact may have this path. -/
def validArtifactPath (relpath : String) : Bool :=
  let parts := (relpath.toList.splitOn '/').filter fun part => part ≠ [] ∧ part ≠ ['.']
  relpath.toList.head? ≠ some '/' ∧ parts ≠ [] ∧ ['.', '.'] ∉ parts

/-- `_agent_artifact_id`. -/
def agentArtifactId (taskId relpath : String) : String :=
  "agent-" ++ slice 24 (lib.sha1 (taskId ++ ":" ++ relpath))

/-- `str(item.get("relpath") or item.get("name") or "").strip()`. -/
def artifactRelpath (item : Dict) : String :=
  match item.readOr "relpath" (item.readOr "name" (.str "")) with
  | .str s => strip s
  | value => strip (lib.str value)

/-- The number of the agent event that a workflow event of the task stands for. -/
def anchorSeq (taskId : String) (payload : Dict) : Option Int :=
  match payload.read "seq" with
  | .int n => if payload.read "task_id" = .str taskId then some n else none
  | _ => none

/-- `_workflow_delivery_exists` from an event on; `anchored` says that the events of the number have
begun. -/
def deliveryAmong (taskId : String) (seq : Nat) (eventType key : String)
    (subject : List (String × String)) : Bool → List EventRow → Bool
  | _, [] => false
  | anchored, event :: rest =>
    if event.payload.read "agent_delivery_key" = .str key then true
    else
      match anchorSeq taskId event.payload with
      | some n =>
        if n = seq then
          if event.eventType = eventType ∧ subject = [] then true
          else deliveryAmong taskId seq eventType key subject true rest
        else if anchored then false
        else deliveryAmong taskId seq eventType key subject false rest
      | none =>
        if anchored ∧ event.eventType = eventType ∧
            subject.all fun entry => event.payload.read entry.1 = .str entry.2 then true
        else deliveryAmong taskId seq eventType key subject anchored rest

/-- `_workflow_delivery_exists`. -/
def workflowDeliveryExists (db : Db AgentTables) (a : Attempt) (id : DeliveryId) : Bool :=
  match a.record.run? with
  | none => false
  | some run =>
    deliveryAmong a.record.taskId id.seq id.eventType (deliveryKey lib id) id.subject false
      (db.history run)

/-- `_record_artifact_import_failure`. -/
def importFailure (relpath reason message : String) : Statement :=
  .record "agent.artifact_import_failed" [("reason", reason), ("relpath", relpath)] (some message)
    [("relpath", .str relpath), ("reason", .str reason)] .debug

/-- The outcome of a statement: the statements it puts in front of the rest or what it raises, the
database it leaves, and the delivery it appended. -/
structure Executed where
  next : Except WorkflowError (List Statement)
  db : Db AgentTables
  appended : Option DeliveryId := none

/-- The outcome of a transaction that may append a delivery. -/
def Executed.ofDelivery (id : DeliveryId) (result : Except WorkflowError Bool × Db AgentTables) :
    Executed :=
  ⟨result.1.map fun _ => [], result.2, if result.1 matches .ok true then some id else none⟩

/-- The outcome of a transaction that appends none. -/
def Executed.ofTx {α : Type} (result : Except WorkflowError α × Db AgentTables) : Executed :=
  { next := result.1.map fun _ => [], db := result.2 }

/-- A statement that only reads. -/
def Executed.ofRead (db : Db AgentTables) (next : List Statement) : Executed :=
  { next := .ok next, db := db }

/-- `get_run` for the linked run. -/
def Attempt.getRun (a : Attempt) (db : Db AgentTables) : Option RunRow := a.record.run?.bind db.findRun

/-- The statements after `get_run` in `_project_workflow_cancel_terminal`. -/
def Attempt.afterCancelRead (a : Attempt) (state : AgentTaskState) (current : Option RunRow) :
    List Statement :=
  let mark : List Statement :=
    if state = .cancelled then [.assertOwned, .setState (.markCancelled (a.messageOr "任务已取消"))]
    else [.assertOwned, .setState (.markCancelFailed (a.messageOr "取消失败"))]
  match current with
  | none => mark
  | some run =>
    if some run.state = state.workflow? then []
    else if run.state = .cancelRequested then mark
    else
      [.assertOwned, .setState (.requestCancel (some
        (if state = .cancelled then "Agent Runner 已取消任务" else "Agent Runner 取消失败")))] ++ mark

/-- The statements of one round of the artifact loop. -/
def Attempt.afterItem (a : Attempt) (db : Db AgentTables) (meetingId : Option String) (item : Dict) :
    List Statement :=
  let relpath := artifactRelpath lib item
  let artifactId := agentArtifactId lib a.record.taskId relpath
  if !validArtifactPath relpath then [importFailure relpath "invalid_path" "Agent 产物路径不合法"]
  else if workflowDeliveryExists lib db a
      ⟨a.record.taskId, a.key.seq, "agent.artifact_imported", [("artifact_id", artifactId)]⟩ then []
  else [.assertOwned, .download meetingId ⟨relpath, artifactId⟩]

/-- The id of a delivery of this attempt. -/
def Attempt.idOf (a : Attempt) (eventType : String) (subject : List (String × String)) : DeliveryId :=
  ⟨a.record.taskId, a.key.seq, eventType, subject⟩

/-- Execute a statement. -/
def Attempt.exec (a : Attempt) (ctx : Context) (reply : Reply) (db : Db AgentTables) :
    Statement → Executed
  | .readBeforeStart =>
    let ahead := readState a.stored.state = .running ∨ (readState a.stored.state).isTerminal
    .ofRead db
      (if (a.getRun db).any (·.state = .pending) ∧ ahead then [.assertOwned, .setState .startRun]
      else [])
  | .assertOwned =>
    .ofTx (atomically (do assertRecordProjection lib ctx a; return .abandon ()) db)
  | .setState call =>
    match truthy a.record.workflowRunId with
    | none => .ofRead db []
    | some runId => .ofTx (atomically (Workflow.setState ctx runId call.change none [] none) db)
  | .record eventType subject message payload visibility =>
    .ofDelivery (a.idOf eventType subject) (atomically
      (recordWorkflowEventOnce lib ctx a (a.idOf eventType subject) message payload visibility) db)
  | .importArtifacts =>
    match truthy a.record.runnerTaskId, a.getRun db with
    | some _, some run => .ofRead db (a.stored.artifacts.map (.importArtifact run.meetingId))
    | _, _ => .ofRead db []
  | .importArtifact meetingId item => .ofRead db (a.afterItem lib db meetingId item)
  | .download meetingId item =>
    match reply with
    | .downloaded artifact => .ofRead db [.register meetingId item artifact]
    | .transferFailed reason => .ofRead db [importFailure item.relpath reason "Agent 产物导入失败"]
    | _ => .ofRead db [importFailure item.relpath "transfer_failed" "Agent 产物导入失败"]
  | .register meetingId item artifact =>
    let id := a.idOf "agent.artifact_imported" [("artifact_id", item.artifactId)]
    let result := atomically (registerArtifact lib ctx a id meetingId item artifact reply) db
    match result.1 with
    | .error (.lease (.leaseOwnershipError _)) => .ofDelivery id result
    | .error _ =>
      .ofRead result.2
        [.assertOwned, importFailure item.relpath "registration_failed" "Agent 产物导入失败"]
    | .ok _ => .ofDelivery id result
  | .merge =>
    let id := a.idOf "agent.artifacts_projected" []
    .ofDelivery id (atomically (mergeWorkflowOutputOnce lib ctx a id
      [("agent_task_id", .str a.record.taskId), ("runner_task_id", .ofText a.runnerTaskId),
        ("artifacts", .arr (a.stored.artifacts.map .obj))] "Agent 产物已写入统一投影") db)
  | .readBeforeCancel state => .ofRead db (a.afterCancelRead state (a.getRun db))

/-! ## The acknowledgement -/

/-- The domain event of a logged event; an ignored one has none. -/
def Attempt.domainEvents (a : Attempt) (ctx : Context) : List EchoEvent :=
  if a.stored.event ≠ "task.terminal_ignored" then
    [{ type := "agent.task.event", ts := ctx.now, meetingId := none, payload := a.stored.modelDump }]
  else []

/-- The transaction that ends a projection, with the domain events it appended. -/
def acknowledge (ctx : Context) (a : Attempt) : AgentTx (Exit (List EchoEvent)) := do
  assertRecordProjection lib ctx a
  appendDomainOutboxTx ctx a.record.taskId (a.domainEvents ctx)
  let changed ← updateTaskEvents (fun row => row.key = a.key ∧ row.projectedAt = none)
    fun row => { row with projectedAt := some ctx.now }
  if changed ≠ 1 then
    throw (.lease (.leaseOwnershipError
      "agent event projection was completed by another fenced worker"))
  else return .commit (a.domainEvents ctx)

end Agents
