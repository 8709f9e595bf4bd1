import EchoDesk.Core.Json
import EchoDesk.Foundations.Keeping
import EchoDesk.Workflow.System

/-! # Agent deliveries among the workflow events

An event that `record_agent_delivery_once_in_transaction` or
`merge_agent_output_once_in_transaction` appends carries its delivery key in the durable payload,
and the same lookup that finds the key keeps a second event with it out of the run. Every other
operation of `WorkflowService` is quiet: it appends no event with a delivery key, drops no event
and no run, and leaves a run its idempotency key.
-/

namespace Workflow

open EchoDesk Transaction Outbox Runtime List

variable {δ : Type}
variable {deliveryKey eventType : String} {key : RunKey} {visibility : WorkflowVisibility}
variable {message : Option String} {payload : Dict} {runId : String} {ctx : Context}

/-- The delivery key in a durable payload. -/
def deliveryKeyOf (payload : Dict) : Option String :=
  match payload.get? "agent_delivery_key" with
  | some (.str key) => some key
  | _ => none

/-- The run and the delivery key of an event that carries one. -/
def EventRow.delivery? (event : EventRow) : Option (RunKey × String) :=
  (deliveryKeyOf event.payload).map fun key => (event.key, key)

/-- The deliveries of the store, in the order they were written. -/
def Db.deliveries (db : Db δ) : List (RunKey × String) := db.events.rows.filterMap EventRow.delivery?

variable {db db' : Db δ}

theorem delivered_iff :
    db.delivered key deliveryKey = true ↔ (key, deliveryKey) ∈ db.deliveries := by
  simp only [Db.delivered, Db.history, Db.deliveries, any_eq_true, mem_filter,
    mem_filterMap, EventRow.delivery?, Option.map_eq_some_iff, Prod.mk.injEq,
    decide_eq_true_eq]
  have hkeyed : ∀ event : EventRow, (match event.payload.get? "agent_delivery_key" with
      | some (.str stored) => decide (stored = deliveryKey)
      | _ => false) = true ↔ deliveryKeyOf event.payload = some deliveryKey := by
    intro event
    unfold deliveryKeyOf
    split
    · simp
    · simp
  constructor
  · rintro ⟨event, ⟨hmem, hkey⟩, hdelivery⟩
    exact ⟨event, hmem, deliveryKey, (hkeyed event).1 hdelivery, hkey, rfl⟩
  · rintro ⟨event, hmem, stored, hdelivery, hkey, rfl⟩
    exact ⟨event, ⟨hmem, hkey⟩, (hkeyed event).2 hdelivery⟩

/-! ## Quiet transactions -/

/-- No delivery is written, every run stays with its idempotency key, and the domain tables change
by `D`. -/
structure Quiet (D : δ → δ → Prop) (db db' : Db δ) : Prop where
  deliveries : db'.deliveries = db.deliveries
  runs : ∀ row ∈ db.runs, ∃ row' ∈ db'.runs,
    row'.key = row.key ∧ row'.idempotencyKey = row.idempotencyKey
  domain : D db.domain db'.domain

section

variable {D : δ → δ → Prop}
variable {run : WorkflowRunRecord} {events : List EchoEvent} {aggregateId : String}

instance [Std.Refl D] : Std.Refl (Quiet D) :=
  ⟨fun db => ⟨rfl, fun row hrow => ⟨row, hrow, rfl, rfl⟩, Std.Refl.refl db.domain⟩⟩

instance [IsTrans δ D] : IsTrans (Db δ) (Quiet D) where
  trans a b c hab hbc := by
    refine ⟨hbc.deliveries.trans hab.deliveries, fun row hrow => ?_,
      IsTrans.trans _ _ _ hab.domain hbc.domain⟩
    obtain ⟨row₁, hrow₁, hkey₁, hidem₁⟩ := hab.runs row hrow
    obtain ⟨row₂, hrow₂, hkey₂, hidem₂⟩ := hbc.runs row₁ hrow₁
    exact ⟨row₂, hrow₂, hkey₂.trans hkey₁, hidem₂.trans hidem₁⟩

variable {db db' : Db δ} {ctx : Context} {runId : String}

/-- A change of the other tables alone. -/
theorem Quiet.of_tables [Std.Refl D] (hruns : db'.runs = db.runs) (hevents : db'.events = db.events)
    (hdomain : db'.domain = db.domain) : Quiet D db db' := by
  refine ⟨by rw [Db.deliveries, hevents, Db.deliveries], fun row hrow => ⟨row, ?_, rfl, rfl⟩, ?_⟩
  · rwa [hruns]
  · rw [hdomain]
    exact Std.Refl.refl _

/-! ### Statements -/

/-- A domain writer that changes the domain tables by `D`, also when it raises. -/
def DomainWriter.Within (D : δ → δ → Prop) (writer : DomainWriter δ) : Prop :=
  ∀ db, D db.domain (writer db).tables

theorem keeps_runDomainWriter {writer : DomainWriter δ} (h : writer.Within D) :
    Keeps (Quiet D) (runDomainWriter ctx writer) := by
  intro db applied db' hret
  simp only [runDomainWriter, returns_bind, returns_get, returns_set] at hret
  obtain ⟨_, _, ⟨rfl, rfl⟩, _, _, rfl, hret⟩ := hret
  split at hret
  · obtain ⟨-, rfl⟩ := returns_pure.1 hret
    exact ⟨rfl, fun row hrow => ⟨row, hrow, rfl, rfl⟩, h db⟩
  · exact (returns_throw.1 hret).elim

variable [Std.Refl D]

theorem keeps_runOptionalWriter {writer : Option (DomainWriter δ)}
    (h : ∀ w ∈ writer, DomainWriter.Within D w) :
    Keeps (Quiet D) (runOptionalWriter ctx writer) := by
  cases writer with
  | none => exact keeps_pure _
  | some writer => exact keeps_runDomainWriter (h writer rfl)

theorem keeps_selectRun : Keeps (Quiet D) (selectRun (δ := δ) key) := by
  intro db row db' h
  obtain ⟨-, rfl⟩ := selectRun_returns.1 h
  exact Std.Refl.refl db

theorem keeps_reselectRun {disappeared : String} :
    Keeps (Quiet D) (reselectRun (δ := δ) key disappeared) := by
  intro db row db' h
  obtain ⟨-, rfl⟩ := reselectRun_returns h
  exact Std.Refl.refl _

theorem keeps_assertWorkflowLease {lease : Option (LeaseToken Timestamp)} :
    Keeps (Quiet D) (assertWorkflowLease (δ := δ) ctx runId lease) := by
  intro db u db' h
  obtain ⟨rfl, -⟩ := assertWorkflowLease_returns h
  exact Std.Refl.refl _

theorem keeps_updateRun {revision : Nat} {alsoWhere : RunRow → Bool} {assign : RunRow → RunRow}
    {conflict : String}
    (hassign : ∀ row, (assign row).key = row.key ∧ (assign row).idempotencyKey = row.idempotencyKey) :
    Keeps (Quiet D) (updateRunOrConflict (δ := δ) key revision alsoWhere assign conflict) := by
  intro db u db' h
  obtain ⟨old, -, -, -, runs, hreplaced, rfl⟩ := updateRunOrConflict_returns h
  refine ⟨rfl, fun row hrow => ?_, Std.Refl.refl _⟩
  by_cases hkey : row.key = old.key
  · obtain rfl := eq_of_key_eq hrow hreplaced.stored hkey
    exact ⟨assign row, hreplaced.mem_iff.2 (.inl rfl), hassign row⟩
  · exact ⟨row, hreplaced.mem_iff.2 (.inr ⟨hrow, hkey⟩), rfl, rfl⟩

/-- What an appended event adds to the deliveries: its own delivery key, if it has one. -/
theorem appendEventTx_deliveries {record : WorkflowEventRecord}
    (h : Returns (appendEventTx ctx run eventType message payload visibility) db record db') :
    db'.runs = db.runs ∧ db'.domain = db.domain ∧ db'.deliveries = db.deliveries ++
        ((deliveryKeyOf payload).map fun key => (⟨ctx.scope, run.runId⟩, key)).toList := by
  obtain ⟨event, hkey, -, -, -, hpayload, -, -, events, hins, rfl⟩ := appendEventTx_returns h
  refine ⟨rfl, rfl, ?_⟩
  rw [Db.deliveries, Table.rows_of_insert? hins, filterMap_append, Db.deliveries]
  congr 1
  rw [← hkey, ← hpayload]
  cases hdelivery : deliveryKeyOf event.payload <;> simp [EventRow.delivery?, hdelivery]

theorem keeps_appendEventTx (hpayload : deliveryKeyOf payload = none) :
    Keeps (Quiet D) (appendEventTx (δ := δ) ctx run eventType message payload visibility) := by
  intro db record db' h
  obtain ⟨hruns, hdomain, hdeliveries⟩ := appendEventTx_deliveries h
  rw [hpayload, Option.map_none, Option.toList_none, append_nil] at hdeliveries
  refine ⟨hdeliveries, fun row hrow => ⟨row, hruns ▸ hrow, rfl, rfl⟩, ?_⟩
  rw [hdomain]
  exact Std.Refl.refl _

/-- The outbox rows of domain events, in their order. -/
theorem appendDomainOutboxTx_rows {u : PUnit}
    (h : Returns (appendDomainOutboxTx ctx aggregateId events) db u db') :
    db' = { db with
      outbox := db.outbox.appendAll (events.map (domainOutboxRow ctx aggregateId)) } := by
  have hmap : appendDomainOutboxTx (δ := δ) ctx aggregateId events =
      (events.map (domainOutboxRow ctx aggregateId)).forM insertOutbox := by
    simp [appendDomainOutboxTx, forM_eq_forM, forM_map]
  rw [hmap] at h
  exact forM_insertOutbox_returns h

theorem keeps_appendDomainOutboxTx :
    Keeps (Quiet D) (appendDomainOutboxTx (δ := δ) ctx aggregateId events) := by
  intro db u db' h
  rw [appendDomainOutboxTx_rows h]
  exact Quiet.of_tables rfl rfl rfl

/-! ### Operations -/

variable {body : WorkflowRunCreate} {parentRunId message reason : Option String} {attempt : Nat}
  {newRunId text : String} {lease : Option (LeaseToken Timestamp)} {payload patch output : Dict}
  {domainEvents : List EchoEvent} {change : StateChange}

theorem insertNewRun_quiet [DomainTables δ] {record : WorkflowRunRecord}
    (h : Returns (insertNewRun ctx body runId parentRunId attempt) db record db') :
    Quiet D db db' ∧ record = newRecord ctx body runId parentRunId attempt ∧
      db.runs.insert? (ctx.row record) = some db'.runs ∧ db'.domain = db.domain := by
  simp only [insertNewRun, insertRun, returns_bind, returns_get, returns_pure] at h
  obtain ⟨_, _, ⟨_, _, ⟨rfl, rfl⟩, hins⟩, _, _, hev, rfl, rfl⟩ := h
  obtain ⟨_, hins⟩ := returns_guard.1 hins
  split at hins
  · exact (returns_throw.1 hins).elim
  rename_i runs hruns
  rw [returns_set] at hins
  subst hins
  obtain ⟨hsame, hdomain, hdeliveries⟩ := appendEventTx_deliveries hev
  refine ⟨⟨?_, fun row hrow => ?_, ?_⟩, rfl, ?_, hdomain⟩
  · rw [hdeliveries]
    exact append_nil _
  · rw [hsame]
    exact ⟨row, (Table.mem_insert? hruns).2 (.inl hrow), rfl, rfl⟩
  · rw [hdomain]
    exact Std.Refl.refl _
  · rw [hsame]
    exact hruns

variable [IsTrans δ D]

theorem keeps_leased {α : Type} {body : Option RunRow → WorkflowTx δ α} (hnone : Keeps (Quiet D) (body none))
    (hsome : ∀ run, Keeps (Quiet D) (body (some run))) :
    Keeps (Quiet D) (do assertWorkflowLease ctx runId lease; body (← selectRun key)) := by
  refine keeps_bind keeps_assertWorkflowLease fun _ => keeps_bind keeps_selectRun fun row => ?_
  cases row with
  | none => exact hnone
  | some run => exact hsome run

theorem keeps_createRunInTransaction [DomainTables δ] :
    Keeps (Quiet D) (createRunInTransaction (δ := δ) ctx body runId parentRunId attempt) := by
  intro db
  refine keepsFrom_get_bind ?_
  split
  · exact keepsFrom_pure _ _
  split
  · exact keepsFrom_pure _ _
  · exact keepsFrom_bind (fun _ _ hret => (insertNewRun_quiet hret).1) fun _ _ _ => keepsFrom_pure _ _

variable {domainWriter : DomainWriter δ}

theorem keeps_createRunAtomic [DomainTables δ] (hwriter : domainWriter.Within D) :
    Keeps (Quiet D) (createRunAtomic ctx body domainWriter runId parentRunId attempt) := by
  refine keeps_bind keeps_createRunInTransaction fun created => keeps_ite (fun _ => ?_) fun _ => ?_
  · exact keeps_bind (keeps_runDomainWriter hwriter) fun _ => keeps_pure _
  · exact keeps_pure _

theorem keeps_recordEvent (hpayload : deliveryKeyOf payload = none) :
    Keeps (Quiet D) (recordEvent (δ := δ) ctx runId eventType message payload visibility lease) := by
  refine keeps_leased (keeps_pure _) fun run => ?_
  exact keeps_bind (keeps_appendEventTx hpayload) fun _ => keeps_pure _

theorem keeps_mergeOutput {mergeStrategy : Option (Dict → Dict → Dict)} :
    Keeps (Quiet D) (mergeOutput (δ := δ) ctx runId patch eventType message mergeStrategy lease) := by
  refine keeps_leased (keeps_pure _) fun rec => ?_
  refine keeps_bind (keeps_updateRun fun _ => ⟨rfl, rfl⟩) fun _ =>
    keeps_bind keeps_reselectRun fun updated => ?_
  exact keeps_bind (keeps_appendEventTx rfl) fun _ => keeps_pure _

theorem keeps_commitRunProgressAtomic (hwriter : domainWriter.Within D) :
    Keeps (Quiet D) (commitRunProgressAtomic ctx runId output domainWriter domainEvents eventType
      text lease) := by
  refine keeps_leased (keeps_pure _) fun rec => ?_
  refine keeps_ite (fun _ => keeps_pure _) fun _ => keeps_bind (keeps_runDomainWriter hwriter)
    fun applied => keeps_bind (keeps_updateRun fun _ => ⟨rfl, rfl⟩) fun _ =>
      keeps_bind keeps_reselectRun fun updated => ?_
  exact keeps_bind (keeps_appendEventTx rfl) fun _ =>
    keeps_bind keeps_appendDomainOutboxTx fun _ => keeps_pure _

theorem keeps_setState (hpayload : deliveryKeyOf change.payload = none)
    {domainWriter : Option (DomainWriter δ)}
    (hwriter : ∀ w ∈ domainWriter, DomainWriter.Within D w) :
    Keeps (Quiet D) (setState ctx runId change domainWriter domainEvents lease) := by
  refine keeps_leased (keeps_pure _) fun rec => ?_
  refine keeps_ite (fun _ => keeps_pure _) fun _ => keeps_ite (fun _ => keeps_throw _) fun _ =>
    keeps_bind (keeps_runOptionalWriter hwriter) fun applied =>
      keeps_bind (keeps_updateRun fun _ => ⟨rfl, rfl⟩) fun _ =>
        keeps_bind keeps_reselectRun fun updated => ?_
  exact keeps_bind (keeps_appendEventTx hpayload) fun _ =>
    keeps_bind keeps_appendDomainOutboxTx fun _ => keeps_pure _

theorem keeps_completeNewRunAtomic [DomainTables δ] (hwriter : domainWriter.Within D) :
    Keeps (Quiet D) (completeNewRunAtomic ctx body newRunId output domainWriter domainEvents
      text) := by
  refine keeps_bind keeps_createRunInTransaction fun created =>
    keeps_ite (fun _ => keeps_throw _) fun _ => keeps_bind (keeps_runDomainWriter hwriter)
      fun _ => keeps_bind (keeps_updateRun fun _ => ⟨rfl, rfl⟩) fun _ =>
        keeps_bind keeps_reselectRun fun updated => ?_
  exact keeps_bind (keeps_appendEventTx rfl) fun _ =>
    keeps_bind keeps_appendDomainOutboxTx fun _ => keeps_pure _

theorem deliveryKeyOf_reasonPayload (reason : Option String) :
    deliveryKeyOf (reasonPayload reason) = none := by
  unfold reasonPayload
  split <;> rfl

theorem keeps_requestCancelInTransaction :
    Keeps (Quiet D) (requestCancelInTransaction (δ := δ) ctx runId reason) := by
  refine keeps_leased (keeps_pure _) fun current => ?_
  refine keeps_ite (fun _ => keeps_pure _) fun _ => keeps_ite (fun _ => keeps_throw _) fun _ =>
    keeps_bind (keeps_updateRun fun _ => ⟨rfl, rfl⟩) fun _ => ?_
  exact keeps_bind (keeps_appendEventTx (deliveryKeyOf_reasonPayload reason)) fun _ => keeps_pure _

theorem keeps_transitionAgentRun {current : RunRow}
    (hpayload : deliveryKeyOf change.payload = none) :
    Keeps (Quiet D) (transitionAgentRunInTransaction (δ := δ) ctx current change) := by
  refine keeps_ite (fun _ => keeps_throw _) fun _ =>
    keeps_bind (keeps_updateRun fun _ => ⟨rfl, rfl⟩) fun _ =>
      keeps_bind keeps_reselectRun fun updated => ?_
  exact keeps_bind (keeps_appendEventTx hpayload) fun _ => keeps_pure _

theorem keeps_settleAgentTerminal {state : WorkflowState} {output payload : Option Dict}
    (hpayload : ∀ p ∈ payload, deliveryKeyOf p = none) :
    Keeps (Quiet D) (settleAgentTerminalInTransaction (δ := δ) ctx runId state message output
      payload) := by
  have hstart : ∀ row, Keeps (Quiet D) (startBeforeSuccess (δ := δ) ctx state row) := by
    intro row
    exact keeps_ite (fun _ => keeps_transitionAgentRun rfl) fun _ => keeps_pure _
  have hrequest : ∀ row, Keeps (Quiet D) (requestBeforeCancelled (δ := δ) ctx runId state row) := by
    intro row
    exact keeps_ite (fun _ => keeps_requestCancelInTransaction) fun _ => keeps_pure _
  have hchange : deliveryKeyOf (settleChange state message output payload).payload = none := by
    cases payload with
    | none => rfl
    | some p => exact hpayload p rfl
  refine keeps_ite (fun _ => keeps_throw _) fun _ => keeps_leased (keeps_pure _) fun current => ?_
  refine keeps_ite (fun _ => keeps_pure _) fun _ => keeps_bind (hstart current) fun started =>
    keeps_bind (hrequest started) fun requested => ?_
  cases requested with
  | none => exact keeps_pure _
  | some row => exact keeps_bind (keeps_transitionAgentRun hchange) fun _ => keeps_pure _

theorem keeps_retryRun [DomainTables δ] {domainWriter : Option (WorkflowRunRecord → DomainWriter δ)}
    (hwriter : ∀ w ∈ domainWriter, ∀ run, DomainWriter.Within D (w run)) :
    Keeps (Quiet D) (retryRun ctx runId newRunId reason domainWriter) := by
  refine keeps_bind keeps_selectRun fun row => ?_
  cases row with
  | none => exact keeps_pure _
  | some old =>
    refine keeps_ite (fun _ => keeps_throw _) fun _ => keeps_ite (fun _ => keeps_throw _) fun _ =>
      keeps_bind keeps_createRunInTransaction fun created =>
        keeps_ite (fun _ => keeps_throw _) fun _ => keeps_ite (fun _ => ?_) fun _ => keeps_pure _
    refine keeps_bind (keeps_runOptionalWriter fun w hw => ?_) fun _ =>
      keeps_bind (keeps_appendEventTx rfl) fun _ => keeps_pure _
    cases domainWriter with
    | none => cases hw
    | some writer =>
      cases hw
      exact hwriter writer rfl _

theorem keeps_projectActiveRun {domainWriter : WorkflowRunRecord → DomainWriter δ}
    (hwriter : ∀ run, (domainWriter run).Within D) :
    Keeps (Quiet D) (projectActiveRun ctx runId domainWriter lease) := by
  refine keeps_leased (keeps_pure _) fun run => ?_
  refine keeps_ite (fun _ => keeps_pure _) fun _ => ?_
  exact keeps_bind (keeps_runDomainWriter (hwriter _)) fun _ => keeps_pure _

theorem keeps_inUnitOfWork {α : Type} {before : DomainWriter δ} {operation : WorkflowTx δ α}
    {after : α → DomainWriter δ} (hbefore : before.Within D)
    (hoperation : Keeps (Quiet D) operation) (hafter : ∀ a, (after a).Within D) :
    Keeps (Quiet D) (inUnitOfWork ctx before operation after) :=
  keeps_bind (keeps_runDomainWriter hbefore) fun _ => keeps_bind hoperation fun a =>
    keeps_bind (keeps_runDomainWriter (hafter a)) fun _ => keeps_pure _

/-- An operation that delivers nothing: its payload has no delivery key, and its domain writers
change the domain tables by `D`. -/
def Op.Plain (D : δ → δ → Prop) : Op δ → Prop
  | .createRunAtomic _ domainWriter _ _ _ => domainWriter.Within D
  | .recordEvent _ _ _ payload _ _ => deliveryKeyOf payload = none
  | .recordAgentDeliveryOnce .. => False
  | .mergeAgentOutputOnce .. => False
  | .mergeOutput .. => True
  | .commitRunProgressAtomic _ _ domainWriter _ _ _ _ => domainWriter.Within D
  | .setState _ call domainWriter _ _ =>
    deliveryKeyOf call.change.payload = none ∧ ∀ w ∈ domainWriter, DomainWriter.Within D w
  | .completeNewRunAtomic _ _ _ domainWriter _ _ => domainWriter.Within D
  | .requestCancelInTransaction before _ _ after => before.Within D ∧ ∀ row, (after row).Within D
  | .settleAgentTerminal before _ _ _ _ payload after =>
    before.Within D ∧ (∀ p ∈ payload, deliveryKeyOf p = none) ∧ ∀ row, (after row).Within D
  | .retryRun _ _ _ domainWriter => ∀ w ∈ domainWriter, ∀ run, DomainWriter.Within D (w run)
  | .projectActiveRun _ domainWriter _ => ∀ run, (domainWriter run).Within D
  | .domain writer => writer.Within D

/-- What a plain operation keeps, whether it commits or raises. -/
theorem Op.exec_quiet [DomainTables δ] {op : Op δ} (h : op.Plain D) (db : Db δ) :
    Quiet D db (op.exec ctx db).2 := by
  cases op with
  | createRunAtomic => exact keeps_atomically (keeps_createRunAtomic h) db
  | recordEvent => exact keeps_atomically (keeps_recordEvent h) db
  | recordAgentDeliveryOnce | mergeAgentOutputOnce => exact h.elim
  | mergeOutput => exact keeps_atomically keeps_mergeOutput db
  | commitRunProgressAtomic => exact keeps_atomically (keeps_commitRunProgressAtomic h) db
  | setState => exact keeps_atomically (keeps_setState h.1 h.2) db
  | completeNewRunAtomic => exact keeps_atomically (keeps_completeNewRunAtomic h) db
  | requestCancelInTransaction =>
    exact keeps_atomically (keeps_inUnitOfWork h.1 keeps_requestCancelInTransaction h.2) db
  | settleAgentTerminal =>
    exact keeps_atomically (keeps_inUnitOfWork h.1 (keeps_settleAgentTerminal h.2.1) h.2.2) db
  | retryRun => exact keeps_atomically (keeps_retryRun h) db
  | projectActiveRun => exact keeps_atomically (keeps_projectActiveRun h) db
  | domain =>
    exact keeps_atomically (keeps_inUnitOfWork h (keeps_pure _) fun _ db => Std.Refl.refl db.domain) db

end

/-! ## Deliveries -/

/-- What a delivery did to the deliveries of the store: it appended its key to the run, which did
not have it, or wrote nothing because the run has the key or there is no run. -/
structure Delivers (key : RunKey) (deliveryKey : String) (db : Db δ) (inserted : Bool) (db' : Db δ) :
    Prop where
  domain : db'.domain = db.domain
  runs : ∀ row ∈ db.runs, ∃ row' ∈ db'.runs,
    row'.key = row.key ∧ row'.idempotencyKey = row.idempotencyKey
  appended : inserted = true →
    (key, deliveryKey) ∉ db.deliveries ∧ db'.deliveries = db.deliveries ++ [(key, deliveryKey)]
  refused : inserted = false → db' = db ∧
    ((key, deliveryKey) ∈ db.deliveries ∨ db.findRun key = none)

theorem Delivers.of_refused (h : (key, deliveryKey) ∈ db.deliveries ∨ db.findRun key = none) :
    Delivers key deliveryKey db false db :=
  ⟨rfl, fun row hrow => ⟨row, hrow, rfl, rfl⟩, nofun, fun _ => ⟨rfl, h⟩⟩

theorem checkDeliveryKey_returns {u : Unit} (h : Returns (checkDeliveryKey deliveryKey) db u db') :
    db = db' := by
  unfold checkDeliveryKey at h
  obtain ⟨_, h⟩ := returns_guard.1 h
  exact (returns_pure.1 h).2

theorem not_mem_deliveries (h : ¬ db.delivered key deliveryKey = true) :
    (key, deliveryKey) ∉ db.deliveries :=
  fun hmem => h (delivered_iff.2 hmem)

theorem recordAgentDeliveryOnce_delivers {inserted : Bool}
    (h : Returns (recordAgentDeliveryOnceInTransaction ctx runId deliveryKey eventType message
      payload visibility) db inserted db') :
    Delivers ⟨ctx.scope, runId⟩ deliveryKey db inserted db' := by
  simp only [recordAgentDeliveryOnceInTransaction, returns_bind, selectRun_returns] at h
  obtain ⟨_, _, hcheck, row, _, ⟨hrow, rfl⟩, h⟩ := h
  obtain rfl := checkDeliveryKey_returns hcheck
  cases row with
  | none =>
    obtain ⟨rfl, rfl⟩ := returns_pure.1 h
    exact .of_refused (.inr hrow)
  | some run =>
    simp only [returns_get_bind] at h
    rw [returns_ite] at h
    rcases h with ⟨hdelivered, h⟩ | ⟨hdelivered, h⟩
    · obtain ⟨rfl, rfl⟩ := returns_pure.1 h
      exact .of_refused (.inl (delivered_iff.1 hdelivered))
    simp only [returns_bind, returns_pure] at h
    obtain ⟨_, _, hev, rfl, rfl⟩ := h
    obtain ⟨hruns, hdomain, hdeliveries⟩ := appendEventTx_deliveries hev
    have hkey : deliveryKeyOf (payload.set "agent_delivery_key" (.str deliveryKey)) =
        some deliveryKey := by
      rw [deliveryKeyOf, Dict.get?_set, if_pos rfl]
    have hid : run.runId = runId := congrArg RunKey.runId (Db.findRun_eq_some.1 hrow).2
    rw [hkey, hid] at hdeliveries
    exact ⟨hdomain, fun r hr => ⟨r, hruns ▸ hr, rfl, rfl⟩,
      fun _ => ⟨not_mem_deliveries hdelivered, hdeliveries⟩, fun h => Bool.noConfusion h⟩

theorem mergeAgentOutputOnce_delivers {patch : Dict} {message : String} {merged : Bool}
    (h : Returns (mergeAgentOutputOnceInTransaction ctx runId deliveryKey patch eventType message)
      db merged db') : Delivers ⟨ctx.scope, runId⟩ deliveryKey db merged db' := by
  simp only [mergeAgentOutputOnceInTransaction, returns_bind, returns_get] at h
  obtain ⟨_, _, hcheck, _, _, ⟨rfl, rfl⟩, h⟩ := h
  obtain rfl := checkDeliveryKey_returns hcheck
  rw [returns_ite] at h
  rcases h with ⟨hdelivered, h⟩ | ⟨hdelivered, h⟩
  · obtain ⟨rfl, rfl⟩ := returns_pure.1 h
    exact .of_refused (.inl (delivered_iff.1 hdelivered))
  simp only [returns_bind, selectRun_returns] at h
  obtain ⟨row, _, ⟨hrow, rfl⟩, h⟩ := h
  cases row with
  | none =>
    obtain ⟨rfl, rfl⟩ := returns_pure.1 h
    exact .of_refused (.inr hrow)
  | some run =>
    simp only [returns_bind, returns_pure] at h
    obtain ⟨_, db₁, hupd, _, _, hev, rfl, rfl⟩ := h
    have hquiet : Quiet (fun a b => b = a) db db₁ := by
      refine keeps_updateRun ?_ _ _ _ hupd
      exact fun _ => ⟨rfl, rfl⟩
    obtain ⟨hruns, hdomain, hdeliveries⟩ := appendEventTx_deliveries hev
    have hid : run.runId = runId := congrArg RunKey.runId (Db.findRun_eq_some.1 hrow).2
    refine ⟨hdomain.trans hquiet.domain, fun r hr => ?_,
      fun _ => ⟨not_mem_deliveries hdelivered, ?_⟩, fun h => Bool.noConfusion h⟩
    · rw [hruns]
      exact hquiet.runs r hr
    · rw [hdeliveries, hquiet.deliveries]
      show _ ++ [((⟨ctx.scope, run.runId⟩ : RunKey), deliveryKey)] = _
      rw [hid]

end Workflow
