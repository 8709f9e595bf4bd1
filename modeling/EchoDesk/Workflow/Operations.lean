import EchoDesk.Workflow.Journal
import EchoDesk.Workflow.Service

/-! # The journals of the operations

One lemma for each operation of `WorkflowService`: when its body commits, the
transaction has a journal, and its entries are those listed here. No other
module unfolds an operation.
-/

namespace Workflow

open EchoDesk Transaction OrderedLog Outbox Runtime Option

variable {δ : Type}
variable {message : Option String} {payload : Dict} {domainEvents : List EchoEvent}
  {record : WorkflowEventRecord}
variable {state : WorkflowState} {current rec row : RunRow} {alsoWhere : RunRow → Bool}
  {attempt : Nat} {assign : RunRow → RunRow} {key : RunKey} {conflict deliveryKey : String}
  {created : Bool} {output patch : Dict}

/-- An entry about the run `key` that reports a change of the given kind. -/
def Entry.Changes (e : Entry) (key : RunKey) (kind : ChangeKind) : Prop :=
  e.run.key = key ∧ ∃ old, e.report = .changed kind old

/-- An entry about the run `key` that reports an event and no change. -/
def Entry.Notes (e : Entry) (key : RunKey) (eventType : String) : Prop :=
  e.run.key = key ∧ e.report = .noted ∧ e.event.eventType = eventType

/-- An entry that reports the creation of `row`. -/
def Entry.Creates (e : Entry) (row : RunRow) : Prop := e.run = row ∧ e.report = .created

/-! ## The three kinds of entries -/

variable {ctx : Context} {eventType runId newRunId : String} {visibility : WorkflowVisibility}
variable {db db₁ db' : Db δ} {updated : RunRow} {body : WorkflowRunCreate}
variable {parentRunId reason : Option String} {lease : Option (LeaseToken Timestamp)}
variable {result : Option WorkflowRunRecord} {domainWriter : DomainWriter δ}

/-- What `_append_event_tx` adds to a row change made just before it is an
entry. -/
theorem effect_of_append (row : RunRow) {report : Report} (hscope : row.scope = ctx.scope)
    (hruns : RunsEffect db.runs report row db₁.runs) (hdb : db₁ = { db with runs := db₁.runs })
    (hnamed : report.Names eventType)
    (h : Returns (appendEventTx ctx row.toWorkflowRunRecord eventType message payload visibility)
      db₁ record db') :
    ∃ e, Effect db e db' ∧ e.report = report ∧ e.run = row ∧ e.event.eventType = eventType ∧
      e.event.payload = payload ∧ record = rowToEvent e.event := by
  rcases appendEventTx_returns h with ⟨event, hkey, hseq, hstate, htype, hpayload, hdevice,
    hrecord, events, hins, rfl⟩
  have hrow : (⟨ctx.scope, row.runId⟩ : RunKey) = row.key := by rw [RunRow.key, hscope]
  rw [hdb] at hins hseq
  refine ⟨⟨report, row, event⟩, ⟨hruns, ⟨hkey.trans hrow, ?_, hstate, htype ▸ hnamed⟩, hins, ?_,
    ?_, ?_⟩, rfl, rfl, htype, hpayload, hrecord⟩
  · rw [← hrow]
    exact hseq
  · rw [hdb]
    simp [Entry.outboxRows, workflowOutboxRows, hscope, hdevice, rowToEvent]
  · rw [hdb]
  · rw [hdb]

/-- A revision-checked update of the row that was read, and its event. -/
theorem changed_effect (kind : ChangeKind) {u : Unit}
    (hrec : db.findRun ⟨ctx.scope, runId⟩ = some rec) (hchange : Change kind rec (assign rec))
    (hupd : Returns (updateRunOrConflict ⟨ctx.scope, runId⟩ rec.revision alsoWhere assign conflict)
      db u db₁)
    (hev : Returns (appendEventTx ctx (assign rec).toWorkflowRunRecord eventType message payload
      visibility) db₁ record db') (hnamed : (Report.changed kind rec).Names eventType) :
    ∃ e, Effect db e db' ∧ e.Changes ⟨ctx.scope, runId⟩ kind ∧ e.run = assign rec ∧
      e.event.eventType = eventType ∧ e.event.payload = payload := by
  rcases updateRunOrConflict_returns hupd with ⟨old, hkey, _, _, runs, hrep, rfl⟩
  rcases Db.findRun_eq_some.1 hrec with ⟨hmem, hrkey⟩
  obtain rfl := eq_of_key_eq hrep.stored hmem (hkey.trans hrkey.symm)
  have hnew : (assign old).key = ⟨ctx.scope, runId⟩ := hchange.key.trans hkey
  rcases effect_of_append _ (congrArg RunKey.scope hnew) (.changed hrep hchange) rfl hnamed hev with
    ⟨e, heff, hreport, hrun, htype, hpayload, _⟩
  exact ⟨e, heff, ⟨by rw [hrun, hnew], old, hreport⟩, hrun, htype, hpayload⟩

/-- The row that is read back after the update is the one it wrote. -/
theorem reselect_after_update {revision : Nat} {disappeared : String} {db₂ : Db δ} {u : Unit}
    (hrec : db.findRun key = some rec) (hkey : (assign rec).key = rec.key)
    (hupd : Returns (updateRunOrConflict key revision alsoWhere assign conflict) db u db₁)
    (hsel : Returns (reselectRun key disappeared) db₁ updated db₂) :
    updated = assign rec ∧ db₁ = db₂ := by
  rcases updateRunOrConflict_returns hupd with ⟨old, hold, _, _, runs, hrep, rfl⟩
  rcases Db.findRun_eq_some.1 hrec with ⟨hmem, hrkey⟩
  obtain rfl := eq_of_key_eq hrep.stored hmem (hold.trans hrkey.symm)
  rcases reselectRun_returns hsel with ⟨hfound, rfl⟩
  have hfind := hrep.findRun hkey
  rw [hold, hfound] at hfind
  exact ⟨some.inj hfind, rfl⟩

/-- An event about a stored row. -/
theorem noted_effect (hrow : row ∈ db.runs) (hscope : row.scope = ctx.scope)
    (hev : Returns (appendEventTx ctx row.toWorkflowRunRecord eventType message payload visibility)
      db record db') :
    ∃ e, Effect db e db' ∧ e.Notes row.key eventType ∧ e.event.payload = payload := by
  rcases effect_of_append _ hscope (.noted hrow) rfl trivial hev with
    ⟨e, heff, hreport, hrun, htype, hpayload, _⟩
  exact ⟨e, heff, ⟨by rw [hrun], hreport, htype⟩, hpayload⟩

/-- The insert of a new run with its first event. -/
theorem insertNewRun_returns [DomainTables δ] {record : WorkflowRunRecord}
    (h : Returns (insertNewRun ctx body runId parentRunId attempt) db record db') :
    record = newRecord ctx body runId parentRunId attempt ∧
      ∃ e, Effect db e db' ∧ e.Creates (ctx.row record) := by
  simp only [insertNewRun, insertRun, returns_bind, returns_get, returns_pure] at h
  obtain ⟨_, _, ⟨_, _, ⟨rfl, rfl⟩, hins⟩, _, _, hev, rfl, rfl⟩ := h
  refine ⟨rfl, ?_⟩
  obtain ⟨_, hins⟩ := returns_guard.1 hins
  split at hins
  · exact (returns_throw.1 hins).elim
  rename_i runs hruns
  rw [returns_set] at hins
  subst hins
  rcases effect_of_append (ctx.row (newRecord ctx body runId parentRunId attempt)) rfl
    (.created ⟨rfl, rfl, rfl⟩ hruns) rfl rfl hev with ⟨e, heff, hreport, hrun, _⟩
  exact ⟨e, heff, hrun, hreport⟩

/-- What checks the lease and reads the run goes on with the run as it is stored. -/
theorem leased_returns {α : Type} {a : α} {body : Option RunRow → WorkflowTx δ α}
    (h : Returns (do assertWorkflowLease ctx runId lease; body (← selectRun key)) db a db') :
    LeaseHeld ctx runId lease db ∧ Returns (body (db.findRun key)) db a db' := by
  simp only [returns_bind, selectRun_returns] at h
  obtain ⟨_, _, hlease, _, _, ⟨rfl, rfl⟩, h⟩ := h
  obtain ⟨rfl, hheld⟩ := assertWorkflowLease_returns hlease
  exact ⟨hheld, h⟩

/-! ## Operations that report without a change, or change the output -/

theorem recordEvent_commits {result : Option WorkflowEventRecord}
    (h : Returns (recordEvent ctx runId eventType message payload visibility lease) db
      (.commit result) db') :
    LeaseHeld ctx runId lease db ∧
      ∃ e, Journal db [e] db' ∧ e.Notes ⟨ctx.scope, runId⟩ eventType := by
  obtain ⟨hheld, h⟩ := leased_returns h
  refine ⟨hheld, ?_⟩
  split at h
  · cases (returns_pure.1 h).1
  rename_i run hrun
  simp only [returns_bind, returns_pure] at h
  obtain ⟨_, _, hev, _, rfl⟩ := h
  rcases Db.findRun_eq_some.1 hrun with ⟨hmem, hkey⟩
  rcases noted_effect hmem (congrArg RunKey.scope hkey) hev with ⟨e, heff, hnotes, _⟩
  exact ⟨e, heff.journal, hkey ▸ hnotes⟩

theorem recordAgentDeliveryOnce_returns {inserted : Bool}
    (h : Returns (recordAgentDeliveryOnceInTransaction ctx runId deliveryKey eventType message
      payload visibility) db inserted db') :
    db = db' ∨ ∃ e, Journal db [e] db' ∧ e.Notes ⟨ctx.scope, runId⟩ eventType := by
  simp only [recordAgentDeliveryOnceInTransaction, checkDeliveryKey, returns_bind,
    selectRun_returns] at h
  obtain ⟨_, _, hcheck, _, _, ⟨rfl, rfl⟩, h⟩ := h
  obtain ⟨_, hcheck⟩ := returns_guard.1 hcheck
  obtain ⟨_, rfl⟩ := returns_pure.1 hcheck
  split at h
  · exact .inl (returns_pure.1 h).2
  rename_i run hrun
  simp only [returns_get_bind] at h
  rw [returns_ite] at h
  rcases h with ⟨_, h⟩ | ⟨_, h⟩
  · exact .inl (returns_pure.1 h).2
  simp only [returns_bind, returns_pure] at h
  obtain ⟨_, _, hev, _, rfl⟩ := h
  rcases Db.findRun_eq_some.1 hrun with ⟨hmem, hkey⟩
  rcases noted_effect hmem (congrArg RunKey.scope hkey) hev with ⟨e, heff, hnotes, _⟩
  exact .inr ⟨e, heff.journal, hkey ▸ hnotes⟩

theorem withOutput_change (row : RunRow) (output : Dict) (now : Timestamp) :
    Change .output row (row.withOutput output now) := ⟨rfl, rfl, rfl, rfl, rfl, rfl, rfl⟩

theorem mergeAgentOutputOnce_returns {message : String} {merged : Bool}
    (h : Returns (mergeAgentOutputOnceInTransaction ctx runId deliveryKey patch eventType message)
      db merged db') :
    db = db' ∨ ∃ e, Journal db [e] db' ∧ e.Changes ⟨ctx.scope, runId⟩ .output ∧
      e.event.eventType = eventType := by
  simp only [mergeAgentOutputOnceInTransaction, checkDeliveryKey, returns_bind, returns_get] at h
  obtain ⟨_, _, hcheck, _, _, ⟨rfl, rfl⟩, h⟩ := h
  obtain ⟨_, hcheck⟩ := returns_guard.1 hcheck
  obtain ⟨_, rfl⟩ := returns_pure.1 hcheck
  rw [returns_ite] at h
  rcases h with ⟨_, h⟩ | ⟨_, h⟩
  · exact .inl (returns_pure.1 h).2
  simp only [returns_bind, selectRun_returns] at h
  obtain ⟨_, _, ⟨rfl, rfl⟩, h⟩ := h
  split at h
  · exact .inl (returns_pure.1 h).2
  rename_i run hrun
  simp only [returns_bind, returns_pure] at h
  obtain ⟨_, _, hupd, _, _, hev, _, rfl⟩ := h
  rcases changed_effect .output hrun (withOutput_change run _ _) hupd hev trivial with
    ⟨e, heff, hchanges, _, htype, _⟩
  exact .inr ⟨e, heff.journal, hchanges, htype⟩

theorem mergeOutput_commits {mergeStrategy : Option (Dict → Dict → Dict)}
    (h : Returns (mergeOutput ctx runId patch eventType message mergeStrategy lease) db
      (.commit result) db') :
    LeaseHeld ctx runId lease db ∧ ∃ e, Journal db [e] db' ∧ e.Changes ⟨ctx.scope, runId⟩ .output ∧
        e.event.eventType = eventType := by
  obtain ⟨hheld, h⟩ := leased_returns h
  refine ⟨hheld, ?_⟩
  split at h
  · cases (returns_pure.1 h).1
  rename_i rec hrec
  simp only [returns_bind, returns_pure] at h
  obtain ⟨_, _, hupd, updated, _, hsel, _, _, hev, _, rfl⟩ := h
  rcases reselect_after_update hrec rfl hupd hsel with ⟨rfl, rfl⟩
  rcases changed_effect .output hrec (withOutput_change rec _ _) hupd hev trivial with
    ⟨e, heff, hchanges, _, htype, _⟩
  exact ⟨e, heff.journal, hchanges, htype⟩

theorem commitRunProgressAtomic_commits {message : String}
    (h : Returns (commitRunProgressAtomic ctx runId output domainWriter domainEvents eventType
      message lease) db (.commit result) db') :
    LeaseHeld ctx runId lease db ∧ ∃ e, Journal db [e] db' ∧ e.Changes ⟨ctx.scope, runId⟩ .output ∧
        e.run.isTerminal = false ∧ e.event.eventType = eventType := by
  obtain ⟨hheld, h⟩ := leased_returns h
  refine ⟨hheld, ?_⟩
  split at h
  · cases (returns_pure.1 h).1
  rename_i rec hrec
  rw [returns_ite] at h
  rcases h with ⟨_, h⟩ | ⟨hactive, h⟩
  · cases (returns_pure.1 h).1
  simp only [returns_bind, returns_pure] at h
  obtain ⟨_, _, hwriter, _, _, hupd, updated, _, hsel, _, _, hev, _, _, hdomain, _, rfl⟩ := h
  have hdom := runDomainWriter_returns hwriter
  have hrec' := (hdom.findRun _).trans hrec
  rcases reselect_after_update hrec' rfl hupd hsel with ⟨rfl, rfl⟩
  rcases changed_effect .output hrec' (withOutput_change rec _ _) hupd hev trivial with
    ⟨e, heff, hchanges, hchanged, htype, _⟩
  refine ⟨e, .domain hdom (.entry heff (appendDomainOutboxTx_returns hdomain).journal), hchanges,
    ?_, htype⟩
  rw [hchanged]
  exact Bool.eq_false_of_not_eq_true hactive

theorem projectActiveRun_commits {domainWriter : WorkflowRunRecord → DomainWriter δ}
    (h : Returns (projectActiveRun ctx runId domainWriter lease) db (.commit result) db') :
    LeaseHeld ctx runId lease db ∧ Journal db [] db' := by
  obtain ⟨hheld, h⟩ := leased_returns h
  refine ⟨hheld, ?_⟩
  split at h
  · cases (returns_pure.1 h).1
  rw [returns_ite] at h
  rcases h with ⟨_, h⟩ | ⟨_, h⟩
  · cases (returns_pure.1 h).1
  simp only [returns_bind, returns_pure] at h
  obtain ⟨_, _, hwriter, _, rfl⟩ := h
  exact (runDomainWriter_returns hwriter).journal

/-! ## State changes -/

/-- A legal state change whose `finished` flag says whether its target is
terminal. -/
theorem StateChange.change {change : StateChange}
    (hlegal : change.state ∈ row.state.legalTransitions)
    (hfinished : change.finished = change.state.isTerminal) (now : Timestamp) :
    Change .transition row (change.apply row.toWorkflowRunRecord now row) := by
  have hset : (change.apply row.toWorkflowRunRecord now row).finishedAt =
      if change.state.isTerminal then some now else row.finishedAt := by
    simp [StateChange.apply, hfinished]
  refine ⟨rfl, rfl, hlegal, fun (h : change.state.isTerminal = true) => ?_,
    fun (h : change.state.isTerminal = false) => ?_⟩
  · rw [hset, if_pos h]
    exact some_ne_none _
  · rw [hset, h]
    rfl

theorem setState_commits {change : StateChange} {domainWriter : Option (DomainWriter δ)}
    (hfinished : change.finished = change.state.isTerminal)
    (htype : change.eventType ∈ stateEventTypes)
    (h : Returns (setState ctx runId change domainWriter domainEvents lease) db (.commit result)
      db') :
    LeaseHeld ctx runId lease db ∧
      ∃ e, Journal db [e] db' ∧ e.Changes ⟨ctx.scope, runId⟩ .transition ∧
        e.run.state = change.state := by
  obtain ⟨hheld, h⟩ := leased_returns h
  refine ⟨hheld, ?_⟩
  split at h
  · cases (returns_pure.1 h).1
  rename_i rec hrec
  rw [returns_ite] at h
  rcases h with ⟨_, h⟩ | ⟨_, h⟩
  · cases (returns_pure.1 h).1
  obtain ⟨hlegal, h⟩ := returns_guard.1 h
  rw [not_not] at hlegal
  simp only [returns_bind, returns_pure] at h
  obtain ⟨applied, db₁, hwriter, _, _, hupd, updated, _, hsel, _, _, hev, _, _, hdomain, _, rfl⟩ := h
  have hdom := runOptionalWriter_returns hwriter
  have hrec' := (hdom.findRun _).trans hrec
  rcases reselect_after_update hrec' rfl hupd hsel with ⟨rfl, rfl⟩
  rcases changed_effect .transition hrec' (StateChange.change hlegal hfinished ctx.now) hupd
    hev htype with
    ⟨e, heff, hchanges, hchanged, _⟩
  refine ⟨e, .domain hdom (.entry heff (appendDomainOutboxTx_returns hdomain).journal), hchanges, ?_⟩
  rw [hchanged]
  rfl

theorem requestCancelInTransaction_returns {result : Option RunRow}
    (h : Returns (requestCancelInTransaction ctx runId reason) db result db') :
    LeaseHeld ctx runId none db ∧ ((db = db' ∧ result = (db.findRun ⟨ctx.scope, runId⟩)) ∨
        ∃ e, Effect db e db' ∧ e.Changes ⟨ctx.scope, runId⟩ .transition ∧ result = some e.run) := by
  obtain ⟨hheld, h⟩ := leased_returns h
  refine ⟨hheld, ?_⟩
  split at h
  · rename_i hnone
    rcases returns_pure.1 h with ⟨rfl, rfl⟩
    exact .inl ⟨rfl, hnone.symm⟩
  rename_i current hcurrent
  rw [returns_ite] at h
  rcases h with ⟨_, h⟩ | ⟨_, h⟩
  · rcases returns_pure.1 h with ⟨rfl, rfl⟩
    exact .inl ⟨rfl, hcurrent.symm⟩
  obtain ⟨hlegal, h⟩ := returns_guard.1 h
  rw [not_not] at hlegal
  simp only [returns_bind, returns_pure] at h
  obtain ⟨_, _, hupd, _, _, hev, rfl, rfl⟩ := h
  have hchange : Change .transition current (current.cancelRequestedInTransaction ctx.now) :=
    ⟨rfl, rfl, hlegal, fun h => (by cases h), fun _ => rfl⟩
  have htype : "workflow.cancel_requested" ∈ stateEventTypes := by simp [stateEventTypes]
  rcases changed_effect .transition hcurrent hchange hupd hev htype with ⟨e, heff, hchanges, hchanged, _⟩
  exact .inr ⟨e, heff, hchanges, by rw [hchanged]⟩

theorem transitionAgentRunInTransaction_returns {change : StateChange}
    (hfinished : change.finished = change.state.isTerminal)
    (htype : change.eventType ∈ stateEventTypes) (hscope : current.scope = ctx.scope)
    (hcurrent : current ∈ db.runs)
    (h : Returns (transitionAgentRunInTransaction ctx current change) db updated db') :
    ∃ e, Effect db e db' ∧ e.Changes ⟨ctx.scope, current.runId⟩ .transition ∧ updated = e.run := by
  have hkey : current.key = ⟨ctx.scope, current.runId⟩ := by rw [RunRow.key, hscope]
  have hrec : db.findRun ⟨ctx.scope, current.runId⟩ = some current :=
    Db.findRun_eq_some.2 ⟨hcurrent, hkey⟩
  unfold transitionAgentRunInTransaction at h
  obtain ⟨hlegal, h⟩ := returns_guard.1 h
  rw [not_not] at hlegal
  simp only [returns_bind, returns_pure] at h
  obtain ⟨_, _, hupd, updated, _, hsel, _, _, hev, rfl, rfl⟩ := h
  rcases reselect_after_update hrec rfl hupd hsel with ⟨rfl, rfl⟩
  rcases changed_effect .transition hrec (StateChange.change hlegal hfinished ctx.now) hupd hev
    htype with
    ⟨e, heff, hchanges, hchanged, _⟩
  exact ⟨e, heff, hchanges, by rw [hchanged]⟩

/-- A changed run is stored with the scope and id of the entry. -/
theorem Effect.mem_of_changes {e : Entry} {kind : ChangeKind} (h : Effect db e db')
    (hc : e.Changes key kind) :
    e.run ∈ db'.runs ∧ e.run.scope = key.scope ∧ e.run.runId = key.runId := by
  rcases hc with ⟨hkey, old, hreport⟩
  have hruns := h.runs
  rw [hreport] at hruns
  cases hruns with
  | changed replaced change =>
    exact ⟨replaced.mem_iff.2 (.inl rfl), congrArg RunKey.scope hkey, congrArg RunKey.runId hkey⟩

theorem startBeforeSuccess_returns (hscope : current.scope = ctx.scope)
    (hcurrent : current ∈ db.runs)
    (h : Returns (startBeforeSuccess ctx state current) db updated db') :
    updated.scope = ctx.scope ∧ updated.runId = current.runId ∧ updated ∈ db'.runs ∧
      ∃ es, Journal db es db' ∧ ∀ e ∈ es, e.Changes ⟨ctx.scope, current.runId⟩ .transition := by
  unfold startBeforeSuccess at h
  rw [returns_ite] at h
  rcases h with ⟨_, h⟩ | ⟨_, h⟩
  · have htype : agentStarted.eventType ∈ stateEventTypes := by
      simp [agentStarted, stateEventTypes]
    rcases transitionAgentRunInTransaction_returns rfl htype hscope hcurrent h with
      ⟨e, heff, hchanges, rfl⟩
    rcases heff.mem_of_changes hchanges with ⟨hmem, hsc, hid⟩
    exact ⟨hsc, hid, hmem, [e], heff.journal, by simpa using hchanges⟩
  · obtain ⟨rfl, rfl⟩ := returns_pure.1 h
    exact ⟨hscope, rfl, hcurrent, [], .nil _, by simp⟩

theorem requestBeforeCancelled_returns {requested : Option RunRow}
    (hkey : current.key = ⟨ctx.scope, runId⟩) (hcurrent : current ∈ db.runs)
    (h : Returns (requestBeforeCancelled ctx runId state current) db requested db') :
    (∀ row, requested = some row → row.key = ⟨ctx.scope, runId⟩ ∧ row ∈ db'.runs) ∧
      ∃ es, Journal db es db' ∧ ∀ e ∈ es, e.Changes ⟨ctx.scope, runId⟩ .transition := by
  unfold requestBeforeCancelled at h
  rw [returns_ite] at h
  rcases h with ⟨_, h⟩ | ⟨_, h⟩
  · rcases (requestCancelInTransaction_returns h).2 with ⟨rfl, rfl⟩ | ⟨e, heff, hchanges, rfl⟩
    · exact ⟨fun row hrow => (Db.findRun_eq_some.1 hrow).symm, [], .nil _, by simp⟩
    refine ⟨fun row hrow => ?_, [e], heff.journal, by simpa using hchanges⟩
    cases hrow
    exact ⟨hchanges.1, (heff.mem_of_changes hchanges).1⟩
  · obtain ⟨rfl, rfl⟩ := returns_pure.1 h
    refine ⟨fun row hrow => ?_, [], .nil _, by simp⟩
    cases hrow
    exact ⟨hkey, hcurrent⟩

theorem settleAgentTerminalInTransaction_returns {output payload : Option Dict}
    {result : Option RunRow}
    (h : Returns (settleAgentTerminalInTransaction ctx runId state message output payload) db
      result db') :
    LeaseHeld ctx runId none db ∧
      ∃ es, Journal db es db' ∧ ∀ e ∈ es, e.Changes ⟨ctx.scope, runId⟩ .transition := by
  unfold settleAgentTerminalInTransaction at h
  obtain ⟨hterminal, h⟩ := returns_guard.1 h
  obtain ⟨hheld, h⟩ := leased_returns h
  refine ⟨hheld, ?_⟩
  split at h
  · obtain ⟨_, rfl⟩ := returns_pure.1 h
    exact ⟨[], .nil _, by simp⟩
  rename_i current hcurrent
  rw [returns_ite] at h
  rcases h with ⟨_, h⟩ | ⟨_, h⟩
  · obtain ⟨_, rfl⟩ := returns_pure.1 h
    exact ⟨[], .nil _, by simp⟩
  simp only [returns_bind] at h
  obtain ⟨started, db₁, hstart, requested, db₂, hrequest, h⟩ := h
  rcases Db.findRun_eq_some.1 hcurrent with ⟨hmem, hkey⟩
  have hid : current.runId = runId := congrArg RunKey.runId hkey
  rcases startBeforeSuccess_returns (congrArg RunKey.scope hkey) hmem hstart with
    ⟨hsc₁, hid₁, hmem₁, es₁, hj₁, hes₁⟩
  have hkey₁ : started.key = ⟨ctx.scope, runId⟩ := by rw [RunRow.key, hsc₁, hid₁, hid]
  rcases requestBeforeCancelled_returns hkey₁ hmem₁ hrequest with ⟨hreq, es₂, hj₂, hes₂⟩
  rw [hid] at hes₁
  split at h
  · obtain ⟨_, rfl⟩ := returns_pure.1 h
    exact ⟨es₁ ++ es₂, hj₁.trans hj₂, by simpa [or_imp, forall_and] using ⟨hes₁, hes₂⟩⟩
  rename_i row
  simp only [returns_bind, returns_pure] at h
  obtain ⟨updated, _, hfinal, _, rfl⟩ := h
  rcases hreq row rfl with ⟨hkey₂, hmem₂⟩
  have hfinished : (settleChange state message output payload).finished =
      (settleChange state message output payload).state.isTerminal := by
    simp only [Bool.not_eq_true'] at hterminal
    exact (Bool.eq_true_of_not_eq_false hterminal).symm
  have htype : (settleChange state message output payload).eventType ∈ stateEventTypes := by
    cases state <;> simp [settleChange, terminalEventType, stateEventTypes]
  rcases transitionAgentRunInTransaction_returns hfinished htype (congrArg RunKey.scope hkey₂)
    hmem₂ hfinal with ⟨e, heff, hchanges, _⟩
  have hid₂ : row.runId = runId := congrArg RunKey.runId hkey₂
  rw [hid₂] at hchanges
  refine ⟨es₁ ++ es₂ ++ [e], (hj₁.trans hj₂).trans heff.journal, fun a ha => ?_⟩
  simp only [List.mem_append, List.mem_singleton] at ha
  rcases ha with (ha | ha) | rfl
  · exact hes₁ a ha
  · exact hes₂ a ha
  · exact hchanges

/-! ## Creation -/

/-- `create_run_in_transaction` finds a run and writes nothing, or finds none and
inserts one. -/
theorem createRunInTransaction_returns [DomainTables δ] {record : WorkflowRunRecord}
    (h : Returns (createRunInTransaction ctx body runId parentRunId attempt) db (record, created)
      db') :
    (created = false ∧ db = db' ∧ ∃ row, record = row.toWorkflowRunRecord ∧
      (lookupIdempotency db ctx body = some row ∨
        (lookupIdempotency db ctx body = none ∧ lookupActive db ctx body = some row))) ∨
    (created = true ∧ lookupIdempotency db ctx body = none ∧ lookupActive db ctx body = none ∧
      record = newRecord ctx body runId parentRunId attempt ∧
      ∃ e, Effect db e db' ∧ e.Creates (ctx.row record)) := by
  simp only [createRunInTransaction, returns_get_bind] at h
  split at h
  · rename_i row hrow
    obtain ⟨⟨rfl, rfl⟩, rfl⟩ := h
    exact .inl ⟨rfl, rfl, row, rfl, .inl hrow⟩
  rename_i hnokey
  split at h
  · rename_i row hrow
    obtain ⟨⟨rfl, rfl⟩, rfl⟩ := h
    exact .inl ⟨rfl, rfl, row, rfl, .inr ⟨hnokey, hrow⟩⟩
  rename_i hnoactive
  simp only [returns_bind, returns_pure, Prod.mk.injEq] at h
  obtain ⟨_, _, hins, ⟨rfl, rfl⟩, rfl⟩ := h
  rcases insertNewRun_returns hins with ⟨hrecord, e, heff, hcreates⟩
  exact .inr ⟨rfl, hnokey, hnoactive, hrecord, e, heff, hcreates⟩

theorem createRunAtomic_commits [DomainTables δ] {record : WorkflowRunRecord}
    (h : Returns (createRunAtomic ctx body domainWriter runId parentRunId attempt) db
      (.commit (record, created)) db') :
    ∃ db₁, Returns (createRunInTransaction ctx body runId parentRunId attempt) db
        (record, created) db₁ ∧ (created = false → db₁ = db') ∧
      (created = true → DomainEffect db₁ db') := by
  simp only [createRunAtomic, returns_bind] at h
  obtain ⟨⟨record', created'⟩, db₁, hcreate, h⟩ := h
  rw [returns_ite] at h
  rcases h with ⟨hc, h⟩ | ⟨hc, h⟩
  · simp only [returns_bind, returns_pure, Exit.commit.injEq, Prod.mk.injEq] at h
    obtain ⟨_, _, hwriter, ⟨rfl, rfl⟩, rfl⟩ := h
    exact ⟨db₁, hcreate, fun hf => by simp_all, fun _ => runDomainWriter_returns hwriter⟩
  · simp only [returns_pure, Exit.commit.injEq, Prod.mk.injEq] at h
    obtain ⟨⟨rfl, rfl⟩, rfl⟩ := h
    exact ⟨db₁, hcreate, fun _ => rfl, fun ht => absurd ht hc⟩

theorem completeNewRunAtomic_commits [DomainTables δ] {message : String}
    {result : WorkflowRunRecord}
    (h : Returns (completeNewRunAtomic ctx body newRunId output domainWriter domainEvents message)
      db (.commit result) db') :
    ∃ e₁ e₂, Journal db [e₁, e₂] db' ∧ e₁.Creates (ctx.row (newRecord ctx body newRunId none 1)) ∧
      e₂.Changes ⟨ctx.scope, newRunId⟩ .inline := by
  simp only [completeNewRunAtomic, returns_bind] at h
  obtain ⟨⟨record, created⟩, db₁, hcreate, h⟩ := h
  obtain ⟨hcreated, h⟩ := returns_guard.1 h
  rcases createRunInTransaction_returns hcreate with ⟨rfl, _⟩ | ⟨rfl, _, _, rfl, e₁, heff₁, hc₁⟩
  · simp at hcreated
  simp only [returns_bind, returns_pure] at h
  obtain ⟨_, db₂, hwriter, _, _, hupd, updated, _, hsel, _, _, hev, _, _, hdomain, _, rfl⟩ := h
  have hdom := runDomainWriter_returns hwriter
  have hmem : ctx.row (newRecord ctx body newRunId none 1) ∈ db₁.runs := by
    have hruns := heff₁.runs
    rw [hc₁.2, hc₁.1] at hruns
    cases hruns with
    | created fresh inserted => exact (Table.mem_insert? inserted).2 (.inr rfl)
  have hrec : db₂.findRun ⟨ctx.scope, newRunId⟩ =
      some (ctx.row (newRecord ctx body newRunId none 1)) := by
    rw [hdom.findRun]
    exact Db.findRun_eq_some.2 ⟨hmem, rfl⟩
  have hchange : Change .inline (ctx.row (newRecord ctx body newRunId none 1))
      ((ctx.row (newRecord ctx body newRunId none 1)).completedInline output ctx.now) :=
    ⟨rfl, rfl, rfl, rfl, some_ne_none _⟩
  rcases reselect_after_update hrec rfl hupd hsel with ⟨rfl, rfl⟩
  rcases changed_effect .inline hrec hchange hupd hev rfl with ⟨e₂, heff₂, hchanges, -⟩
  exact ⟨e₁, e₂, .entry heff₁ (.domain hdom
    (.entry heff₂ (appendDomainOutboxTx_returns hdomain).journal)), hc₁, hchanges⟩

/-- `retry_run` returns the run its lookups found, a child of `old`, or creates
the child and notes it in the history of `old`. -/
theorem retryRun_commits [DomainTables δ]
    {domainWriter : Option (WorkflowRunRecord → DomainWriter δ)}
    (h : Returns (retryRun ctx runId newRunId reason domainWriter) db (.commit result) db') :
    ∃ old record, db.findRun ⟨ctx.scope, runId⟩ = some old ∧ old.isTerminal = true ∧
      old.state ≠ .succeeded ∧ result = some record ∧
      ((db = db' ∧ record.parentRunId = some old.runId ∧
          ∃ row ∈ db.runs, row.scope = ctx.scope ∧ record = row.toWorkflowRunRecord) ∨
        ∃ e₁ e₂, Journal db [e₁, e₂] db' ∧
          record = newRecord ctx (retryBody old reason) newRunId (some old.runId)
            (old.attempt + 1) ∧
          e₁.Creates (ctx.row record) ∧ e₂.Notes ⟨ctx.scope, runId⟩ "workflow.retry_created" ∧
          e₂.event.payload.get? "retry_run_id" = some (.str newRunId)) := by
  simp only [retryRun, returns_bind, selectRun_returns] at h
  obtain ⟨_, _, ⟨rfl, rfl⟩, h⟩ := h
  split at h
  · cases (returns_pure.1 h).1
  rename_i old hold
  obtain ⟨hterminal, h⟩ := returns_guard.1 h
  obtain ⟨hfailed, h⟩ := returns_guard.1 h
  simp only [returns_bind] at h
  obtain ⟨⟨record, created⟩, db₁, hcreate, h⟩ := h
  rcases Db.findRun_eq_some.1 hold with ⟨hmem, hkey⟩
  have hterminal : old.isTerminal = true := by simpa using hterminal
  obtain ⟨hparent, h⟩ := returns_guard.1 h
  rcases createRunInTransaction_returns hcreate with
    ⟨rfl, rfl, row, rfl, hlookup⟩ | ⟨rfl, _, _, rfl, e₁, heff₁, hc₁⟩
  · -- an existing run: it passed the parent check
    simp only [Bool.not_false, true_and, not_not] at hparent
    simp only [Bool.false_eq_true, if_false, returns_pure] at h
    obtain ⟨hres, rfl⟩ := h
    injection hres with hres
    refine ⟨old, _, hold, hterminal, hfailed, hres.symm, .inl ⟨rfl, hparent, row, ?_⟩⟩
    have hstored : row ∈ db.runs ∧ row.scope = ctx.scope := by
      rcases hlookup with h | ⟨_, h⟩ <;>
      · rcases bind_eq_some_iff.1 h with ⟨key, _, h⟩
        have := Table.mem_of_lookup h
        exact ⟨this.1, (of_decide_eq_true this.2).1⟩
    exact ⟨hstored.1, hstored.2, rfl⟩
  simp only [if_true, returns_bind, returns_pure] at h
  obtain ⟨_, db₂, hwriter, _, _, hev, hres, rfl⟩ := h
  injection hres with hres
  have hdom := runOptionalWriter_returns hwriter
  have hmem₂ : old ∈ db₂.runs := by
    rw [hdom.runs]
    have hruns := heff₁.runs
    rw [hc₁.2, hc₁.1] at hruns
    cases hruns with
    | created fresh inserted => exact (Table.mem_insert? inserted).2 (.inl hmem)
  rcases noted_effect hmem₂ (congrArg RunKey.scope hkey) hev with ⟨e₂, heff₂, hnotes, hpayload⟩
  refine ⟨old, _, hold, hterminal, hfailed, hres.symm, .inr ⟨e₁, e₂,
    .entry heff₁ (.domain hdom heff₂.journal), rfl, hc₁, hkey ▸ hnotes, ?_⟩⟩
  rw [hpayload]
  rfl

/-- `retry_run` leaves its transaction without a commit only when there is no
such run. -/
theorem retryRun_abandons [DomainTables δ]
    {domainWriter : Option (WorkflowRunRecord → DomainWriter δ)}
    (h : Returns (retryRun ctx runId newRunId reason domainWriter) db (.abandon result) db') :
    result = none ∧ db.findRun ⟨ctx.scope, runId⟩ = none := by
  simp only [retryRun, returns_bind, selectRun_returns] at h
  obtain ⟨_, _, ⟨rfl, rfl⟩, h⟩ := h
  split at h
  · rename_i hnone
    injection (returns_pure.1 h).1 with hres
    exact ⟨hres.symm, hnone⟩
  -- every other exit raises or commits
  exfalso
  repeat' rw [returns_ite] at h
  rcases h with ⟨_, h⟩ | ⟨_, ⟨_, h⟩ | ⟨_, h⟩⟩
  · exact returns_throw.1 h
  · exact returns_throw.1 h
  simp only [returns_bind] at h
  obtain ⟨⟨record, created⟩, db₁, _, h⟩ := h
  rw [returns_ite] at h
  rcases h with ⟨_, h⟩ | ⟨_, h⟩
  · exact returns_throw.1 h
  rw [returns_ite] at h
  rcases h with ⟨_, h⟩ | ⟨_, h⟩
  · simp only [returns_bind, returns_pure] at h
    obtain ⟨_, _, _, _, _, _, hexit, _⟩ := h
    cases hexit
  · cases (returns_pure.1 h).1

/-! ## Caller-owned transactions -/

theorem inUnitOfWork_commits {α : Type} {before : DomainWriter δ} {operation : WorkflowTx δ α}
    {after : α → DomainWriter δ} {result : α}
    (h : Returns (inUnitOfWork ctx before operation after) db (.commit result) db') :
    ∃ db₁ db₂, DomainEffect db db₁ ∧ Returns operation db₁ result db₂ ∧ DomainEffect db₂ db' := by
  simp only [inUnitOfWork, returns_bind, returns_pure, Exit.commit.injEq] at h
  obtain ⟨_, db₁, hbefore, _, db₂, hop, _, _, hafter, rfl, rfl⟩ := h
  exact ⟨db₁, db₂, runDomainWriter_returns hbefore, hop, runDomainWriter_returns hafter⟩

end Workflow
