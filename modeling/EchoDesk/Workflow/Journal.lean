import EchoDesk.Workflow.Store

/-! # The journal of a transaction

Everything a committed workflow transaction does to the tables, as a list of
entries in the order they were made. An entry is one event together with the
row change it reports and its two outbox rows; between entries a domain writer
may change the domain tables and stage rows of kind `domain`.

The operations are each shown to have a journal (`Workflow.Operations`); what
is then proved of a journal, by induction on it, holds of all of them.
-/

namespace Workflow

open EchoDesk Transaction OrderedLog Outbox Runtime List

variable {δ : Type}
variable {runs runs' : Table RunRow RunRow.conflict} {old row : RunRow} {applied : Bool}

/-- The three ways a stored row changes. -/
inductive ChangeKind where
  /-- Only the output is written. -/
  | output
  /-- A step of the transition table. -/
  | transition
  /-- A new run is completed in the transaction that created it. -/
  | inline

/-- What an event reports. -/
inductive Report where
  | created
  | changed (kind : ChangeKind) (old : RunRow)
  | noted

/-- The event types of the state changes. -/
def stateEventTypes : List String :=
  ["workflow.started", "workflow.succeeded", "workflow.failed", "workflow.timeout",
    "workflow.cancel_requested", "workflow.cancelled", "workflow.cancel_failed"]

/-- The types of the events that report a change. The types of the other events
are the callers' own. -/
def Report.Names : Report → String → Prop
  | .created, eventType => eventType = "workflow.created"
  | .changed .transition _, eventType => eventType ∈ stateEventTypes
  | .changed .inline _, eventType => eventType = "workflow.succeeded"
  | .changed .output _, _ => True
  | .noted, _ => True

/-- An event with the row it reports, as the row is then. -/
structure Entry where
  report : Report
  run : RunRow
  event : EventRow

/-- The outbox rows of an entry. -/
def Entry.outboxRows (e : Entry) : List (NewOutboxRow OutboxPayload) :=
  let row := fun topic payload =>
    { scope := e.run.scope, deviceId := e.event.deviceId, aggregateType := .workflow
      aggregateId := e.run.runId, eventType := topic, payload := payload
      createdAt := e.event.createdAt }
  [row "workflow.event" (.event e.run.meetingId (rowToEvent e.event)),
    row "workflow.snapshot" (.snapshot e.run.meetingId e.run.toWorkflowRunRecord)]

/-- A row as `create_run_in_transaction` inserts it. -/
structure NewRun (row : RunRow) : Prop where
  state : row.state = .pending
  revision : row.revision = 0
  finished : row.finishedAt = none

/-- The columns no operation writes are kept. -/
def SameIdentity (old new : RunRow) : Prop :=
  new = { old with
    state := new.state, output := new.output, error := new.error, startedAt := new.startedAt
    finishedAt := new.finishedAt, updatedAt := new.updatedAt, revision := new.revision
    cancelRequestedAt := new.cancelRequestedAt }

/-- What a change of each kind does to the columns of the state machine. -/
def ChangeKind.Allows : ChangeKind → RunRow → RunRow → Prop
  | .output, old, new => new.state = old.state ∧ new.error = old.error ∧
      new.startedAt = old.startedAt ∧ new.finishedAt = old.finishedAt ∧
      new.cancelRequestedAt = old.cancelRequestedAt
  | .transition, old, new => new.state ∈ old.state.legalTransitions ∧
      (new.state.isTerminal = true → new.finishedAt ≠ none) ∧
      (new.state.isTerminal = false → new.finishedAt = old.finishedAt)
  | .inline, old, new => old.state = .pending ∧ new.state = .succeeded ∧ new.finishedAt ≠ none

/-- A change of a stored row: its kind, and one revision more. -/
structure Change (kind : ChangeKind) (old new : RunRow) : Prop where
  identity : SameIdentity old new
  revision : new.revision = old.revision + 1
  allows : kind.Allows old new

/-- What an entry does to the table of runs. -/
inductive RunsEffect (runs : Table RunRow RunRow.conflict) :
    Report → RunRow → Table RunRow RunRow.conflict → Prop where
  | created {row : RunRow} {runs' : Table RunRow RunRow.conflict} (fresh : NewRun row)
      (inserted : runs.insert? row = some runs') : RunsEffect runs .created row runs'
  | changed {kind : ChangeKind} {old new : RunRow} {runs' : Table RunRow RunRow.conflict}
      (replaced : Replaced runs old new runs') (change : Change kind old new) :
      RunsEffect runs (.changed kind old) new runs'
  | noted {row : RunRow} (stored : row ∈ runs) : RunsEffect runs .noted row runs

/-- The event of an entry continues the history of its run and carries the
state of the reported row. -/
structure EventFits (db : Db δ) (e : Entry) : Prop where
  key : e.event.key = e.run.key
  seq : e.event.seq = db.nextSeq e.run.key
  state : e.event.state = e.run.state
  named : e.report.Names e.event.eventType

/-- One entry of a journal. -/
structure Effect (db : Db δ) (e : Entry) (db' : Db δ) : Prop where
  runs : RunsEffect db.runs e.report e.run db'.runs
  fits : EventFits db e
  inserted : db.events.insert? e.event = some db'.events
  outbox : db'.outbox = db.outbox.appendAll e.outboxRows
  leases : db'.leases = db.leases
  domain : db'.domain = db.domain

/-- The writes between entries: domain tables and outbox rows of kind `domain`. -/
structure DomainEffect (db db' : Db δ) : Prop where
  runs : db'.runs = db.runs
  events : db'.events = db.events
  leases : db'.leases = db.leases
  outbox : ∃ rows : List (NewOutboxRow OutboxPayload),
    (∀ row ∈ rows, row.aggregateType = .domain) ∧ db'.outbox = db.outbox.appendAll rows

/-- A transaction from `db` to `db'` and the entries it made. -/
inductive Journal : Db δ → List Entry → Db δ → Prop where
  | nil (db : Db δ) : Journal db [] db
  | entry {db db₁ db' : Db δ} {e : Entry} {es : List Entry} (effect : Effect db e db₁)
      (rest : Journal db₁ es db') : Journal db (e :: es) db'
  | domain {db db₁ db' : Db δ} {es : List Entry} (effect : DomainEffect db db₁)
      (rest : Journal db₁ es db') : Journal db es db'

variable {db db' : Db δ} {es : List Entry} {e : Entry} {ctx : Context}
variable {kind : ChangeKind} {report : Report}

theorem Journal.trans {db₁ : Db δ} {es' : List Entry} (h : Journal db es db₁)
    (h' : Journal db₁ es' db') : Journal db (es ++ es') db' := by
  induction h with
  | nil => exact h'
  | entry effect _ ih => exact .entry effect (ih h')
  | domain effect _ ih => exact .domain effect (ih h')

theorem Effect.journal (h : Effect db e db') : Journal db [e] db' :=
  .entry h (.nil _)

theorem DomainEffect.journal (h : DomainEffect db db') : Journal db [] db' :=
  .domain h (.nil _)

theorem Journal.leases_eq (h : Journal db es db') : db'.leases = db.leases := by
  induction h with
  | nil => rfl
  | entry effect _ ih | domain effect _ ih => rw [ih, effect.leases]

/-- The first entry of a transaction, and the transaction after it. -/
theorem Journal.uncons (h : Journal db (e :: es) db') :
    ∃ db₁ db₂, (db₁.runs = db.runs ∧ db₁.events = db.events) ∧ Effect db₁ e db₂ ∧
      Journal db₂ es db' := by
  generalize hall : e :: es = all at h
  induction h with
  | nil => cases hall
  | entry effect rest _ =>
    cases hall
    exact ⟨_, _, ⟨rfl, rfl⟩, effect, rest⟩
  | domain effect _ ih =>
    rcases ih hall with ⟨db₁, db₂, ⟨hruns, hevents⟩, heff, hrest⟩
    exact ⟨db₁, db₂, ⟨hruns.trans effect.runs, hevents.trans effect.events⟩, heff, hrest⟩

/-- A transaction without entries keeps the runs and their events. -/
theorem Journal.of_nil (h : Journal db [] db') : db'.runs = db.runs ∧ db'.events = db.events := by
  generalize hall : ([] : List Entry) = all at h
  induction h with
  | nil => exact ⟨rfl, rfl⟩
  | entry effect _ _ => cases hall
  | domain effect _ ih =>
    rcases ih hall with ⟨hruns, hevents⟩
    exact ⟨hruns.trans effect.runs, hevents.trans effect.events⟩

/-- The events of a transaction are those of its entries. -/
theorem Journal.events_eq (h : Journal db es db') :
    db'.events.rows = db.events.rows ++ es.map (·.event) := by
  induction h with
  | nil => simp
  | entry effect _ ih => rw [ih, Table.rows_of_insert? effect.inserted]; simp
  | domain effect _ ih => rw [ih, effect.events]

/-! ## What an entry does to its run -/

/-- The row of the run before an entry about it. -/
def Report.prior : Report → RunRow → Option RunRow
  | .created, _ => none
  | .changed _ old, _ => some old
  | .noted, row => some row

theorem Change.key {new : RunRow} (h : Change kind old new) : new.key = old.key := by
  rw [h.identity]
  rfl

/-- A row of the run is written and no other. -/
theorem RunsEffect.mem_iff (h : RunsEffect runs report row runs') {r : RunRow} :
    r ∈ runs' ↔ r = row ∨ (r ∈ runs ∧ r.key ≠ row.key) := by
  cases h with
  | created fresh inserted =>
    have hfresh : ∀ a ∈ runs, a.key ≠ row.key := fun a ha hk =>
      Table.fresh_of_insert? inserted ha (.inl hk)
    rw [Table.mem_insert? inserted]
    exact ⟨fun hr => hr.elim (fun hr => .inr ⟨hr, hfresh r hr⟩) .inl,
      fun hr => hr.elim .inr fun hr => .inl hr.1⟩
  | changed replaced change => rw [replaced.mem_iff, change.key]
  | noted stored =>
    constructor
    · intro hr
      by_cases hk : r.key = row.key
      · exact .inl (eq_of_key_eq hr stored hk)
      · exact .inr ⟨hr, hk⟩
    · rintro (rfl | ⟨hr, _⟩)
      · exact stored
      · exact hr

/-- The report knows the row the run had. -/
theorem RunsEffect.mem_prior (h : RunsEffect runs report row runs') {r : RunRow} :
    r ∈ runs ∧ r.key = row.key ↔ report.prior row = some r := by
  cases h with
  | created fresh inserted =>
    simp only [Report.prior, reduceCtorEq, iff_false]
    exact fun hr => Table.fresh_of_insert? inserted hr.1 (.inl hr.2)
  | changed replaced change =>
    simp only [Report.prior, Option.some.injEq, change.key]
    exact ⟨fun hr => eq_of_key_eq replaced.stored hr.1 hr.2.symm,
      fun hr => hr ▸ ⟨replaced.stored, rfl⟩⟩
  | noted stored =>
    simp only [Report.prior, Option.some.injEq]
    exact ⟨fun hr => eq_of_key_eq stored hr.1 hr.2.symm, fun hr => hr ▸ ⟨stored, rfl⟩⟩

section

variable (h : Effect db e db')

include h

theorem Effect.mem_runs :
    row ∈ db'.runs ↔ row = e.run ∨ (row ∈ db.runs ∧ row.key ≠ e.run.key) := h.runs.mem_iff

/-- An entry that reports a creation inserted a new run. -/
theorem Effect.of_created (hreport : e.report = .created) :
    NewRun e.run ∧ ∀ row ∈ db.runs, row.key ≠ e.run.key := by
  have hruns := h.runs
  rw [hreport] at hruns
  generalize db'.runs = runs' at hruns
  cases hruns with
  | created fresh inserted =>
    exact ⟨fresh, fun row hr hk => Table.fresh_of_insert? inserted hr (.inl hk)⟩

/-- An entry that reports a change changed a stored run. -/
theorem Effect.of_changed (hreport : e.report = .changed kind old) :
    old ∈ db.runs ∧ Change kind old e.run := by
  have hruns := h.runs
  rw [hreport] at hruns
  generalize db'.runs = runs' at hruns
  cases hruns with
  | changed replaced change => exact ⟨replaced.stored, change⟩

/-- An entry that reports no change is about a stored run. -/
theorem Effect.of_noted (hreport : e.report = .noted) : e.run ∈ db.runs := by
  have hruns := h.runs
  rw [hreport] at hruns
  generalize db'.runs = runs' at hruns
  cases hruns with
  | noted stored => exact stored

theorem Effect.runs_of_noted (hreport : e.report = .noted) : db'.runs = db.runs := by
  have hruns := h.runs
  rw [hreport] at hruns
  generalize db'.runs = runs' at hruns ⊢
  cases hruns with
  | noted stored => rfl

/-- What a read of a run finds after an entry. -/
theorem Effect.findRun (key : RunKey) :
    db'.findRun key = if e.run.key = key then some e.run else db.findRun key := by
  by_cases hk : e.run.key = key
  · rw [if_pos hk]
    exact Db.findRun_eq_some.2 ⟨h.mem_runs.2 (.inl rfl), hk⟩
  rw [if_neg hk]
  refine Option.ext fun row => ?_
  rw [Db.findRun_eq_some, Db.findRun_eq_some, h.mem_runs]
  constructor
  · rintro ⟨rfl | ⟨hr, _⟩, hrk⟩
    · exact absurd hrk hk
    · exact ⟨hr, hrk⟩
  · rintro ⟨hr, rfl⟩
    exact ⟨.inr ⟨hr, Ne.symm hk⟩, rfl⟩

theorem Effect.findRun_before : db.findRun e.run.key = e.report.prior e.run := by
  refine Option.ext fun row => ?_
  rw [Db.findRun_eq_some]
  exact h.runs.mem_prior

/-- An entry adds its event to the history of its run. -/
theorem Effect.history (key : RunKey) :
    db'.history key = db.history key ++ if e.run.key = key then [e.event] else [] := by
  rw [Db.history, Table.rows_of_insert? h.inserted, filter_append, Db.history]
  by_cases hk : e.run.key = key <;> simp [h.fits.key, hk]

theorem Effect.mem_events {event : EventRow} :
    event ∈ db'.events ↔ event ∈ db.events ∨ event = e.event := Table.mem_insert? h.inserted

end

/-- A domain effect leaves the reads of the runs as they are. -/
theorem DomainEffect.findRun (h : DomainEffect db db') (key : RunKey) :
    db'.findRun key = db.findRun key := by
  rw [Db.findRun, h.runs, Db.findRun]

/-! ## What the helpers contribute -/

/-- `_append_event_tx` inserts the event and appends its two outbox rows. -/
theorem appendEventTx_returns {run : WorkflowRunRecord} {eventType : String}
    {message : Option String} {payload : Dict} {visibility : WorkflowVisibility}
    {record : WorkflowEventRecord}
    (h : Returns (appendEventTx ctx run eventType message payload visibility) db record db') :
    ∃ event : EventRow, event.key = ⟨ctx.scope, run.runId⟩ ∧
      event.seq = db.nextSeq ⟨ctx.scope, run.runId⟩ ∧ event.state = run.state ∧
      event.eventType = eventType ∧ event.payload = payload ∧
      event.deviceId = ctx.principal.deviceId ∧ record = rowToEvent event ∧
      ∃ events, db.events.insert? event = some events ∧ db' = { db with
          events := events
          outbox := db.outbox.appendAll (workflowOutboxRows ctx run (rowToEvent event)) } := by
  simp only [appendEventTx, insertEvent, returns_bind, returns_get, returns_pure] at h
  obtain ⟨_, _, ⟨rfl, rfl⟩, _, db₁, ⟨_, _, ⟨rfl, rfl⟩, hins⟩, _, db₂, hout, rfl, rfl⟩ := h
  split at hins
  · exact (returns_throw.1 hins).elim
  rename_i events hev
  rw [returns_set] at hins
  subst hins
  exact ⟨_, rfl, rfl, rfl, rfl, rfl, rfl, rfl, events, hev, forM_insertOutbox_returns hout⟩

theorem runDomainWriter_returns {writer : DomainWriter δ}
    (h : Returns (runDomainWriter ctx writer) db applied db') : DomainEffect db db' := by
  simp only [runDomainWriter, returns_bind, returns_get, returns_set] at h
  obtain ⟨_, _, ⟨rfl, rfl⟩, _, _, rfl, h⟩ := h
  split at h
  · rcases returns_pure.1 h with ⟨_, rfl⟩
    refine ⟨rfl, rfl, rfl, _, fun row hrow => ?_, rfl⟩
    rcases mem_map.1 hrow with ⟨entry, _, rfl⟩
    rfl
  · exact (returns_throw.1 h).elim

theorem runOptionalWriter_returns {writer : Option (DomainWriter δ)}
    (h : Returns (runOptionalWriter ctx writer) db applied db') : DomainEffect db db' := by
  cases writer with
  | none =>
    obtain ⟨_, rfl⟩ := returns_pure.1 h
    exact ⟨rfl, rfl, rfl, [], by simp, rfl⟩
  | some writer => exact runDomainWriter_returns h

theorem appendDomainOutboxTx_returns {aggregateId : String} {events : List EchoEvent} {u : Unit}
    (h : Returns (appendDomainOutboxTx ctx aggregateId events) db u db') :
    DomainEffect db db' := by
  have hmap : appendDomainOutboxTx (δ := δ) ctx aggregateId events =
      (events.map (domainOutboxRow ctx aggregateId)).forM insertOutbox := by
    simp [appendDomainOutboxTx, forM_eq_forM, forM_map]
  rw [hmap] at h
  rw [forM_insertOutbox_returns h]
  refine ⟨rfl, rfl, rfl, _, fun row hrow => ?_, rfl⟩
  rcases mem_map.1 hrow with ⟨event, _, rfl⟩
  rfl

/-- The lease of a call, if it has one, is a lease of the run and owned. -/
def LeaseHeld (ctx : Context) (runId : String) (lease : Option (LeaseToken Timestamp))
    (db : Db δ) : Prop :=
  ∀ active, lease.or ctx.boundLease = some active → active.toLeaseKey = leaseKey ctx.scope runId ∧
      checkOwned db.leases ctx.leaseNow active = .ok true

theorem assertWorkflowLease_returns {runId : String} {lease : Option (LeaseToken Timestamp)}
    {u : Unit} (h : Returns (assertWorkflowLease ctx runId lease) db u db') :
    db = db' ∧ LeaseHeld ctx runId lease db := by
  unfold assertWorkflowLease workflowLease at h
  cases hlease : lease.or ctx.boundLease with
  | none =>
    simp only [hlease] at h
    exact ⟨(returns_pure.1 h).2, fun active ha => by rw [hlease] at ha; cases ha⟩
  | some active =>
    simp only [hlease] at h
    by_cases hkind : active.resourceKind = "workflow"
    · rw [if_neg (not_not.2 hkind)] at h
      simp only at h
      obtain ⟨hscope, h⟩ := returns_guard.1 h
      simp only [returns_get_bind] at h
      split at h
      · rename_i howned
        refine ⟨(returns_pure.1 h).2, fun a ha => ?_⟩
        rw [hlease] at ha
        cases ha
        refine ⟨?_, assertOwned_eq_ok.1 howned⟩
        rcases active with ⟨⟨tenant, owner, kind, resource⟩, _⟩
        simp_all [leaseKey]
      · exact (returns_throw.1 h).elim
    · rw [if_pos hkind] at h
      exact (returns_throw.1 h).elim

end Workflow
