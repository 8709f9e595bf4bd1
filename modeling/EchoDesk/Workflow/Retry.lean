import EchoDesk.Workflow.Idempotency
import EchoDesk.Workflow.Lifecycle

/-! # Retries

`retry_run` creates the child of a run and notes it in the history of the run,
in one transaction and under an idempotency key made of the run and its next
attempt. The unique index on this key is what keeps a second child away.

The callers of the service leave the lineage to `retry_run`: they pass no parent
to a creation and no `workflow.retry_created` event (`KeepsLineage`).
-/

namespace Workflow

open EchoDesk Transaction Transition OrderedLog Outbox List Option Function

variable {δ : Type}
variable {record : WorkflowRunRecord} {old : RunRow}
variable {key : RunKey} {row : RunRow} {es : List Entry} {db₂ db₃ : Db δ}

/-- The idempotency key `retry_run` creates the child of a run under. -/
def retryKey (old : RunRow) : String :=
  "workflow.retry:" ++ old.runId ++ ":" ++ toString (old.attempt + 1)

/-- The events in the history of a run that name a child. -/
def Db.retryEvents (db : Db δ) (key : RunKey) : List EventRow :=
  (db.history key).filter fun event => event.eventType = "workflow.retry_created"

/-- The run names `key` as its parent. -/
def RunRow.IsChild (row : RunRow) (key : RunKey) : Prop :=
  row.scope = key.scope ∧ row.parentRunId = some key.runId

/-- A run that can be retried. -/
def RunRow.Failed (row : RunRow) : Prop :=
  row.state.isTerminal = true ∧ row.state ≠ .succeeded

/-- What the children, their parents and the noted retries have to do with one
another. -/
structure Lineage (db : Db δ) : Prop where
  /-- A child was created by a retry of its parent. -/
  parent : ∀ child ∈ db.runs, ∀ key, child.IsChild key → ∃ old ∈ db.runs, old.key = key ∧
    old.Failed ∧ child.attempt = old.attempt + 1 ∧ child.idempotencyKey = some (retryKey old)
  /-- A child is named once in the history of its parent. -/
  named : ∀ child ∈ db.runs, ∀ key, child.IsChild key → ∃ event, db.retryEvents key = [event] ∧
    event.payload.get? "retry_run_id" = some (.str child.runId)
  /-- A noted retry has a child. -/
  child : ∀ key, db.retryEvents key ≠ [] → ∃ child ∈ db.runs, child.IsChild key

/-- The calls that leave the lineage to `retry_run`. -/
def KeepsLineage : Lbl δ → Prop
  | .create call => call.parentRunId = none
  | .op _ (.createRunAtomic _ _ _ parentRunId _) => parentRunId = none
  | .op _ (.recordEvent _ eventType _ _ _ _) => eventType ≠ "workflow.retry_created"
  | .op _ (.recordAgentDeliveryOnce _ _ _ eventType _ _ _ _) => eventType ≠ "workflow.retry_created"
  | .op _ (.mergeAgentOutputOnce _ _ _ _ eventType _ _) => eventType ≠ "workflow.retry_created"
  | .op _ (.mergeOutput _ _ eventType _ _ _) => eventType ≠ "workflow.retry_created"
  | .op _ (.commitRunProgressAtomic _ _ _ _ eventType _ _) => eventType ≠ "workflow.retry_created"
  | _ => True

variable {db db' db₁ : Db δ} {e e₁ e₂ : Entry} {ctx : Context} {newRunId runId : String}
variable {reason : Option String} {s : Sys δ}

/-- Two children of one run are one run. -/
theorem Lineage.unique (hi : Lineage db) {a b : RunRow} (ha : a ∈ db.runs) (hb : b ∈ db.runs)
    (hca : a.IsChild key) (hcb : b.IsChild key) : a = b := by
  rcases hi.parent a ha key hca with ⟨old, hold, hok, _, _, hka⟩
  rcases hi.parent b hb key hcb with ⟨old', hold', hok', _, _, hkb⟩
  obtain rfl := eq_of_key_eq hold hold' (hok.trans hok'.symm)
  refine Table.eq_of_conflict ha hb (.inr (.inl ⟨hca.1.trans hcb.1.symm, ?_, hka.trans hkb.symm⟩))
  rw [hka]
  exact some_ne_none _

theorem Lineage.congr (hi : Lineage db) (hruns : db'.runs = db.runs)
    (hevents : db'.events = db.events) : Lineage db' := by
  have hretry : ∀ key, db'.retryEvents key = db.retryEvents key := fun key => by
    rw [Db.retryEvents, Db.history, hevents, Db.retryEvents, Db.history]
  refine ⟨?_, ?_, ?_⟩
  · rw [hruns]
    exact hi.parent
  · simp only [hruns, hretry]
    exact hi.named
  · simp only [hruns, hretry]
    exact hi.child

/-! ## One entry -/

theorem SameIdentity.isChild {new : RunRow} (h : SameIdentity old new) :
    new.IsChild key ↔ old.IsChild key := by
  rw [h]
  rfl

theorem retryEvents_effect (h : Effect db e db') (key : RunKey) :
    db'.retryEvents key = db.retryEvents key ++
      if e.run.key = key ∧ e.event.eventType = "workflow.retry_created" then [e.event] else [] := by
  rw [Db.retryEvents, h.history, filter_append, Db.retryEvents]
  by_cases hk : e.run.key = key <;> simp [hk, filter_cons]

/-- A parent stays what it is. -/
theorem failed_effect (h : Effect db e db') (hrow : row ∈ db.runs) (hfailed : row.Failed) :
    ∃ row' ∈ db'.runs, Settled row row' ∧ row'.Failed := by
  rcases settled_journal hrow hfailed.1 h.journal with ⟨row', hrow', hs⟩
  exact ⟨row', hrow', hs, by rw [RunRow.Failed, hs.state]; exact hfailed⟩

/-- An entry that creates no child and names none. -/
theorem lineage_effect (h : Effect db e db')
    (hcreated : e.report = .created → e.run.parentRunId = none)
    (htype : e.event.eventType ≠ "workflow.retry_created") (hi : Lineage db) : Lineage db' := by
  have hretry : ∀ key, db'.retryEvents key = db.retryEvents key := fun key => by
    rw [retryEvents_effect h, if_neg fun hk => htype hk.2, append_nil]
  -- a child that is stored now was stored before
  have horigin : ∀ child ∈ db'.runs, ∀ key, child.IsChild key →
      ∃ old ∈ db.runs, SameIdentity old child ∧ old.IsChild key := by
    intro child hchild key hc
    rcases h.origin hchild with ⟨old, hold, hsame⟩ | ⟨hreport, rfl⟩
    · exact ⟨old, hold, hsame, hsame.isChild.1 hc⟩
    have := hc.2
    rw [hcreated hreport] at this
    cases this
  refine ⟨fun child hchild key hc => ?_, fun child hchild key hc => ?_, fun key hne => ?_⟩
  · rcases horigin child hchild key hc with ⟨old, hold, hsame, hco⟩
    rcases hi.parent old hold key hco with ⟨parent, hp, hpk, hfailed, hattempt, hkey⟩
    rcases failed_effect h hp hfailed with ⟨parent', hp', hs, hfailed'⟩
    refine ⟨parent', hp', ?_, hfailed', ?_, ?_⟩
    · rw [hs]
      exact hpk
    · rw [hsame, hs]
      exact hattempt
    · rw [hsame, hs]
      exact hkey
  · rcases horigin child hchild key hc with ⟨old, hold, hsame, hco⟩
    rcases hi.named old hold key hco with ⟨event, hev, hname⟩
    exact ⟨event, by rw [hretry, hev], by rw [hsame]; exact hname⟩
  · rw [hretry] at hne
    rcases hi.child key hne with ⟨child, hchild, hc⟩
    rcases identity_effect h hchild with ⟨child', hchild', hsame⟩
    exact ⟨child', hchild', hsame.isChild.2 hc⟩

/-! ## The two entries of a retry -/

/-- What a retry of `old` enters: the child and the event that names it. -/
structure RetryEntries (ctx : Context) (old : RunRow) (newRunId : String)
    (reason : Option String) (e₁ e₂ : Entry) : Prop where
  creates : e₁.Creates (ctx.row (newRecord ctx (retryBody old reason) newRunId (some old.runId)
    (old.attempt + 1)))
  notes : e₂.Notes old.key "workflow.retry_created"
  payload : e₂.event.payload.get? "retry_run_id" = some (.str newRunId)

section

variable (h : RetryEntries ctx old newRunId reason e₁ e₂)

include h

theorem RetryEntries.isChild
    (hscope : old.scope = ctx.scope) : e₁.run.IsChild key ↔ key = old.key := by
  rw [h.creates.1]
  constructor
  · rintro ⟨hs, hp⟩
    have hid : old.runId = key.runId := some.inj hp
    rcases key with ⟨scope, runId⟩
    rw [RunRow.key, hscope, hid]
    exact congrArg (RunKey.mk · runId) hs.symm
  · rintro rfl
    exact ⟨hscope.symm, rfl⟩

/-- A child of the run in the database would hold the idempotency key of the new
child, so there is none. -/
theorem no_child_before_retry
    (hscope : old.scope = ctx.scope) (hi : Lineage db) (hold : old ∈ db.runs)
    (heff : Effect db e₁ db₁) : ∀ child ∈ db.runs, ¬ child.IsChild old.key := by
  intro child hchild hc
  rcases hi.parent child hchild old.key hc with ⟨old', hold', hk, _, _, hkey⟩
  obtain rfl := eq_of_key_eq hold' hold hk
  have hfresh := (heff.of_created h.creates.2).2 child hchild
  have hne : child.key ≠ e₁.run.key := hfresh
  have hconflict : child.conflict e₁.run := by
    refine .inr (.inl ⟨?_, ?_, ?_⟩)
    · rw [h.creates.1]
      exact hc.1.trans hscope
    · rw [hkey]
      exact some_ne_none _
    · rw [hkey, h.creates.1]
      rfl
  have hsame : child = e₁.run := Table.eq_of_conflict (heff.mem_runs.2 (.inr ⟨hchild, hne⟩))
    (heff.mem_runs.2 (.inl rfl)) hconflict
  exact hne (congrArg RunRow.key hsame)

/-- A retry adds the child and keeps the other runs. -/
theorem retry_rows (heff₁ : Effect db e₁ db₁)
    (hruns : db₂.runs = db₁.runs) (heff₂ : Effect db₂ e₂ db₃) (row : RunRow) :
    row ∈ db₃.runs ↔ row = e₁.run ∨ row ∈ db.runs := by
  have hfresh := (heff₁.of_created h.creates.2).2
  rw [heff₂.runs_of_noted h.notes.2.1, hruns, heff₁.mem_runs]
  exact or_congr_right ⟨fun hr => hr.1, fun hr => ⟨hr, hfresh row hr⟩⟩

/-- A retry gives a failed run without a child its child. -/
theorem lineage_retry
    (hscope : old.scope = ctx.scope) (hi : Lineage db) (hold : old ∈ db.runs) (hfailed : old.Failed)
    (heff₁ : Effect db e₁ db₁) (hruns : db₂.runs = db₁.runs) (hevents : db₂.events = db₁.events)
    (heff₂ : Effect db₂ e₂ db₃) : Lineage db₃ := by
  have hno := no_child_before_retry h hscope hi hold heff₁
  have hmem := retry_rows h heff₁ hruns heff₂
  have hretry : ∀ key, db₃.retryEvents key =
      db.retryEvents key ++ if old.key = key then [e₂.event] else [] := fun key => by
    have htype : e₁.event.eventType = "workflow.created" := by
      have := heff₁.fits.named
      rwa [h.creates.2] at this
    have hsame : db₂.retryEvents key = db.retryEvents key := by
      rw [Db.retryEvents, Db.history, hevents]
      exact (retryEvents_effect heff₁ key).trans (by simp [htype])
    rw [retryEvents_effect heff₂, hsame, h.notes.1, h.notes.2.2]
    simp
  have hnone : db.retryEvents old.key = [] := by
    by_contra hne
    rcases hi.child old.key hne with ⟨child, hchild, hc⟩
    exact hno child hchild hc
  refine ⟨fun child hchild key hc => ?_, fun child hchild key hc => ?_, fun key hne => ?_⟩
  · rcases (hmem child).1 hchild with rfl | hchild
    · obtain rfl := (h.isChild hscope).1 hc
      rw [h.creates.1]
      exact ⟨old, (hmem old).2 (.inr hold), rfl, hfailed, rfl, rfl⟩
    · rcases hi.parent child hchild key hc with ⟨parent, hp, hrest⟩
      exact ⟨parent, (hmem parent).2 (.inr hp), hrest⟩
  · rcases (hmem child).1 hchild with rfl | hchild
    · obtain rfl := (h.isChild hscope).1 hc
      refine ⟨e₂.event, by rw [hretry, hnone, if_pos rfl, nil_append], ?_⟩
      rw [h.creates.1]
      exact h.payload
    · have hne : old.key ≠ key := fun hk => hno child hchild (hk ▸ hc)
      rcases hi.named child hchild key hc with ⟨event, hev, hname⟩
      exact ⟨event, by rw [hretry, hev, if_neg hne, append_nil], hname⟩
  · by_cases hk : old.key = key
    · exact ⟨e₁.run, (hmem _).2 (.inl rfl), (h.isChild hscope).2 hk.symm⟩
    rw [hretry, if_neg hk, append_nil] at hne
    rcases hi.child key hne with ⟨child, hchild, hc⟩
    exact ⟨child, (hmem child).2 (.inr hchild), hc⟩

end

/-- What a committed `retry_run` did: it found the child of the run, or made it. -/
inductive Retried (ctx : Context) (runId newRunId : String) (reason : Option String) (db : Db δ)
    (record : WorkflowRunRecord) (db' : Db δ) : Prop where
  | found (h : db = db') (row : RunRow) (hrow : row ∈ db.runs) (hscope : row.scope = ctx.scope)
      (hparent : row.parentRunId = some runId) (hrecord : record = row.toWorkflowRunRecord)
  | made (old : RunRow) (hold : old ∈ db.runs) (hkey : old.key = ⟨ctx.scope, runId⟩)
      (hfailed : old.Failed) (e₁ e₂ : Entry) (journal : Journal db [e₁, e₂] db')
      (entries : RetryEntries ctx old newRunId reason e₁ e₂)
      (hrecord : record = e₁.run.toWorkflowRunRecord)

theorem retried_of_commits [DomainTables δ]
    {domainWriter : Option (WorkflowRunRecord → DomainWriter δ)} {result : Option WorkflowRunRecord}
    (h : Returns (retryRun ctx runId newRunId reason domainWriter) db (.commit result) db') :
    ∃ record, result = some record ∧ Retried ctx runId newRunId reason db record db' := by
  rcases retryRun_commits h with ⟨old, record, hold, hterminal, hfailed, hres,
    ⟨hsame, hparent, row, hrow, hscope, hrecord⟩ | ⟨e₁, e₂, hj, hrecord, hc₁, hnotes, hpayload⟩⟩
  · refine ⟨record, hres, .found hsame row hrow hscope ?_ hrecord⟩
    rcases Db.findRun_eq_some.1 hold with ⟨_, hkey⟩
    have hid : old.runId = runId := congrArg RunKey.runId hkey
    rw [hrecord, hid] at hparent
    exact hparent
  · rcases Db.findRun_eq_some.1 hold with ⟨hmem, hkey⟩
    refine ⟨record, hres, .made old hmem hkey ⟨hterminal, hfailed⟩ e₁ e₂ hj
      ⟨hrecord ▸ hc₁, hkey ▸ hnotes, hpayload⟩ ?_⟩
    rw [hc₁.1]
    rfl

section

variable (h : Retried ctx runId newRunId reason db record db')

include h

/-- The runs after a retry: those before it and, when it made one, the child. -/
theorem Retried.rows (hrow : row ∈ db'.runs) :
    row ∈ db.runs ∨ ∃ old ∈ db.runs, old.Failed ∧ ∀ key, row.IsChild key → old.key = key := by
  cases h with
  | found h => exact .inl (h ▸ hrow)
  | made old hold hkey hfailed e₁ e₂ journal entries hrecord =>
    rcases journal.uncons with ⟨db₁, db₂, ⟨hruns₁, _⟩, heff₁, hj⟩
    rcases hj.uncons with ⟨db₃, db₄, ⟨hruns₂, _⟩, heff₂, hj⟩
    rw [hj.of_nil.1, retry_rows entries heff₁ hruns₂ heff₂, hruns₁] at hrow
    rcases hrow with rfl | hrow
    · exact .inr ⟨old, hold, hfailed, fun key hc =>
        ((entries.isChild (congrArg RunKey.scope hkey)).1 hc).symm⟩
    · exact .inl hrow

/-- What a retry returns is a stored child of the run. -/
theorem Retried.child :
    ∃ child ∈ db'.runs, child.IsChild ⟨ctx.scope, runId⟩ ∧ record = child.toWorkflowRunRecord := by
  cases h with
  | found h row hrow hscope hparent hrecord =>
    exact ⟨row, h ▸ hrow, ⟨hscope, hparent⟩, hrecord⟩
  | made old hold hkey hfailed e₁ e₂ journal entries hrecord =>
    rcases journal.uncons with ⟨db₁, db₂, ⟨hruns₁, _⟩, heff₁, hj⟩
    rcases hj.uncons with ⟨db₃, db₄, ⟨hruns₂, _⟩, heff₂, hj⟩
    refine ⟨e₁.run, ?_, (entries.isChild (congrArg RunKey.scope hkey)).2 hkey.symm, hrecord⟩
    rw [hj.of_nil.1]
    exact (retry_rows entries heff₁ hruns₂ heff₂ _).2 (.inl rfl)

theorem lineage_retried (hi : Lineage db) :
    Lineage db' := by
  cases h with
  | found h => exact h ▸ hi
  | made old hold hkey hfailed e₁ e₂ journal entries hrecord =>
    rcases journal.uncons with ⟨db₁, db₂, ⟨hruns₁, hevents₁⟩, heff₁, hj⟩
    rcases hj.uncons with ⟨db₃, db₄, ⟨hruns₂, hevents₂⟩, heff₂, hj⟩
    rcases hj.of_nil with ⟨hruns₃, hevents₃⟩
    exact (lineage_retry entries (congrArg RunKey.scope hkey) (hi.congr hruns₁ hevents₁)
      (hruns₁ ▸ hold) hfailed heff₁ hruns₂ hevents₂ heff₂).congr hruns₃ hevents₃

end

/-! ## Steps -/

/-- The step is a `retry_run`. -/
def Lbl.IsRetry : Lbl δ → Prop
  | .op _ (.retryRun _ _ _ _) => True
  | _ => False

/-- Every entry of a step that is no retry leaves the lineage alone. -/
theorem unrelated_of_makes {l : Lbl δ} (hl : KeepsLineage l) (hno : ¬ l.IsRetry)
    (hcalls : ∀ id call, s.calls id = some call → call.parentRunId = none) (h : l.Makes s e)
    (hnamed : e.report.Names e.event.eventType) :
    (e.report = .created → e.run.parentRunId = none) ∧
      e.event.eventType ≠ "workflow.retry_created" := by
  have hcreated : e.report = .created → e.event.eventType ≠ "workflow.retry_created" :=
    fun hr => by
      rw [hr] at hnamed
      rw [show e.event.eventType = "workflow.created" from hnamed]
      decide
  have hmoved : ∀ old, e.report = .changed .transition old →
      e.event.eventType ≠ "workflow.retry_created" := fun old hr htype => by
    rw [hr, htype] at hnamed
    revert hnamed
    simp [Report.Names, stateEventTypes]
  have hinline : ∀ old, e.report = .changed .inline old →
      e.event.eventType ≠ "workflow.retry_created" := fun old hr => by
    rw [hr] at hnamed
    rw [show e.event.eventType = "workflow.succeeded" from hnamed]
    decide
  have hchanged : ∀ kind old, e.report = .changed kind old → e.report = .created →
      e.run.parentRunId = none := fun kind old hr hc => by
    rw [hr] at hc
    cases hc
  have hnoted : e.report = .noted → e.report = .created → e.run.parentRunId = none :=
    fun hr hc => by
      rw [hr] at hc
      cases hc
  cases l with
  | op ctx operation =>
    cases operation with
    | createRunAtomic body domainWriter runId parentRunId attempt =>
      exact ⟨fun _ => by rw [h.1]; exact hl, hcreated h.2⟩
    | recordEvent runId eventType message payload visibility lease
    | recordAgentDeliveryOnce before runId deliveryKey eventType message payload visibility after =>
      exact ⟨hnoted h.2.1, h.2.2 ▸ hl⟩
    | mergeAgentOutputOnce before runId deliveryKey patch eventType message after
    | mergeOutput runId patch eventType message mergeStrategy lease =>
      rcases h with ⟨⟨_, old, hr⟩, htype⟩
      exact ⟨hchanged _ old hr, htype ▸ hl⟩
    | commitRunProgressAtomic runId output domainWriter domainEvents eventType message lease =>
      rcases h with ⟨⟨_, old, hr⟩, _, htype⟩
      exact ⟨hchanged _ old hr, htype ▸ hl⟩
    | setState runId call domainWriter domainEvents lease =>
      rcases h with ⟨⟨_, old, hr⟩, _⟩
      exact ⟨hchanged _ old hr, hmoved old hr⟩
    | completeNewRunAtomic body newRunId output domainWriter domainEvents message =>
      rcases h with ⟨hrun, hr⟩ | ⟨_, old, hr⟩
      · exact ⟨fun _ => by rw [hrun]; rfl, hcreated hr⟩
      · exact ⟨hchanged _ old hr, hinline old hr⟩
    | requestCancelInTransaction before runId reason after
    | settleAgentTerminal before runId state message output payload after =>
      rcases h with ⟨_, old, hr⟩
      exact ⟨hchanged _ old hr, hmoved old hr⟩
    | retryRun runId newRunId reason domainWriter => exact (hno trivial).elim
    | projectActiveRun runId domainWriter lease | domain writer => exact h.elim
  | advance id =>
    rcases h with ⟨call, hcall, _, hrun, hr⟩
    exact ⟨fun _ => by rw [hrun]; exact hcalls id call hcall, hcreated hr⟩
  | _ => exact h.elim

theorem lineage_journal (h : Journal db es db') (hes : ∀ e ∈ es, e.report.Names e.event.eventType →
      (e.report = .created → e.run.parentRunId = none) ∧
        e.event.eventType ≠ "workflow.retry_created") (hi : Lineage db) : Lineage db' := by
  induction h with
  | nil => exact hi
  | entry effect _ ih =>
    have hplain := hes _ mem_cons_self effect.fits.named
    exact ih (fun e he => hes e (mem_cons_of_mem _ he)) (lineage_effect effect hplain.1 hplain.2 hi)
  | domain effect _ ih => exact ih hes (hi.congr effect.runs effect.events)

/-- The lineage of the runs, and no creation in flight passes a parent. -/
structure Lineal (s : Sys δ) : Prop where
  lineage : Lineage s.db
  calls : ∀ id call, s.calls id = some call → call.parentRunId = none

/-- What a `retry_run` step does to the database. -/
theorem retry_step [DomainTables δ] (s : Sys δ) (ctx : Context) (runId newRunId : String)
    (reason : Option String) (domainWriter : Option (WorkflowRunRecord → DomainWriter δ)) :
    (step s (.op ctx (.retryRun runId newRunId reason domainWriter))).db = s.db ∨
      ∃ record, Retried ctx runId newRunId reason s.db record
        (step s (.op ctx (.retryRun runId newRunId reason domainWriter))).db := by
  simp only [step, Op.exec, outcome]
  rcases atomically_cases (Workflow.retryRun ctx runId newRunId reason domainWriter) s.db with
    h | ⟨result, db', hret, h⟩
  · exact .inl h
  rcases retried_of_commits hret with ⟨record, _, hretried⟩
  rw [h]
  exact .inr ⟨record, hretried⟩

theorem calls_step [DomainTables δ] (s : Sys δ) (l : Lbl δ) (hl : KeepsLineage l)
    (hcalls : ∀ id call, s.calls id = some call → call.parentRunId = none) :
    ∀ id call, (step s l).calls id = some call → call.parentRunId = none := by
  intro id call hcall
  cases step_calls s l with
  | same _ h _ => exact hcalls id call (h ▸ hcall)
  | enters c hc _ h _ =>
    rw [h] at hcall
    by_cases hid : id = s.nextCall
    · rw [hid, update_self] at hcall
      cases hcall
      subst hc
      exact hl
    · rw [update_of_ne hid] at hcall
      exact hcalls id call hcall
  | leaves i _ h _ =>
    rw [h] at hcall
    by_cases hid : id = i
    · rw [hid, update_self] at hcall
      cases hcall
    · rw [update_of_ne hid] at hcall
      exact hcalls id call hcall
  | moves i c _ hc hstep =>
    have hcs := advance_callStep s i c
    rw [← hstep] at hcs
    by_cases hid : id = i
    · subst hid
      cases hcs with
      | continues next hnext h _ =>
        rw [h, update_self] at hcall
        rcases hnext call hcall with ⟨phase, rfl⟩
        exact hcalls id c hc
      | returns _ _ _ h _ _ =>
        rw [h, update_self] at hcall
        cases hcall
    · have hother : (step s l).calls id = s.calls id := by
        cases hcs with
        | continues _ _ h _ | returns _ _ _ h _ _ => rw [h, update_of_ne hid]
      exact hcalls id call (hother ▸ hcall)

theorem lineal_step [DomainTables δ] (s : Sys δ) (l : Lbl δ) (hl : KeepsLineage l)
    (hi : Lineal s) : Lineal (step s l) := by
  refine ⟨?_, calls_step s l hl hi.calls⟩
  by_cases hretry : l.IsRetry
  · cases l with
    | op ctx operation =>
      cases operation with
      | retryRun runId newRunId reason domainWriter =>
        rcases retry_step s ctx runId newRunId reason domainWriter with h | ⟨record, h⟩
        · rw [h]
          exact hi.lineage
        · exact lineage_retried h hi.lineage
      | _ => exact hretry.elim
    | _ => exact hretry.elim
  · cases step_cases s l with
    | same h => rw [h]; exact hi.lineage
    | leases h => rw [h.rest]; exact hi.lineage.congr rfl rfl
    | outbox table h => rw [h]; exact hi.lineage.congr rfl rfl
    | journal es h entries =>
      exact lineage_journal h
        (fun e he hnamed => unrelated_of_makes hl hretry hi.calls (entries e he) hnamed) hi.lineage

theorem lineal_start (domain : δ) : Lineal (Sys.start domain) where
  lineage :=
    { parent := fun child h => absurd h (Table.not_mem_empty child)
      named := fun child h => absurd h (Table.not_mem_empty child)
      child := fun key h => absurd rfl h }
  calls _ _ h := by cases h

theorem lineal_run [DomainTables δ] (hi : Lineal s) {trace : List (Lbl δ)}
    (hl : ∀ l ∈ trace, KeepsLineage l) : Lineal (run step s trace) := by
  induction trace generalizing s with
  | nil => exact hi
  | cons l trace ih =>
    exact ih (lineal_step s l (hl l mem_cons_self) hi) fun l' hl' => hl l' (mem_cons_of_mem _ hl')

/-! ## The children of a run -/

/-- A step that is no retry stores no new child. -/
theorem origin_journal (h : Journal db es db') (hes : ∀ e ∈ es, e.report.Names e.event.eventType →
      (e.report = .created → e.run.parentRunId = none) ∧
        e.event.eventType ≠ "workflow.retry_created") (hrow : row ∈ db'.runs)
    (hparent : row.parentRunId ≠ none) : ∃ old ∈ db.runs, SameIdentity old row := by
  induction h with
  | nil => exact ⟨row, hrow, .refl row⟩
  | domain effect _ ih =>
    rcases ih hes hrow with ⟨old, hold, hsame⟩
    exact ⟨old, effect.runs ▸ hold, hsame⟩
  | @entry _ _ _ e _ effect _ ih =>
    rcases ih (fun e he => hes e (mem_cons_of_mem _ he)) hrow with ⟨old, hold, hsame⟩
    rcases effect.origin hold with ⟨older, holder, hsame'⟩ | ⟨hreport, rfl⟩
    · exact ⟨older, holder, hsame'.trans hsame⟩
    · rw [hsame] at hparent
      exact absurd ((hes e mem_cons_self effect.fits.named).1 hreport) hparent

/-- The parent of a child that a step creates is a failed run. -/
theorem failed_of_new_child [DomainTables δ] {l : Lbl δ} (hl : KeepsLineage l) (hi : Lineal s)
    {child : RunRow} (hchild : child ∈ (step s l).db.runs)
    (hnew : ∀ row ∈ s.db.runs, row.key ≠ child.key) (hc : child.IsChild key) :
    ∃ old ∈ s.db.runs, old.key = key ∧ old.Failed := by
  by_cases hretry : l.IsRetry
  · cases l with
    | op ctx operation =>
      cases operation with
      | retryRun runId newRunId reason domainWriter =>
        rcases retry_step s ctx runId newRunId reason domainWriter with h | ⟨record, h⟩
        · exact absurd rfl (hnew child (h ▸ hchild))
        rcases h.rows hchild with hold | ⟨old, hold, hfailed, hkey⟩
        · exact absurd rfl (hnew child hold)
        · exact ⟨old, hold, hkey key hc, hfailed⟩
      | _ => exact hretry.elim
    | _ => exact hretry.elim
  cases step_cases s l with
  | same h => exact absurd rfl (hnew child (h ▸ hchild))
  | leases h =>
    rw [h.rest] at hchild
    exact absurd rfl (hnew child hchild)
  | outbox table h =>
    rw [h] at hchild
    exact absurd rfl (hnew child hchild)
  | journal es h entries =>
    have hparent : child.parentRunId ≠ none := by
      rw [hc.2]
      exact some_ne_none _
    rcases origin_journal h
      (fun e he hnamed => unrelated_of_makes hl hretry hi.calls (entries e he) hnamed) hchild
      hparent with ⟨old, hold, hsame⟩
    exact absurd hsame.key.symm (hnew old hold)

/-- The retries of a run of the service. -/
structure SingleChild [DomainTables δ] (s : Sys δ) (trace : List (Lbl δ)) : Prop where
  /-- A run has at most one child. -/
  unique : ∀ a ∈ (run step s trace).db.runs, ∀ b ∈ (run step s trace).db.runs, ∀ key,
    a.IsChild key → b.IsChild key → a = b
  /-- The child is the next attempt. -/
  attempt : ∀ child ∈ (run step s trace).db.runs, ∀ key, child.IsChild key →
    ∃ old ∈ (run step s trace).db.runs, old.key = key ∧ child.attempt = old.attempt + 1
  /-- When the child was created, its parent was terminal and had not succeeded. -/
  failed : ∀ before l after, trace = before ++ l :: after →
    ∀ child ∈ (run step s (before ++ [l])).db.runs,
      (∀ row ∈ (run step s before).db.runs, row.key ≠ child.key) →
      ∀ key, child.IsChild key → ∃ old ∈ (run step s before).db.runs, old.key = key ∧ old.Failed
  /-- The history of the parent names the child exactly once. -/
  named : ∀ child ∈ (run step s trace).db.runs, ∀ key, child.IsChild key →
    ∃ event, (run step s trace).db.retryEvents key = [event] ∧
      event.payload.get? "retry_run_id" = some (.str child.runId)
  /-- Every `retry_run` call raises and changes nothing, finds no such run, or
  returns the child. -/
  returns : ∀ ctx runId newRunId reason domainWriter,
    let result := atomically (retryRun ctx runId newRunId reason domainWriter) (run step s trace).db
    (∃ error, result = (.error error, (run step s trace).db)) ∨
    (result = (.ok none, (run step s trace).db) ∧
      (run step s trace).db.findRun ⟨ctx.scope, runId⟩ = none) ∨
    ∃ child ∈ result.2.runs, child.IsChild ⟨ctx.scope, runId⟩ ∧
      result.1 = .ok (some child.toWorkflowRunRecord) ∧
      ∀ other ∈ result.2.runs, other.IsChild ⟨ctx.scope, runId⟩ → other = child
  /-- At most one run that is not terminal holds an active key. -/
  active : ∀ a ∈ (run step s trace).db.runs, ∀ b ∈ (run step s trace).db.runs, ∀ key,
    a.scope = b.scope → a.activeKey = some key → b.activeKey = some key →
    a.state.isTerminal = false → b.state.isTerminal = false → a = b

/-- When the callers leave the lineage to `retry_run`, every run has at most one
child, whatever retries and creations are interleaved. -/
theorem singleChild_of_keepsLineage [DomainTables δ] (domain : δ) (trace : List (Lbl δ))
    (hl : ∀ l ∈ trace, KeepsLineage l) : SingleChild (Sys.start domain) trace := by
  have hi : Lineal (run step (Sys.start domain) trace) := lineal_run (lineal_start domain) hl
  refine ⟨fun a ha b hb key hca hcb => hi.lineage.unique ha hb hca hcb, fun child hchild key hc => ?_,
    ?_, hi.lineage.named, ?_, ?_⟩
  · rcases hi.lineage.parent child hchild key hc with ⟨old, hold, hkey, _, hattempt, _⟩
    exact ⟨old, hold, hkey, hattempt⟩
  · rintro before l after rfl child hchild hnew key hc
    have hbefore : Lineal (run step (Sys.start domain) before) :=
      lineal_run (lineal_start domain) fun l hl' => hl l (List.mem_append_left _ hl')
    rw [run_snoc] at hchild
    exact failed_of_new_child (hl l (by simp)) hbefore hchild hnew hc
  · intro ctx runId newRunId reason domainWriter result
    rcases hres : result.1 with error | record
    · exact .inl ⟨error, Prod.ext hres (atomically_error hres)⟩
    right
    have hresult : result = (.ok record, result.2) := Prod.ext hres rfl
    rcases atomically_ok hresult with hret | ⟨⟨db₁, habandon⟩, hsame⟩
    · right
      rcases retried_of_commits hret with ⟨made, rfl, hretried⟩
      rcases hretried.child with ⟨child, hchild, hc, rfl⟩
      exact ⟨child, hchild, hc, rfl, fun other hother hoc =>
        (lineage_retried hretried hi.lineage).unique hother hchild hoc hc⟩
    · left
      rcases retryRun_abandons habandon with ⟨rfl, hnone⟩
      exact ⟨Prod.ext hres hsame, hnone⟩
  · intro a ha b hb key hscope hka hkb hna hnb
    refine Table.eq_of_conflict ha hb (.inr (.inr ⟨hscope, ?_, hka.trans hkb.symm, ?_, ?_⟩))
    · rw [hka]
      exact Option.some_ne_none _
    · simp [hna]
    · simp [hnb]

/-- Two retries of a failed run, and a creation with its active key between them. -/
def retriedTwice : List (Lbl Unit) :=
  [createKeyed "k" "first", .advance 0, .advance 0, .advance 0,
    .op phone (.setState "first" (.failRun "stopped" none) none [] none),
    .op phone (.retryRun "first" "again" none none),
    createKeyed "other" "second", .advance 1, .advance 1,
    .op phone (.retryRun "first" "third" none none)]

/-- Both retries have led to one child, the second attempt. -/
theorem singleChild_retriedTwice :
    ((run step (Sys.start ()) retriedTwice).db.runs.rows.map fun row =>
        (row.runId, row.parentRunId, row.attempt)) =
      [("first", none, 1), ("again", some "first", 2)] ∧
      SingleChild (Sys.start ()) retriedTwice :=
  ⟨by decide +kernel, singleChild_of_keepsLineage () retriedTwice
    (by simp [retriedTwice, createKeyed, KeepsLineage])⟩

/-! ## The retries that come from one run -/

def Db.RetryOf (db : Db δ) (old child : RunRow) : Prop :=
  old ∈ db.runs ∧ child ∈ db.runs ∧ child.IsChild old.key

structure Db.RetryChains (db : Db δ) : Prop where
  /-- A run that was retried has failed, and what comes from it are later attempts. -/
  later : ∀ old child, Relation.TransGen db.RetryOf old child →
    old.Failed ∧ old.attempt < child.attempt
  /-- Of two runs that come from one, one comes from the other. -/
  total : ∀ root a b, Relation.ReflTransGen db.RetryOf root a →
    Relation.ReflTransGen db.RetryOf root b →
      Relation.ReflTransGen db.RetryOf a b ∨ Relation.ReflTransGen db.RetryOf b a

theorem Lineage.next_attempt (hi : Lineage db) {old child : RunRow} (h : db.RetryOf old child) :
    old.Failed ∧ child.attempt = old.attempt + 1 := by
  obtain ⟨hold, hchild, hc⟩ := h
  rcases hi.parent child hchild old.key hc with ⟨parent, hparent, hkey, hfailed, hattempt, _⟩
  obtain rfl := eq_of_key_eq hparent hold hkey
  exact ⟨hfailed, hattempt⟩

/-- Whatever retries are interleaved, the attempts of a run form one chain, all failed but the
last. -/
theorem retryChains_of_keepsLineage [DomainTables δ] (domain : δ) (trace : List (Lbl δ))
    (hl : ∀ l ∈ trace, KeepsLineage l) : (run step (Sys.start domain) trace).db.RetryChains := by
  have hi := (lineal_run (lineal_start domain) hl).lineage
  constructor
  · intro old child h
    induction h with
    | single h =>
      obtain ⟨hfailed, hattempt⟩ := hi.next_attempt h
      exact ⟨hfailed, by omega⟩
    | tail _ h ih =>
      obtain ⟨-, hattempt⟩ := hi.next_attempt h
      exact ⟨ih.1, by omega⟩
  · intro root a b ha hb
    refine ha.total_of_right_unique ?_ hb
    rintro old x y ⟨-, hx, hcx⟩ ⟨-, hy, hcy⟩
    exact hi.unique hx hy hcx hcy

theorem retryChains_retriedTwice : (run step (Sys.start ()) retriedTwice).db.RetryChains :=
  retryChains_of_keepsLineage () retriedTwice (by simp [retriedTwice, createKeyed, KeepsLineage])

end Workflow
