import EchoDesk.Workflow.Lifecycle

/-! # The unit of work

What a committed transaction leaves behind fits together: its events continue
the numbering of their runs, each comes with two outbox rows of kind
`workflow`, and the snapshot in the second is the row of the run as the change
the event reports left it. A transaction that fails leaves nothing behind.

The snapshot of an event need not be the row the transaction leaves:
`complete_new_run_atomic` makes two changes of one run, and the snapshot of the
first event is the row between them.
-/

namespace Workflow

open EchoDesk Transaction Transition OrderedLog Outbox List

variable {δ : Type}
variable {inlined : EventRow → Prop}

/-- The revision of a row that an event reports. -/
def Report.Revises : Report → RunRow → Prop
  | .created, row => row.revision = 0
  | .changed _ old, row => row.revision = old.revision + 1
  | .noted, _ => True

/-- The rows of one run in a transaction, from the row it starts with to the row
it leaves: each entry starts from the row of the entry before it. -/
inductive RowChain : Option RunRow → List Entry → Option RunRow → Prop where
  | nil (row : Option RunRow) : RowChain row [] row
  | cons {row : Option RunRow} {e : Entry} {es : List Entry} {last : Option RunRow}
      (prior : e.report.prior e.run = row) (revises : e.report.Revises e.run)
      (rest : RowChain (some e.run) es last) : RowChain row (e :: es) last

/-- The entries of a transaction about one run. -/
def entriesOf (es : List Entry) (key : RunKey) : List Entry := es.filter fun e => e.run.key = key

/-- A transaction from `db` to `db'` with the entries `es`. -/
structure UnitOfWork (db : Db δ) (es : List Entry) (db' : Db δ) : Prop where
  /-- The new events are those of the entries. -/
  events : db'.events.rows = db.events.rows ++ es.map (·.event)
  /-- Each event carries the key of the run it is reported with. -/
  reported : ∀ e ∈ es, e.event.key = e.run.key ∧ e.event.state = e.run.state
  /-- The numbers of the events of every run are 1, 2, 3, … -/
  numbered : ∀ key, Dense (fun event : EventRow => event.seq) (db'.history key)
  /-- The new outbox rows of kind `workflow` are, entry by entry, the event and
  the snapshot of the reported row. -/
  outbox : ∃ added, db'.outbox.rows = db.outbox.rows ++ added ∧
    (added.map (·.toNewOutboxRow)).filter (·.aggregateType = .workflow) =
      es.flatMap Entry.outboxRows
  /-- The reported rows are the successive rows of their run. -/
  rows : ∀ key, RowChain (db.findRun key) (entriesOf es key) (db'.findRun key)

variable {db db' : Db δ} {es : List Entry}

/-- A revision counts the row changes. -/
theorem Effect.revises {e : Entry} (h : Effect db e db') : e.report.Revises e.run := by
  cases hreport : e.report with
  | created => exact (h.of_created hreport).1.revision
  | changed kind old => exact (h.of_changed hreport).2.revision
  | noted => trivial

theorem rowChain_of_journal (h : Journal db es db') (key : RunKey) :
    RowChain (db.findRun key) (entriesOf es key) (db'.findRun key) := by
  induction h with
  | nil => exact .nil _
  | domain effect _ ih => rwa [effect.findRun] at ih
  | @entry _ _ _ e es effect _ ih =>
    rw [effect.findRun] at ih
    by_cases hk : e.run.key = key
    · rw [if_pos hk] at ih
      rw [entriesOf, filter_cons_of_pos (by simpa using hk)]
      exact .cons (hk ▸ effect.findRun_before.symm) effect.revises ih
    · rw [if_neg hk] at ih
      rwa [entriesOf, filter_cons_of_neg (by simpa using hk)]

theorem reported_of_journal (h : Journal db es db') :
    ∀ e ∈ es, e.event.key = e.run.key ∧ e.event.state = e.run.state := by
  induction h with
  | nil => simp
  | domain effect _ ih => exact ih
  | entry effect _ ih =>
    exact forall_mem_cons.2 ⟨⟨effect.fits.key, effect.fits.state⟩, ih⟩

/-- The outbox rows a transaction adds are those of its entries and rows of
kind `domain`. -/
theorem outbox_of_journal (h : Journal db es db') : ∃ new, db'.outbox = db.outbox.appendAll new ∧
      new.filter (·.aggregateType = .workflow) = es.flatMap Entry.outboxRows := by
  induction h with
  | nil => exact ⟨[], rfl, rfl⟩
  | entry effect _ ih =>
    rcases ih with ⟨new, hout, hnew⟩
    refine ⟨_ ++ new, by rw [hout, effect.outbox, ← OutboxTable.appendAll_append], ?_⟩
    rw [filter_append, hnew, flatMap_cons]
    simp [Entry.outboxRows]
  | domain effect _ ih =>
    rcases ih with ⟨new, hout, hnew⟩
    rcases effect.outbox with ⟨rows, hdomain, hrows⟩
    refine ⟨rows ++ new, by rw [hout, hrows, ← OutboxTable.appendAll_append], ?_⟩
    have hnone : rows.filter (·.aggregateType = .workflow) = [] :=
      filter_eq_nil_iff.2 fun row hrow => by simp [hdomain row hrow]
    rw [filter_append, hnone, hnew, nil_append]

/-- The history of a run is numbered densely, also when there is no such run. -/
theorem Lives.numbered (hi : Lives inlined db) (key : RunKey) :
    Dense (fun event : EventRow => event.seq) (db.history key) := by
  cases hrun : db.findRun key with
  | some row =>
    rcases Db.findRun_eq_some.1 hrun with ⟨hrow, rfl⟩
    exact (hi.life row hrow).numbered
  | none =>
    have hempty : db.history key = [] := by
      refine filter_eq_nil_iff.2 fun event hev hk => ?_
      rcases hi.owned event hev with ⟨row, hrow, hrk⟩
      exact Db.findRun_eq_none.1 hrun row hrow (hrk.trans (of_decide_eq_true hk))
    rw [hempty]
    exact Dense.nil

theorem unitOfWork_of_journal (hi : Lives inlined db) (h : Journal db es db') :
    UnitOfWork db es db' where
  events := h.events_eq
  reported := reported_of_journal h
  numbered := by
    have hi' : Lives (fun _ => True) db := hi.mono fun _ _ => trivial
    exact (lives_journal h (fun _ _ _ _ => trivial) hi').numbered
  outbox := by
    rcases outbox_of_journal h with ⟨new, hout, hnew⟩
    rcases db.outbox.rows_appendAll new with ⟨added, hrows, hadded, _⟩
    exact ⟨added, by rw [hout, hrows], by rw [hadded, hnew]⟩
  rows := rowChain_of_journal h

/-- Every operation, from every state the service reaches, is a unit of work:
when it commits, its entries are one; when it raises, the database is as it
was. -/
theorem units_of_work [DomainTables δ] (domain : δ) (trace : List (Lbl δ)) :
    let db := (run step (Sys.start domain) trace).db
    (∀ ctx (op : Op δ), ((op.exec ctx db).1 = .ok () → (op.exec ctx db).2 = db ∨
          ∃ es, (∀ e ∈ es, op.Makes ctx e) ∧ UnitOfWork db es (op.exec ctx db).2) ∧
      ∀ error, (op.exec ctx db).1 = .error error → (op.exec ctx db).2 = db) ∧
    ∀ call : CreateCall δ, (∀ record, (atomically call.insertBody db).1 = .ok record →
        ∃ e, e.Creates call.newRow ∧ UnitOfWork db [e] (atomically call.insertBody db).2) ∧
      ∀ error, (atomically call.insertBody db).1 = .error error →
        (atomically call.insertBody db).2 = db := by
  intro db
  have hlives : Lives (· ∈ (run step (Sys.start domain) trace).inlined) db :=
    @run_invariant _ _ step (fun s : Sys δ => Lives (· ∈ s.inlined) s.db) lives_step _
      (lives_start domain _) trace
  refine ⟨fun ctx op => ⟨fun _ => ?_, fun error h => Op.exec_error h⟩,
    fun call => ⟨fun record hok => ?_, fun error h => atomically_error h⟩⟩
  · rcases op.exec_cases ctx db with h | ⟨_, es, h⟩
    · exact .inl h
    · exact .inr ⟨es, h.entries, unitOfWork_of_journal hlives h.journal⟩
  · have hresult : atomically call.insertBody db =
        (.ok record, (atomically call.insertBody db).2) := Prod.ext hok rfl
    rcases insertBody_commits (insertBody_of_ok hresult) with ⟨_, _, e, hj, hcreates⟩
    exact ⟨e, hcreates, unitOfWork_of_journal hlives hj⟩

/-! ## The snapshot between two changes -/

/-- Every new snapshot is the row the transaction leaves. -/
def FinalSnapshots (db db' : Db δ) : Prop :=
  ∀ row ∈ db'.outbox.rows, db.outbox.lastId < row.outboxId → ∀ meetingId snapshot,
    row.payload = .snapshot meetingId snapshot →
    (db'.findRun ⟨row.scope, row.aggregateId⟩).map (·.toWorkflowRunRecord) = some snapshot

/-- The state a snapshot shows. -/
def OutboxPayload.snapshotState : OutboxPayload → Option WorkflowState
  | .snapshot _ body => some body.state
  | _ => none

/-- Final snapshots show the state of the stored run. -/
theorem FinalSnapshots.states (h : FinalSnapshots db db') :
    ∀ row ∈ db'.outbox.rows, db.outbox.lastId < row.outboxId → row.payload.snapshotState = none ∨
        (db'.findRun ⟨row.scope, row.aggregateId⟩).map (·.state) = row.payload.snapshotState := by
  intro row hrow hnew
  cases hpayload : row.payload with
  | event meetingId body => exact .inl rfl
  | snapshot meetingId body =>
    have := congrArg (Option.map (·.state)) (h row hrow hnew meetingId body hpayload)
    rw [Option.map_map] at this
    exact .inr this
  | domain meetingId body => exact .inl rfl

/-- What the inline completion of a new run leaves in an empty database. -/
def completedInline : Except WorkflowError Unit × Db Unit :=
  (Op.completeNewRunAtomic { kind := "note", intentText := "note" } "run" []
    (fun _ => { tables := () }) [] "done").exec { principal := ⟨"tenant", "device", "owner"⟩ }
    (Sys.start ()).db

/-- An inline completion publishes the pending row, which it does not leave. -/
theorem completedInline_not_final :
    completedInline.1.isOk = true ∧ ¬ FinalSnapshots (Sys.start ()).db completedInline.2 := by
  refine ⟨by decide +kernel, fun h => absurd h.states ?_⟩
  decide +kernel

end Workflow
