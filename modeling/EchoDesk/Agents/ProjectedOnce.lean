import EchoDesk.Agents.ProjectionSystem

/-! # Every event is projected once

A delivery key is in a run at most once because the transaction that appends it looks for it first,
and a domain event is appended at most once because the transaction that appends it marks the row
and rolls back where the row is marked already. Neither argument needs the projection lease: it may
expire and be taken over at any moment.

A projected event of a linked task is in the run of the task, since its acknowledgement comes after
the statement that delivers it. Its domain event was appended with the mark, unless the event is one
that is kept for the audit alone, `task.terminal_ignored`.
-/

namespace Agents

open EchoDesk Workflow Transaction Transition Runtime Outbox JsonSyntax List Attempt

/-! ## What every step leaves -/

variable {row row' : AgentTaskRow}

theorem run?_congr (hkey : row'.key = row.key) (hlink : row'.workflowRunId = row.workflowRunId) :
    row'.run? = row.run? := by
  have hscope : row'.scope = row.scope := congrArg TaskKey.scope hkey
  rw [AgentTaskRow.run?, AgentTaskRow.run?, hscope, hlink]

/-- Runs, tasks, events and deliveries stay: a task with its run, an event with its payload and its
mark. -/
structure Onward (db db' : Db AgentTables) : Prop where
  runs : RunsStay db db'
  tasks : ∀ row ∈ db.domain.tasks, ∃ row' ∈ db'.domain.tasks,
    row'.key = row.key ∧ row'.workflowRunId = row.workflowRunId
  known : TasksKnown db db'
  events : ∀ row ∈ db.domain.events, ∃ row' ∈ db'.domain.events,
    row'.key = row.key ∧ row'.payload = row.payload ∧
      (row.projectedAt ≠ none → row'.projectedAt ≠ none)
  deliveries : db.deliveries ⊆ db'.deliveries

variable {db db' : Db AgentTables} {s : Sys} {ctx : Context}
variable {key : EventKey} {r : Executed} {a : Attempt}

theorem Still.onward (h : Still db db') : Onward db db' where
  __ := h
  events row hrow := by
    rcases h.events with ⟨new, hnew, -⟩
    refine ⟨row, ?_, rfl, rfl, id⟩
    rw [Table.mem_def, hnew]
    exact mem_append_left _ hrow
  deliveries := by rw [h.deliveries]; exact List.Subset.refl _

variable {lib : Library}

theorem Attempt.Leaves.onward (h : a.Leaves lib db r) : Onward db r.db where
  runs := h.runs
  tasks row hrow := ⟨row, by rwa [h.domain], rfl, rfl⟩
  known row hrow := .inl ⟨row, by rwa [← h.domain], rfl, rfl⟩
  events row hrow := ⟨row, by rwa [h.domain], rfl, rfl, id⟩
  deliveries := by
    cases happended : r.appended with
    | none => rw [h.silent happended]; exact List.Subset.refl _
    | some id =>
      rcases h.appended id happended with ⟨-, run, -, -, hdeliveries⟩
      rw [hdeliveries]
      exact subset_append_left _ _

theorem Attempt.Marks.onward {now : Timestamp} (h : a.Marks now db db') : Onward db db' where
  runs row hrow := ⟨row, by rwa [h.runs], rfl, rfl⟩
  tasks row hrow := ⟨row, by rwa [h.tasks], rfl, rfl⟩
  known row hrow := .inl ⟨row, by rwa [← h.tasks], rfl, rfl⟩
  events row hrow := by
    rcases h.row with ⟨marked, -, -, -, hmem⟩
    by_cases hsame : row = marked
    · subst hsame
      exact ⟨_, (hmem _).2 (.inl rfl), rfl, rfl, fun _ => Option.some_ne_none now⟩
    · exact ⟨row, (hmem row).2 (.inr ⟨hrow, hsame⟩), rfl, rfl, id⟩
  deliveries := by rw [h.deliveries]; exact List.Subset.refl _

/-! ## The invariant -/

/-- The delivery of a logged event. -/
def AgentEventRow.delivery (row : AgentEventRow) : DeliveryId :=
  { taskId := row.taskId, seq := row.seq, eventType := "agent." ++ row.payload.event }

/-- What the run's log has of a delivery. -/
def Delivery.entry (lib : Library) (d : Delivery) : RunKey × String := (d.run, deliveryKey lib d.id)

/-- What a projection in flight relies on: it knows the event and the run of the task, and the
delivery of the event is still to do or was done. -/
structure Projection.Sound (lib : Library) (db : Db AgentTables) (p : Projection) : Prop where
  key : p.record.key = p.key.task
  scope : p.ctx.scope = p.record.scope
  task : ∃ row ∈ db.domain.tasks,
    row.key = p.record.key ∧ row.workflowRunId = p.record.workflowRunId
  event : ∃ row ∈ db.domain.events, row.key = p.key ∧ row.payload = p.stored
  plain : ∀ todo, p.phase = .running todo → ∀ st ∈ todo, st.Plain
  delivered : ∀ todo, p.phase = .running todo → ∀ run, p.record.run? = some run →
    p.deliver ∈ todo ∨ (run, deliveryKey lib p.delivery) ∈ db.deliveries

/-- What the mark of an event says: its delivery is in the run of its task, and its domain event was
appended unless it is ignored. -/
structure Settled (lib : Library) (s : Sys) (row : AgentEventRow) : Prop where
  delivered : ∃ task ∈ s.db.domain.tasks, task.key = row.taskKey ∧ ∀ run, task.run? = some run →
    (run, deliveryKey lib row.delivery) ∈ s.db.deliveries
  published : row.payload.event ≠ "task.terminal_ignored" →
    ∃ event, (row.key, event) ∈ s.published ∧ event.payload = row.payload.modelDump

structure Inv (lib : Library) (s : Sys) : Prop where
  linked : ∀ row ∈ s.db.domain.tasks, row.workflowRunId = none ∨ Tied s.db row
  ledger : s.db.deliveries = s.delivered.map (Delivery.entry lib)
  stored : s.db.deliveries.Nodup
  owned : ∀ d ∈ s.delivered, ∃ row ∈ s.db.domain.tasks,
    row.key = ⟨d.scope, d.id.taskId⟩ ∧ row.run? = some d.run
  published : (s.published.map Prod.fst).Nodup
  marked : ∀ key ∈ s.published.map Prod.fst, ∃ row ∈ s.db.domain.events,
    row.key = key ∧ row.projectedAt ≠ none
  settled : ∀ row ∈ s.db.domain.events, row.projectedAt ≠ none → Settled lib s row
  projections : ∀ id p, s.projections id = some p → p.Sound lib s.db
  creations : ∀ id call, s.creations id = some call → call.Sound s.db

theorem Inv.start (tables : LegacyTables) : Inv lib (Sys.start tables) where
  linked row hrow := .inl (tables.unlinked row hrow)
  ledger := rfl
  stored := nodup_nil
  owned d hd := absurd hd not_mem_nil
  published := nodup_nil
  marked key hkey := absurd hkey not_mem_nil
  settled row hrow := absurd hrow not_mem_nil
  projections _ _ h := by cases h
  creations _ _ h := by cases h

variable {p : Projection}

theorem Projection.Sound.onward (h : Onward db db') (hp : p.Sound lib db) : p.Sound lib db' where
  __ := hp
  task := by
    rcases hp.task with ⟨row, hrow, hkey, hlink⟩
    rcases h.tasks row hrow with ⟨row', hrow', hkey', hlink'⟩
    exact ⟨row', hrow', hkey'.trans hkey, hlink'.trans hlink⟩
  event := by
    rcases hp.event with ⟨row, hrow, hkey, hpayload⟩
    rcases h.events row hrow with ⟨row', hrow', hkey', hpayload', -⟩
    exact ⟨row', hrow', hkey'.trans hkey, hpayload'.trans hpayload⟩
  delivered todo hphase run hrun := (hp.delivered todo hphase run hrun).imp_right fun hmem =>
    h.deliveries hmem

/-- An event stays settled. -/
theorem Settled.onward {s' : Sys} (h : Onward s.db s'.db) (hpublished : s.published ⊆ s'.published)
    {row : AgentEventRow} (hrow : Settled lib s row) :
    Settled lib s' row where
  delivered := by
    rcases hrow.delivered with ⟨task, htask, hkey, hdelivered⟩
    rcases h.tasks task htask with ⟨task', htask', hkey', hlink⟩
    refine ⟨task', htask', hkey'.trans hkey, fun run hrun => h.deliveries (hdelivered run ?_)⟩
    rwa [← run?_congr hkey' hlink]
  published hignored := by
    rcases hrow.published hignored with ⟨event, hevent, hpayload⟩
    exact ⟨event, hpublished hevent, hpayload⟩

theorem owned_onward (h : Onward db db') {d : Delivery}
    (hd : ∃ row ∈ db.domain.tasks, row.key = ⟨d.scope, d.id.taskId⟩ ∧ row.run? = some d.run) :
    ∃ row ∈ db'.domain.tasks, row.key = ⟨d.scope, d.id.taskId⟩ ∧ row.run? = some d.run := by
  rcases hd with ⟨row, hrow, hkey, hrun⟩
  rcases h.tasks row hrow with ⟨row', hrow', hkey', hlink⟩
  exact ⟨row', hrow', hkey'.trans hkey, (run?_congr hkey' hlink).trans hrun⟩

theorem marked_onward (h : Onward db db')
    (hkey : ∃ row ∈ db.domain.events, row.key = key ∧ row.projectedAt ≠ none) :
    ∃ row ∈ db'.domain.events, row.key = key ∧ row.projectedAt ≠ none := by
  rcases hkey with ⟨row, hrow, hkey, hmarked⟩
  rcases h.events row hrow with ⟨row', hrow', hkey', -, hmarked'⟩
  exact ⟨row', hrow', hkey'.trans hkey, hmarked' hmarked⟩

/-- What is left to show of a step that goes onward: the ledger, and what its new deliveries, domain
events and marks stand for. -/
theorem Inv.of_onward {s' : Sys} (hi : Inv lib s) (h : Onward s.db s'.db)
    (hprojections : s'.projections = s.projections) (hcreations : s'.creations = s.creations)
    (hledger : s'.db.deliveries = s'.delivered.map (Delivery.entry lib))
    (hstored : s'.db.deliveries.Nodup)
    (howned : ∀ d ∈ s'.delivered, d ∈ s.delivered ∨ ∃ row ∈ s.db.domain.tasks,
      row.key = ⟨d.scope, d.id.taskId⟩ ∧ row.run? = some d.run)
    (hpublished : s.published ⊆ s'.published) (hnodup : (s'.published.map Prod.fst).Nodup)
    (hmarked : ∀ key ∈ s'.published.map Prod.fst, key ∈ s.published.map Prod.fst ∨
      ∃ row ∈ s'.db.domain.events, row.key = key ∧ row.projectedAt ≠ none)
    (hsettled : ∀ row ∈ s'.db.domain.events, row.projectedAt ≠ none →
      row ∈ s.db.domain.events ∨ Settled lib s' row) : Inv lib s' where
  linked row' hrow' := by
    rcases h.known row' hrow' with ⟨row, hrow, hkey, hlink⟩ | htied
    · rcases hi.linked row hrow with hnone | htied
      · exact .inl (hlink.symm.trans hnone)
      · exact .inr ((htied.stay h.runs).congr hkey.symm hlink.symm)
    · exact .inr htied
  ledger := hledger
  stored := hstored
  owned d hd := by
    rcases howned d hd with hold | hnew
    · exact owned_onward h (hi.owned d hold)
    · exact owned_onward h hnew
  published := hnodup
  marked key hkey := by
    rcases hmarked key hkey with hold | hnew
    · exact marked_onward h (hi.marked key hold)
    · exact hnew
  settled row hrow hprojected := by
    rcases hsettled row hrow hprojected with hold | hnew
    · exact (hi.settled row hold hprojected).onward h hpublished
    · exact hnew
  projections id p hp := (hi.projections id p (by rwa [← hprojections])).onward h
  creations id call hcall :=
    (hi.creations id call (by rwa [← hcreations])).stay h.runs h.known

/-! ## The steps -/

theorem Inv.still (hi : Inv lib s) (h : Still s.db db) : Inv lib { s with db := db } := by
  refine hi.of_onward h.onward rfl rfl ?_ ?_ (fun d hd => .inl hd) (List.Subset.refl _) hi.published
    (fun key hkey => .inl hkey) fun row hrow hprojected => .inl ?_
  · exact h.deliveries.trans hi.ledger
  · rw [h.deliveries]
    exact hi.stored
  -- a new event is not marked
  rcases h.events with ⟨new, hnew, hfresh⟩
  rw [Table.mem_def, hnew] at hrow
  rcases mem_append.1 hrow with hold | hrow
  · exact hold
  · exact absurd (hfresh row hrow) hprojected

theorem Inv.setProjection (hi : Inv lib s) (id : Nat) {p : Option Projection}
    (hp : ∀ q, p = some q → q.Sound lib s.db) : Inv lib (s.setProjection id p) where
  __ := hi
  settled row hrow hprojected := ⟨(hi.settled row hrow hprojected).delivered,
    (hi.settled row hrow hprojected).published⟩
  projections i q hq := by
    simp only [Sys.setProjection, Function.update_apply] at hq
    split at hq
    · exact hp q hq
    · exact hi.projections i q hq

theorem Inv.setCreation (hi : Inv lib s) (id : Nat) {c : Option Creation}
    (hc : ∀ call, c = some call → call.Sound s.db) : Inv lib (s.setCreation id c) where
  __ := hi
  settled row hrow hprojected := ⟨(hi.settled row hrow hprojected).delivered,
    (hi.settled row hrow hprojected).published⟩
  creations i call hcall := by
    simp only [Sys.setCreation, Function.update_apply] at hcall
    split at hcall
    · exact hc call hcall
    · exact hi.creations i call hcall

/-- The numbers of the next calls are free. -/
theorem Inv.renumber (hi : Inv lib s) (nextProjection nextCreation : Nat) :
    Inv lib { s with nextProjection := nextProjection, nextCreation := nextCreation } where
  __ := hi
  settled row hrow hprojected := ⟨(hi.settled row hrow hprojected).delivered,
    (hi.settled row hrow hprojected).published⟩

/-- A statement of a projection. -/
theorem Inv.leaves (hi : Inv lib s) (hp : p.Sound lib s.db) (h : p.Leaves lib s.db r) :
    Inv lib { s with db := r.db, delivered := s.delivered ++ p.deliveryOf r.appended } := by
  have hsettled : ∀ row ∈ r.db.domain.events, row.projectedAt ≠ none → row ∈ s.db.domain.events := by
    intro row hrow _
    rwa [h.domain] at hrow
  cases happended : r.appended with
  | none =>
    have hsame := h.silent happended
    have hnone : p.deliveryOf none = [] := rfl
    rw [hnone, append_nil]
    refine hi.of_onward h.onward rfl rfl (hsame.trans hi.ledger) ?_ (fun d hd => .inl hd)
      (List.Subset.refl _) hi.published (fun key hkey => .inl hkey) fun row hrow hprojected =>
        .inl (hsettled row hrow hprojected)
    rw [hsame]
    exact hi.stored
  | some id =>
    rcases h.appended id happended with ⟨hid, run, hrun, hfresh, hdeliveries⟩
    have hdelivery : p.deliveryOf (some id) = [⟨p.record.scope, id, run⟩] := by
      simp only [deliveryOf, hrun]
    rw [hdelivery]
    refine hi.of_onward h.onward rfl rfl ?_ ?_ (fun d hd => ?_) (List.Subset.refl _) hi.published
      (fun key hkey => .inl hkey) fun row hrow hprojected => .inl (hsettled row hrow hprojected)
    · rw [hdeliveries, hi.ledger, map_append]
      rfl
    · rw [hdeliveries]
      refine nodup_append.2 ⟨hi.stored, by simp, fun entry hentry _ hnew => ?_⟩
      rw [mem_singleton.1 hnew]
      intro hsame
      exact hfresh (hsame ▸ hentry)
    rcases mem_append.1 hd with hd | hd
    · exact .inl hd
    rw [mem_singleton.1 hd]
    rcases hp.task with ⟨row, hrow, hkey, hlink⟩
    refine .inr ⟨row, hrow, ?_, (run?_congr hkey hlink).trans hrun⟩
    rw [hkey, hid]
    rfl

/-- Of one key there is one logged event. -/
theorem event_unique {row row' : AgentEventRow} (h : row ∈ db.domain.events)
    (h' : row' ∈ db.domain.events) (hkey : row.key = row'.key) :
    row = row' := Table.eq_of_conflict h h' (.inl hkey)

theorem Attempt.domainEvents_cases (a : Attempt) (ctx : Context) :
    (a.stored.event = "task.terminal_ignored" ∧ a.domainEvents ctx = []) ∨
      ∃ event, a.domainEvents ctx = [event] ∧ event.payload = a.stored.modelDump := by
  by_cases h : a.stored.event = "task.terminal_ignored"
  · exact .inl ⟨h, if_neg (not_not.2 h)⟩
  · exact .inr ⟨_, if_pos h, rfl⟩

/-- The acknowledgement of a projection. -/
theorem Inv.marks (hi : Inv lib s) (hp : p.Sound lib s.db) (hphase : p.phase = .running [])
    (h : p.Marks ctx.now s.db db) :
    Inv lib { s with
      db := db
      published := s.published ++ (p.domainEvents ctx).map fun event => (p.key, event) } := by
  rcases h.row with ⟨row, hrow, hkey, hunmarked, hmem⟩
  -- no domain event was appended for this event, since its row was not marked
  have hfresh : p.key ∉ s.published.map Prod.fst := by
    intro hpublished
    rcases hi.marked _ hpublished with ⟨other, hother, hsame, hmarked⟩
    rw [event_unique hother hrow (hsame.trans hkey.symm)] at hmarked
    exact hmarked hunmarked
  have hpayload : row.payload = p.stored := by
    rcases hp.event with ⟨other, hother, hsame, hpayload⟩
    rwa [event_unique hother hrow (hsame.trans hkey.symm)] at hpayload
  have htaskKey : row.taskKey = p.record.key := (congrArg EventKey.task hkey).trans hp.key.symm
  have hdelivery : row.delivery = p.delivery := by
    have hseq : row.seq = p.key.seq := congrArg EventKey.seq hkey
    have htask : row.taskId = p.record.taskId := congrArg TaskKey.taskId htaskKey
    simp only [AgentEventRow.delivery, delivery, hseq, htask, hpayload]
  refine hi.of_onward h.onward rfl rfl (h.deliveries.trans hi.ledger) ?_ (fun d hd => .inl hd)
    (subset_append_left _ _) ?_ ?_ ?_
  · rw [h.deliveries]
    exact hi.stored
  · rcases p.domainEvents_cases ctx with ⟨-, hnone⟩ | ⟨event, hone, -⟩
    · simpa [hnone] using hi.published
    rw [hone, map_append]
    refine nodup_append.2 ⟨hi.published, by simp, fun key hkey' _ hnew => ?_⟩
    rw [mem_singleton.1 hnew]
    intro hsame
    refine hfresh ?_
    rwa [show key = p.key from hsame] at hkey'
  · intro key hkey'
    rw [map_append] at hkey'
    rcases mem_append.1 hkey' with hold | hnew
    · exact .inl hold
    rw [map_map] at hnew
    rcases mem_map.1 hnew with ⟨event, -, rfl⟩
    exact .inr ⟨_, (hmem _).2 (.inl rfl), hkey, Option.some_ne_none _⟩
  intro row' hrow' hprojected
  rcases (hmem row').1 hrow' with rfl | ⟨hold, -⟩
  · refine .inr ⟨?_, fun hignored => ?_⟩
    · rcases hp.task with ⟨task, htask, htk, hlink⟩
      refine ⟨task, ?_, htk.trans htaskKey.symm, fun run hrun => ?_⟩
      · rwa [h.tasks]
      rw [run?_congr htk hlink] at hrun
      show (run, deliveryKey lib row.delivery) ∈ db.deliveries
      rw [h.deliveries, hdelivery]
      rcases hp.delivered [] hphase run hrun with htodo | hdone
      · exact absurd htodo not_mem_nil
      · exact hdone
    · rcases p.domainEvents_cases ctx with ⟨hevent, -⟩ | ⟨event, hone, hdump⟩
      · exact absurd ((congrArg EchoTaskEvent.event hpayload).trans hevent) hignored
      refine ⟨event, mem_append_right _ ?_, ?_⟩
      · rw [hone]
        exact mem_singleton.2 (congrArg (·, event) hkey)
      · rw [hdump, ← hpayload]
  · exact .inl hold

/-- The run of a linked task is stored. -/
theorem Inv.findRun (hi : Inv lib s) (hp : p.Sound lib s.db) {run : RunKey}
    (hrun : p.record.run? = some run) : s.db.findRun run ≠ none := by
  rcases hp.task with ⟨row, hrow, hkey, hlink⟩
  have hrow' : row.run? = some run := (run?_congr hkey hlink).trans hrun
  rcases hi.linked row hrow with hnone | htied
  · rw [AgentTaskRow.run?, hnone] at hrow'
    cases hrow'
  · exact htied.findRun hrow'

/-- A projection that goes on after a statement knows what it knew, and that the delivery of its
event is done if this statement was it. -/
theorem Inv.exec_sound (hi : Inv lib s) (hp : p.Sound lib s.db) {st : Statement}
    {rest : List Statement} (hphase : p.phase = .running (st :: rest))
    (hscope : ctx.scope = p.record.scope) (reply : Reply) :
    Projection.Sound lib (p.exec lib ctx reply s.db st).db
      { p with phase := phaseAfter (p.exec lib ctx reply s.db st).next rest } := by
  have hplain := hp.plain _ hphase
  have honward : Onward s.db (p.exec lib ctx reply s.db st).db :=
    (exec_leaves hscope reply s.db (hplain st mem_cons_self)).onward
  have hsound := hp.onward honward
  refine ⟨hsound.key, hsound.scope, hsound.task, hsound.event, fun todo htodo => ?_,
    fun todo htodo run hrun => ?_⟩
  · rcases hnext : (p.exec lib ctx reply s.db st).next with e | next
    · simp [hnext, phaseAfter] at htodo
    simp only [hnext, phaseAfter, Phase.running.injEq] at htodo
    subst htodo
    intro st' hst'
    rcases mem_append.1 hst' with hst' | hst'
    · exact exec_plain hnext st' hst'
    · exact hplain st' (mem_cons_of_mem st hst')
  rcases hnext : (p.exec lib ctx reply s.db st).next with e | next
  · simp [hnext, phaseAfter] at htodo
  simp only [hnext, phaseAfter, Phase.running.injEq] at htodo
  subst htodo
  rcases hp.delivered _ hphase run hrun with hmem | hdone
  · rcases mem_cons.1 hmem with hthis | hrest
    · -- this statement is the delivery of the event, and it did not raise
      refine .inr ?_
      subst hthis
      rcases Executed.ofDelivery_next hnext with ⟨-, b, hok⟩
      exact (recordWorkflowEventOnce_delivering hscope _ _ _ _).delivered (Prod.ext hok rfl) hrun
        (hi.findRun hp hrun)
    · exact .inl (mem_append_right _ hrest)
  · exact .inr (honward.deliveries hdone)

/-- The end of a transaction that changes leases alone. -/
theorem keepsFrom_setLeases {α : Type} {leases : Leases Timestamp} {a : α} : KeepsFrom Still db (do
      set { db with leases := leases }
      return .commit a : AgentTx (Exit α)) :=
  keepsFrom_bind (keepsFrom_set (.of_quiet (Quiet.of_tables rfl rfl rfl))) fun _ _ _ =>
    keepsFrom_pure _ _

theorem keeps_acquireLease (ctx : Context) (key : LeaseKey) (holderId : String) (ttlSeconds : Nat) :
    Keeps Still (acquireLease ctx key holderId ttlSeconds) := by
  refine fun db => keepsFrom_get_bind ?_
  split
  · exact keepsFrom_throw _ _
  · exact keepsFrom_setLeases

theorem keeps_renewRunLease (ctx : Context) (lease : LeaseToken Timestamp) (ttlSeconds : Nat) :
    Keeps Still (renewRunLease ctx lease ttlSeconds) := by
  refine fun db => keepsFrom_get_bind ?_
  split
  · exact keepsFrom_throw _ _
  · exact keepsFrom_setLeases

theorem keeps_releaseRunLease (ctx : Context) (lease : LeaseToken Timestamp) :
    Keeps Still (releaseRunLease ctx lease) := by
  refine fun db => keepsFrom_get_bind ?_
  split
  · exact keepsFrom_throw _ _
  · exact keepsFrom_setLeases

theorem Inv.transact {α : Type} (hi : Inv lib s) {body : AgentTx (Exit α)} (h : Keeps Still body) :
    Inv lib (s.transact body) :=
  hi.still (keeps_atomically h s.db)

theorem Inv.advance (hi : Inv lib s) {id : Nat} (hp : p.Sound lib s.db)
    (hscope : ctx.scope = p.ctx.scope) (reply : Reply) :
    Inv lib (s.advance lib id p ctx reply) := by
  -- a worker in its `finally` block has nothing left to deliver
  have hreleasing : ∀ {db}, Onward s.db db → Projection.Sound lib db { p with phase := .releasing } := by
    intro db honward
    have hsound := hp.onward honward
    exact ⟨hsound.key, hsound.scope, hsound.task, hsound.event, by simp, by simp⟩
  unfold Sys.advance
  split
  · rename_i st rest hphase
    have hleaves : p.Leaves lib s.db (p.exec lib ctx reply s.db st) :=
      Attempt.exec_leaves (hscope.trans hp.scope) reply s.db (hp.plain _ hphase st mem_cons_self)
    refine Inv.setProjection (hi.leaves hp hleaves) id fun q hq => ?_
    cases hq
    exact hi.exec_sound hp hphase (hscope.trans hp.scope) reply
  · rename_i hphase
    split
    · rename_i events db hack
      rcases atomically_ok hack with hret | ⟨⟨_, hret⟩, -⟩
      · rcases acknowledge_returns hret with ⟨hexit, hmarks⟩
        cases hexit
        refine Inv.setProjection (hi.marks hp hphase hmarks) id fun q hq => ?_
        cases hq
        exact hreleasing hmarks.onward
      · cases (acknowledge_returns hret).1
    rename_i e db hack
    have hsame : db = s.db := by
      have := atomically_error (congrArg Prod.fst hack)
      rwa [hack] at this
    subst hsame
    refine Inv.setProjection hi id fun q hq => ?_
    cases hq
    exact hreleasing (Still.refl s.db).onward
  · exact (hi.transact (keeps_releaseRunLease ctx p.lease)).setProjection id (by simp)

/-- A projection that was just claimed. -/
theorem Claimed.sound (hscope : ctx.scope = key.task.scope) {lease : LeaseToken Timestamp}
    {stored : EchoTaskEvent} {rec : AgentTaskRow} (h : Claimed db key stored rec) :
    let a : Attempt := { ctx := ctx, key := key, lease := lease, stored := stored, record := rec }
    Projection.Sound lib db { a with phase := .running a.program } where
  __ := h
  scope := hscope.trans (congrArg TaskKey.scope h.key).symm
  task := ⟨rec, h.task, rfl, rfl⟩
  plain todo htodo := by
    cases htodo
    exact program_plain _
  delivered todo htodo run hrun := by
    cases htodo
    exact .inl (deliver_mem_program hrun)

theorem Inv.claim (hi : Inv lib s) {holderId : String} {ttlSeconds : Nat}
    {taskLease : Option (LeaseToken Timestamp)} (hscope : ctx.scope = key.task.scope) :
    Inv lib (s.claim lib ctx holderId ttlSeconds taskLease key) := by
  have hstill : Still s.db
      (atomically (claimEventProjection lib ctx holderId ttlSeconds taskLease key) s.db).2 := by
    refine keepsFrom_atomically fun exit db hret => ?_
    rcases (claimEventProjection_returns hret).1 with ⟨leases, rfl⟩
    exact .of_quiet (Quiet.of_tables rfl rfl rfl)
  unfold Sys.claim
  split
  · rename_i lease stored rec db hclaim
    rw [hclaim] at hstill
    have hclaimed : Claimed s.db key stored rec := by
      rcases atomically_ok hclaim with hret | ⟨⟨_, hret⟩, -⟩
      · exact (claimEventProjection_returns hret).2 lease stored rec rfl
      · exact (claimEventProjection_returns hret).2 lease stored rec rfl
    refine ((hi.still hstill).setProjection s.nextProjection fun q hq => ?_).renumber _ _
    cases hq
    exact (hclaimed.sound hscope).onward hstill.onward
  · rename_i result db _ hclaim
    rw [hclaim] at hstill
    exact hi.still hstill

theorem step_inv (settings : Settings) (s : Sys) (l : Lbl) (hi : Inv lib s) :
    Inv lib (step lib settings s l) := by
  cases l with
  | claim ctx holderId ttlSeconds taskLease taskId seq => exact hi.claim rfl
  | advance id now leaseNow reply =>
    simp only [step]
    split
    · exact hi
    · rename_i p hp
      exact hi.advance (hi.projections id p hp) (by rfl) reply
  | crash id => exact hi.setProjection id (by simp)
  | record ctx args event =>
    exact hi.still (.of_quiet (keeps_atomically keeps_recordTaskEvent s.db))
  | create call =>
    refine (hi.setCreation s.nextCreation fun c hc => ?_).renumber _ _
    cases hc
    exact ⟨by simp, by simp⟩
  | advanceCreation id =>
    simp only [step]
    split
    · exact hi
    rename_i call hcall
    rcases Creation.advance_still lib settings (hi.creations id call hcall) with ⟨hstill, hnext⟩
    exact (hi.still hstill).setCreation id hnext
  | dropCreation id => exact hi.setCreation id (by simp)
  | updateTask update =>
    refine hi.still (.of_quiet (keeps_atomically (keeps_bind ?_ fun _ => keeps_pure _) s.db))
    exact keeps_updateTask update.keeps
  | updateCommands selected assign =>
    refine hi.still (.of_quiet (keeps_atomically (keeps_bind ?_ fun _ => keeps_pure _) s.db))
    exact keeps_updateCommands
  | workflow ctx op =>
    have hquiet : Quiet (fun t t' => t = t') s.db (op.1.exec ctx s.db).2 := Op.exec_quiet op.2 s.db
    refine hi.still (.of_quiet ⟨hquiet.deliveries, hquiet.runs, ?_⟩)
    rw [← hquiet.domain]
    exact Std.Refl.refl _
  | acquire ctx key holderId ttlSeconds =>
    exact hi.transact (keeps_acquireLease ctx key holderId ttlSeconds)
  | renew ctx lease ttlSeconds => exact hi.transact (keeps_renewRunLease ctx lease ttlSeconds)
  | release ctx lease => exact hi.transact (keeps_releaseRunLease ctx lease)
  | outbox table =>
    simp only [step]
    split
    · exact hi.still (.of_quiet (Quiet.of_tables rfl rfl rfl))
    · exact hi

theorem run_inv (settings : Settings) (tables : LegacyTables) (trace : List Lbl) :
    Inv lib (run (step lib settings) (Sys.start tables) trace) :=
  run_invariant (step_inv settings) (Inv.start tables) trace

/-! ## At most once, and what a mark says -/

/-- Two deliveries with one digest are one delivery, as far as the deliveries of the run go. -/
def CollisionFree (lib : Library) (s : Sys) (id : DeliveryId) : Prop :=
  ∀ d ∈ s.delivered, lib.sha256 d.id.material.text = lib.sha256 id.material.text →
    d.id.material.text = id.material.text

/-- What a projected event of a linked task has in its run. -/
structure InRun (lib : Library) (s : Sys) (event : AgentEventRow) (run : RunKey) : Prop where
  stored : (run, deliveryKey lib event.delivery) ∈ s.db.deliveries
  delivered : CollisionFree lib s event.delivery → ⟨event.scope, event.delivery, run⟩ ∈ s.delivered

/-- Every delivery and every domain event is appended at most once, and a mark says that they were
appended: the delivery where the task is linked to a run, the domain event where the event is not
ignored. -/
structure ProjectedOnce (lib : Library) (s : Sys) : Prop where
  deliveredOnce : (s.delivered.map fun d => (d.scope, d.id)).Nodup
  storedOnce : s.db.deliveries.Nodup
  ledger : s.db.deliveries = s.delivered.map (Delivery.entry lib)
  publishedOnce : (s.published.map Prod.fst).Nodup
  inRun : ∀ event ∈ s.db.domain.events, event.projectedAt ≠ none →
    ∃ task ∈ s.db.domain.tasks, task.key = event.taskKey ∧
      ∀ run, task.run? = some run → InRun lib s event run
  published : ∀ event ∈ s.db.domain.events, event.projectedAt ≠ none →
    event.payload.event ≠ "task.terminal_ignored" →
    ∃ echo, (event.key, echo) ∈ s.published ∧ echo.payload = event.payload.modelDump

/-- Of one task there is one row. -/
theorem task_unique (h : row ∈ db.domain.tasks) (h' : row' ∈ db.domain.tasks)
    (hkey : row.key = row'.key) : row = row' :=
  Table.eq_of_conflict h h' hkey

/-- A delivery belongs to the run of its task, so a second one would be in the same run. -/
theorem Inv.deliveredOnce (hi : Inv lib s) : (s.delivered.map fun d => (d.scope, d.id)).Nodup := by
  have hnodup := hi.stored
  rw [hi.ledger] at hnodup
  refine pairwise_map.2 ((pairwise_map.1 hnodup).imp_of_mem fun {d d'} hd hd' hne hsame => ?_)
  rcases hi.owned d hd with ⟨row, hrow, hkey, hrun⟩
  rcases hi.owned d' hd' with ⟨row', hrow', hkey', hrun'⟩
  have hscope : d.scope = d'.scope := congrArg Prod.fst hsame
  have hid : d.id = d'.id := congrArg Prod.snd hsame
  have hrows : row = row' := task_unique hrow hrow' (by rw [hkey, hkey', hscope, hid])
  subst hrows
  refine hne ?_
  rw [Delivery.entry, Delivery.entry, hid, Option.some.inj (hrun.symm.trans hrun')]

theorem run?_scope {run : RunKey} (h : row.run? = some run) : run.scope = row.scope := by
  rcases Option.map_eq_some_iff.1 h with ⟨runId, -, rfl⟩
  rfl

theorem Inv.inRun (hi : Inv lib s) {event : AgentEventRow} {task : AgentTaskRow}
    (hkey : task.key = event.taskKey) {run : RunKey} (hrun : task.run? = some run)
    (hstored : (run, deliveryKey lib event.delivery) ∈ s.db.deliveries) :
    InRun lib s event run := by
  refine ⟨hstored, fun hfree => ?_⟩
  rw [hi.ledger] at hstored
  rcases mem_map.1 hstored with ⟨d, hd, hentry⟩
  have hdrun : d.run = run := congrArg Prod.fst hentry
  have hid : d.id = event.delivery :=
    material_text_inj (hfree d hd ((String.append_right_inj _).1 (congrArg Prod.snd hentry)))
  have hscope : d.scope = event.scope := by
    rcases hi.owned d hd with ⟨row, -, hrowKey, hrowRun⟩
    calc d.scope = row.scope := (congrArg TaskKey.scope hrowKey).symm
      _ = run.scope := by rw [← run?_scope hrowRun, hdrun]
      _ = task.scope := run?_scope hrun
      _ = event.scope := congrArg TaskKey.scope hkey
  rw [← hid, ← hscope, ← hdrun]
  exact hd

/-- In every run of the system, events are projected once. -/
theorem projected_once (lib : Library) (settings : Settings) (tables : LegacyTables)
    (trace : List Lbl) : ProjectedOnce lib (run (step lib settings) (Sys.start tables) trace) := by
  have hi : Inv lib (run (step lib settings) (Sys.start tables) trace) :=
    run_inv settings tables trace
  refine ⟨hi.deliveredOnce, hi.stored, hi.ledger, hi.published, fun event hevent hmarked => ?_,
    fun event hevent hmarked => (hi.settled event hevent hmarked).published⟩
  rcases (hi.settled event hevent hmarked).delivered with ⟨task, htask, hkey, hdelivered⟩
  exact ⟨task, htask, hkey, fun run hrun => hi.inRun hkey hrun (hdelivered run hrun)⟩

/-! ## The run of a task -/

/-- A task that is linked has a run to itself, and nothing of another task is delivered there. -/
structure OwnRuns (s : Sys) : Prop where
  linked : ∀ task ∈ s.db.domain.tasks, ∀ run, task.run? = some run → ∃ row ∈ s.db.runs,
    row.key = run ∧ row.idempotencyKey = some (taskRunKey task.taskId)
  own : ∀ a ∈ s.db.domain.tasks, ∀ b ∈ s.db.domain.tasks, ∀ run,
    a.run? = some run → b.run? = some run → a = b
  delivered : ∀ d ∈ s.delivered, ∀ task ∈ s.db.domain.tasks,
    task.run? = some d.run → task.key = ⟨d.scope, d.id.taskId⟩

theorem Inv.linked_run (hi : Inv lib s) (hrow : row ∈ s.db.domain.tasks) {run : RunKey}
    (hrun : row.run? = some run) : ∃ stored ∈ s.db.runs, stored.key = run ∧
      stored.idempotencyKey = some (taskRunKey row.taskId) := by
  rcases hi.linked row hrow with hnone | htied
  · rw [AgentTaskRow.run?, hnone] at hrun
    cases hrun
  · exact htied.stored hrun

/-- Two tasks with one run have the key of that run, which is of one task. -/
theorem Inv.own_run (hi : Inv lib s) (hrow : row ∈ s.db.domain.tasks)
    (hrow' : row' ∈ s.db.domain.tasks) {run : RunKey} (hrun : row.run? = some run)
    (hrun' : row'.run? = some run) : row = row' := by
  rcases hi.linked_run hrow hrun with ⟨stored, hstored, hkey, hidem⟩
  rcases hi.linked_run hrow' hrun' with ⟨stored', hstored', hkey', hidem'⟩
  obtain rfl := eq_of_key_eq hstored hstored' (hkey.trans hkey'.symm)
  have htask : row.taskId = row'.taskId :=
    (String.append_right_inj _).1 (Option.some.inj (hidem.symm.trans hidem'))
  have hscope : row.scope = row'.scope := (run?_scope hrun).symm.trans (run?_scope hrun')
  exact task_unique hrow hrow' (by rw [AgentTaskRow.key, hscope, htask, AgentTaskRow.key])

/-- In every run of the system, whatever creations of tasks are interleaved. -/
theorem own_runs (lib : Library) (settings : Settings) (tables : LegacyTables)
    (trace : List Lbl) : OwnRuns (run (step lib settings) (Sys.start tables) trace) := by
  have hi : Inv lib (run (step lib settings) (Sys.start tables) trace) :=
    run_inv settings tables trace
  refine ⟨fun task htask run => hi.linked_run htask,
    fun a ha b hb run => hi.own_run ha hb, fun d hd task htask hrun => ?_⟩
  rcases hi.owned d hd with ⟨row, hrow, hkey, hdrun⟩
  rw [hi.own_run htask hrow hrun hdrun, hkey]

/-! ## Marks of ignored events -/

/-- The same where a mark also says that both were appended, for every event. -/
structure ProjectedWhole (lib : Library) (s : Sys) : Prop where
  deliveredOnce : (s.delivered.map fun d => (d.scope, d.id)).Nodup
  publishedOnce : (s.published.map Prod.fst).Nodup
  delivered : ∀ event ∈ s.db.domain.events, event.projectedAt ≠ none →
    ∃ run, (run, deliveryKey lib event.delivery) ∈ s.db.deliveries
  published : ∀ event ∈ s.db.domain.events, event.projectedAt ≠ none →
    event.key ∈ s.published.map Prod.fst

def desk : Context := { principal := ⟨"tenant", "device", "owner"⟩ }

def report (event state : String) : EchoTaskEvent :=
  { taskId := "tidy", event := event, state := state, ts := "" }

/-- A task succeeds, and its runner reports that it is running; the late event is projected. -/
def lateReport : List Lbl :=
  [.create
      { ctx := desk, state := .pending, newRunId := "run"
        intent := { text := "tidy", deviceId := "device", echoTaskId := "tidy", title := "Tidy" } },
    .advanceCreation 0, .advanceCreation 0, .advanceCreation 0,
    .record desk {} (report "task.succeeded" "succeeded"),
    .record desk {} (report "task.running" "running"),
    .claim desk "worker" 30 none "tidy" 2, .advance 0 0 0 .nothing, .advance 0 0 0 .nothing]

def lateState : Sys :=
  run (step ⟨id, id, fun _ => ""⟩ ⟨"model", "url"⟩)
    (Sys.start ⟨Table.empty, fun _ _ => false, fun _ hrow => absurd hrow List.not_mem_nil⟩) lateReport

/-- The late event is logged as ignored: its mark comes with a delivery, but with no domain event. -/
theorem ignored_unpublished : ¬ ∀ lib settings tables trace,
    ProjectedWhole lib (run (step lib settings) (Sys.start tables) trace) := by
  intro h
  have hwhole : ProjectedWhole ⟨id, id, fun _ => ""⟩ lateState := h _ _ _ lateReport
  have hlate : (lateState.db.domain.events.rows.any fun event => event.projectedAt ≠ none ∧
      event.key ∉ lateState.published.map Prod.fst) = true := by
    decide +kernel
  rcases List.any_eq_true.1 hlate with ⟨event, hevent, hmarked⟩
  rcases of_decide_eq_true hmarked with ⟨hprojected, hmissing⟩
  exact hmissing (hwhole.published event hevent hprojected)

/-- A task from before the workflow runs. -/
def unlinkedTables : LegacyTables where
  tasks := ⟨[{ taskId := "old", scope := desk.principal.scope, deviceId := "device", title := "Old"
               intentText := "old", state := "running", submittedAt := 0 }],
    List.pairwise_singleton _ _⟩
  meetings _ _ := false
  unlinked _ hrow := List.mem_singleton.1 hrow ▸ rfl

/-- It succeeds, and the event is projected. -/
def unlinkedState : Sys :=
  run (step ⟨id, id, fun _ => ""⟩ ⟨"model", "url"⟩) (Sys.start unlinkedTables)
    [.record desk {} { report "task.succeeded" "succeeded" with taskId := "old" },
      .claim desk "worker" 30 none "old" 1, .advance 0 0 0 .nothing]

/-- There is no run to deliver to: the mark comes with a domain event, but with no delivery. -/
theorem unlinked_undelivered : ¬ ProjectedWhole ⟨id, id, fun _ => ""⟩ unlinkedState := by
  intro hwhole
  have hmarked : (unlinkedState.db.domain.events.rows.any fun event => event.projectedAt ≠ none) =
      true := by decide +kernel
  have hnone : unlinkedState.db.deliveries = [] := by decide +kernel
  rcases any_eq_true.1 hmarked with ⟨event, hevent, hprojected⟩
  rcases hwhole.delivered event hevent (of_decide_eq_true hprojected) with ⟨_, hdelivered⟩
  rw [hnone] at hdelivered
  exact absurd hdelivered not_mem_nil

end Agents
