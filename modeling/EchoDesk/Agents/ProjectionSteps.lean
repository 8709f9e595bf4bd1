import EchoDesk.Agents.Links
import EchoDesk.Agents.Projection

/-! # What a projection does to the database

A claim changes leases alone. A statement leaves the tables of the agent service as they are, and
appends at most one delivery: one of its attempt, to the run of the task, which did not have it. The
acknowledgement marks exactly the row it is about, and only if no one did so before.
-/

namespace Agents

open EchoDesk Workflow Transaction Runtime Outbox List Option Executed

variable {lib : Library}
variable {ctx : Context} {a : Attempt}
variable {next : List Statement} {id : DeliveryId} {body : AgentTx (Exit Bool)} {row : AgentTaskRow}
  {holderId : String} {exit : Exit Claim} {ttlSeconds : Nat} {st : Statement} {key : EventKey}
  {run : RunKey}

/-! ## Deliveries -/

/-- A transaction whose only effect on the deliveries is the delivery of `id`, and none without a
linked run. -/
def Delivering (lib : Library) (a : Attempt) (id : DeliveryId) (body : AgentTx (Exit Bool)) : Prop :=
  ∀ db exit db', Returns body db exit db' → (a.record.run? = none ∧ exit = .abandon false) ∨
    ∃ run inserted, a.record.run? = some run ∧ exit = .commit inserted ∧
      Delivers run (deliveryKey lib id) db inserted db'

variable {db db' : Db AgentTables}

theorem assertLeaseOf_returns {token : LeaseToken Timestamp} {key : LeaseKey} {mismatch : String}
    {u : Unit} (h : Returns (assertLeaseOf ctx token key mismatch) db u db') : db' = db := by
  unfold assertLeaseOf at h
  obtain ⟨_, h⟩ := returns_guard.1 h
  replace h := returns_get_bind.1 h
  split at h
  · exact (returns_pure.1 h).2.symm
  · exact (returns_throw.1 h).elim

/-- The linked run, from the link and the scope of the caller. -/
theorem run?_of_link (hscope : ctx.scope = row.scope) {runId : String}
    (hlink : truthy row.workflowRunId = some runId) : row.run? = some ⟨ctx.scope, runId⟩ := by
  rw [AgentTaskRow.run?, hlink, hscope]
  rfl

theorem run?_of_no_link (hlink : truthy row.workflowRunId = none) : row.run? = none := by
  rw [AgentTaskRow.run?, hlink]
  rfl

section

variable {ctx : Context} {a : Attempt} (hscope : ctx.scope = a.record.scope)

include hscope

theorem recordWorkflowEventOnce_delivering (id : DeliveryId) (message : Option String)
    (payload : Dict) (visibility : WorkflowVisibility) :
    Delivering lib a id (recordWorkflowEventOnce lib ctx a id message payload visibility) := by
  intro db exit db' h
  unfold recordWorkflowEventOnce at h
  split at h
  · rename_i hlink
    exact .inl ⟨run?_of_no_link hlink, (returns_pure.1 h).1.symm⟩
  rename_i runId hlink
  simp only [returns_bind, returns_pure] at h
  rcases h with ⟨_, db₁, hlease, inserted, _, hrecord, rfl, rfl⟩
  rw [assertLeaseOf_returns hlease] at hrecord
  exact .inr ⟨_, inserted, run?_of_link hscope hlink, rfl, recordAgentDeliveryOnce_delivers hrecord⟩

theorem mergeWorkflowOutputOnce_delivering (id : DeliveryId) (patch : Dict) (message : String) :
    Delivering lib a id (mergeWorkflowOutputOnce lib ctx a id patch message) := by
  intro db exit db' h
  unfold mergeWorkflowOutputOnce at h
  split at h
  · rename_i hlink
    exact .inl ⟨run?_of_no_link hlink, (returns_pure.1 h).1.symm⟩
  rename_i runId hlink
  simp only [returns_bind, returns_pure] at h
  rcases h with ⟨_, db₁, hlease, inserted, _, hmerge, rfl, rfl⟩
  rw [assertLeaseOf_returns hlease] at hmerge
  exact .inr ⟨_, inserted, run?_of_link hscope hlink, rfl, mergeAgentOutputOnce_delivers hmerge⟩

theorem registerArtifact_delivering (id : DeliveryId) (meetingId : Option String)
    (item : ArtifactItem) (artifact : Dict) (reply : Reply) :
    Delivering lib a id (registerArtifact lib ctx a id meetingId item artifact reply) := by
  intro db exit db' h
  unfold registerArtifact at h
  split at h
  · rename_i runId linkId link hlink
    simp only [returns_bind, returns_pure] at h
    rcases h with ⟨_, db₁, hlease, imported, db₂, hrecord, _, db₃, houtbox, rfl, rfl⟩
    rw [assertLeaseOf_returns hlease] at hrecord
    refine .inr ⟨_, imported, run?_of_link hscope hlink, rfl, ?_⟩
    have hdelivers := recordAgentDeliveryOnce_delivers hrecord
    rw [appendDomainOutboxTx_rows houtbox]
    cases imported with
    | true =>
      exact ⟨hdelivers.domain, hdelivers.runs, hdelivers.appended, fun h => Bool.noConfusion h⟩
    | false =>
      -- without a delivery there is no domain event
      exact hdelivers
  · rcases returns_bind.1 h with ⟨_, _, _, hthrow⟩
    exact (returns_throw.1 hthrow).elim

end

/-! ## Statements -/

/-- A statement whose payload has no delivery key of its own. -/
def Statement.Plain : Statement → Prop
  | .setState call => deliveryKeyOf call.change.payload = none
  | _ => True

/-- What a statement leaves behind: the tables as they were, and at most one delivery more, of the
task, in its run. -/
structure Attempt.Leaves (lib : Library) (a : Attempt) (db : Db AgentTables) (r : Executed) : Prop where
  domain : r.db.domain = db.domain
  runs : RunsStay db r.db
  silent : r.appended = none → r.db.deliveries = db.deliveries
  appended : ∀ id, r.appended = some id → id.taskId = a.record.taskId ∧
    ∃ run, a.record.run? = some run ∧ (run, deliveryKey lib id) ∉ db.deliveries ∧
      r.db.deliveries = db.deliveries ++ [(run, deliveryKey lib id)]

/-- A statement that changes no database. -/
theorem Attempt.leaves_same {r : Executed} (hdb : r.db = db) (hnone : r.appended = none) :
    a.Leaves lib db r where
  domain := by rw [hdb]
  runs row hrow := ⟨row, by rwa [hdb], rfl, rfl⟩
  silent _ := by rw [hdb]
  appended id hid := by
    rw [hnone] at hid
    cases hid

theorem Delivering.leaves (h : Delivering lib a id body) (hid : id.taskId = a.record.taskId)
    (db : Db AgentTables) : a.Leaves lib db (.ofDelivery id (atomically body db)) := by
  rcases hresult : atomically body db with ⟨result, db'⟩
  cases result with
  | error e =>
    refine Attempt.leaves_same ?_ rfl
    have hsame := atomically_error (congrArg Prod.fst hresult)
    rwa [hresult] at hsame
  | ok b =>
    rcases atomically_ok hresult with hret | ⟨⟨db₁, hret⟩, rfl⟩
    · rcases h db _ db' hret with ⟨-, hexit⟩ | ⟨run, inserted, hrun, hexit, hdelivers⟩
      · cases hexit
      cases hexit
      cases b with
      | true =>
        rcases hdelivers.appended rfl with ⟨hfresh, happended⟩
        refine ⟨hdelivers.domain, hdelivers.runs, nofun, fun id' hid' => ?_⟩
        cases hid'
        exact ⟨hid, run, hrun, hfresh, happended⟩
      | false => exact Attempt.leaves_same (hdelivers.refused rfl).1 rfl
    · rcases h _ _ _ hret with ⟨-, hexit⟩ | ⟨run, inserted, -, hexit, -⟩
      · cases hexit
        exact Attempt.leaves_same rfl rfl
      · cases hexit

/-- A delivery that did not raise is in the run it was made to, if there is one. -/
theorem Delivering.delivered (h : Delivering lib a id body) {b : Bool}
    (hok : atomically body db = (.ok b, db')) (hrun : a.record.run? = some run)
    (hfound : db.findRun run ≠ none) : (run, deliveryKey lib id) ∈ db'.deliveries := by
  rcases atomically_ok hok with hret | ⟨⟨db₁, hret⟩, -⟩
  · rcases h db _ db' hret with ⟨hnone, -⟩ | ⟨run', inserted, hrun', -, hdelivers⟩
    · rw [hrun] at hnone
      cases hnone
    rw [hrun] at hrun'
    cases hrun'
    cases inserted with
    | true =>
      rw [(hdelivers.appended rfl).2]
      exact mem_append_right _ (mem_singleton.2 rfl)
    | false =>
      rcases hdelivers.refused rfl with ⟨rfl, hmem | hmissing⟩
      · exact hmem
      · exact absurd hmissing hfound
  · rcases h _ _ _ hret with ⟨hnone, -⟩ | ⟨_, _, -, hexit, -⟩
    · rw [hrun] at hnone
      cases hnone
    · cases hexit

/-- A transaction that appends no delivery. -/
theorem Attempt.leaves_tx {α : Type} {body : AgentTx (Exit α)}
    (h : Keeps (Quiet fun t t' => t = t') body) : a.Leaves lib db (.ofTx (atomically body db)) := by
  have hquiet := keepsFrom_atomically (h db)
  exact ⟨hquiet.domain.symm, hquiet.runs, fun _ => hquiet.deliveries, fun id hid => by cases hid⟩

/-- What each statement leaves behind. -/
theorem Attempt.exec_leaves (hscope : ctx.scope = a.record.scope) (reply : Reply)
    (db : Db AgentTables) (hplain : st.Plain) : a.Leaves lib db (a.exec lib ctx reply db st) := by
  cases st with
  | readBeforeStart => exact leaves_same rfl rfl
  | assertOwned =>
    exact leaves_tx (keeps_bind keeps_assertLeaseOf fun _ => keeps_pure _)
  | setState call =>
    simp only [exec]
    split
    · exact leaves_same rfl rfl
    · exact leaves_tx (keeps_setState hplain (by simp))
  | record eventType subject message payload visibility =>
    exact (recordWorkflowEventOnce_delivering hscope _ message payload visibility).leaves rfl db
  | importArtifacts =>
    simp only [exec]
    split <;> exact leaves_same rfl rfl
  | importArtifact meetingId item => exact leaves_same rfl rfl
  | download meetingId item =>
    simp only [exec]
    split <;> exact leaves_same rfl rfl
  | register meetingId item artifact =>
    have hdelivering : Delivering lib a
        (a.idOf "agent.artifact_imported" [("artifact_id", item.artifactId)])
        (registerArtifact lib ctx a _ meetingId item artifact reply) :=
      registerArtifact_delivering hscope _ meetingId item artifact reply
    have hleaves := hdelivering.leaves rfl db
    simp only [exec]
    split
    · exact hleaves
    · -- the transaction was rolled back
      rename_i e herror
      exact leaves_same (atomically_error herror) rfl
    · exact hleaves
  | merge => exact (mergeWorkflowOutputOnce_delivering hscope _ _ _).leaves rfl db
  | readBeforeCancel state => exact leaves_same rfl rfl

/-! ## The program -/

/-- A change of the run's state comes after the check of the lease. -/
theorem plain_guarded {call : StateCall} (h : deliveryKeyOf call.change.payload = none) :
    ∀ st ∈ [.assertOwned, .setState call], Statement.Plain st := by
  intro st hst
  rcases mem_pair.1 hst with rfl | rfl
  · trivial
  · exact h

theorem plain_nil : ∀ st ∈ ([] : List Statement), st.Plain := fun _ h => absurd h not_mem_nil

theorem Attempt.settle_plain (a : Attempt) : ∀ st ∈ a.settle, st.Plain := by
  unfold settle
  split
  · exact plain_guarded rfl
  · exact plain_guarded rfl
  · exact plain_guarded rfl
  · intro st hst
    rw [mem_singleton.1 hst]
    trivial
  · intro st hst
    rw [mem_singleton.1 hst]
    trivial
  · exact plain_nil

theorem Attempt.program_plain (a : Attempt) : ∀ st ∈ a.program, st.Plain := by
  intro st hst
  unfold program at hst
  split at hst
  · cases hst
  split at hst
  · rw [mem_singleton.1 hst]
    trivial
  rcases mem_append.1 hst with hst | hst
  · rcases mem_append.1 hst with hst | hst
    · rcases mem_pair.1 hst with rfl | rfl <;> trivial
    split at hst
    · simp only [mem_cons, not_mem_nil, or_false] at hst
      rcases hst with rfl | rfl | rfl <;> trivial
    · cases hst
  · exact a.settle_plain st hst

/-- A linked event is delivered by its program. -/
theorem Attempt.deliver_mem_program (hrun : a.record.run? = some run) : a.deliver ∈ a.program := by
  have hlink : ¬ (truthy a.record.workflowRunId).isNone := by
    intro hnone
    rw [AgentTaskRow.run?, isNone_iff_eq_none.1 hnone] at hrun
    cases hrun
  unfold program
  rw [if_neg hlink]
  split
  · exact mem_singleton.2 rfl
  · exact mem_append_left _ (mem_append_left _ (mem_pair.2 (.inr rfl)))

theorem Executed.ofDelivery_next {result : Except WorkflowError Bool × Db AgentTables}
    (h : (ofDelivery id result).next = .ok next) : next = [] ∧ ∃ b, result.1 = .ok b := by
  rcases result with ⟨_ | b, db⟩
  · cases h
  · cases h
    exact ⟨rfl, b, rfl⟩

theorem Executed.ofTx_next {α : Type} {result : Except WorkflowError α × Db AgentTables}
    (h : (ofTx result).next = .ok next) : next = [] := by
  rcases result with ⟨_ | b, db⟩
  · cases h
  · cases h
    rfl

theorem Attempt.afterCancelRead_plain (a : Attempt) (state : AgentTaskState)
    (current : Option RunRow) : ∀ st ∈ a.afterCancelRead state current, st.Plain := by
  have hmark : ∀ st ∈ (if state = .cancelled then
        [.assertOwned, .setState (.markCancelled (a.messageOr "任务已取消"))]
      else [.assertOwned, .setState (.markCancelFailed (a.messageOr "取消失败"))]),
      Statement.Plain st := by
    split
    · exact plain_guarded rfl
    · exact plain_guarded rfl
  unfold afterCancelRead
  dsimp only
  split
  · exact hmark
  split
  · exact plain_nil
  split
  · exact hmark
  intro st hst
  rcases mem_append.1 hst with hst | hst
  · exact plain_guarded (by exact deliveryKeyOf_reasonPayload _) st hst
  · exact hmark st hst

/-- The statements that a statement puts in front are plain. -/
theorem Attempt.exec_plain {reply : Reply} (h : (a.exec lib ctx reply db st).next = .ok next) :
    ∀ st' ∈ next, st'.Plain := by
  cases st with
  | readBeforeStart =>
    simp only [exec, ofRead, Except.ok.injEq] at h
    subst h
    split
    · exact plain_guarded rfl
    · exact plain_nil
  | assertOwned =>
    rw [ofTx_next h]
    exact plain_nil
  | setState call =>
    simp only [exec] at h
    split at h
    · cases h
      exact plain_nil
    · rw [ofTx_next h]
      exact plain_nil
  | record eventType subject message payload visibility =>
    rw [(ofDelivery_next h).1]
    exact plain_nil
  | importArtifacts =>
    simp only [exec] at h
    split at h
    · cases h
      intro st' hst'
      rcases mem_map.1 hst' with ⟨item, -, rfl⟩
      trivial
    · cases h
      exact plain_nil
  | importArtifact meetingId item =>
    simp only [exec, ofRead, Except.ok.injEq, afterItem] at h
    subst h
    intro st' hst'
    split at hst'
    · rw [mem_singleton.1 hst']
      trivial
    split at hst'
    · cases hst'
    · rcases mem_pair.1 hst' with rfl | rfl <;> trivial
  | download meetingId item =>
    simp only [exec] at h
    split at h <;> cases h <;> intro st' hst' <;> rw [mem_singleton.1 hst'] <;> trivial
  | register meetingId item artifact =>
    simp only [exec] at h
    split at h
    · rw [(ofDelivery_next h).1]
      exact plain_nil
    · cases h
      intro st' hst'
      rcases mem_pair.1 hst' with rfl | rfl <;> trivial
    · rw [(ofDelivery_next h).1]
      exact plain_nil
  | merge =>
    rw [(ofDelivery_next h).1]
    exact plain_nil
  | readBeforeCancel state =>
    simp only [exec, ofRead, Except.ok.injEq] at h
    subst h
    exact a.afterCancelRead_plain state (a.getRun db)

/-! ## The acknowledgement -/

/-- What an acknowledgement does: it marks the row of its event, which was not marked. -/
structure Attempt.Marks (a : Attempt) (now : Timestamp) (db db' : Db AgentTables) : Prop where
  runs : db'.runs = db.runs
  deliveries : db'.deliveries = db.deliveries
  tasks : db'.domain.tasks = db.domain.tasks
  row : ∃ row ∈ db.domain.events, row.key = a.key ∧ row.projectedAt = none ∧
    ∀ row', row' ∈ db'.domain.events ↔ row' = { row with projectedAt := some now } ∨
      (row' ∈ db.domain.events ∧ row' ≠ row)

theorem updateTaskEvents_returns {selected : AgentEventRow → Bool}
    {assign : AgentEventRow → AgentEventRow} {changed : Nat}
    (h : Returns (updateTaskEvents selected assign) db changed db') :
    ∃ events, db.domain.events.update? selected assign = some events ∧
      db' = { db with domain := { db.domain with events := events } } ∧
      changed = db.domain.events.rows.countP selected := by
  rcases returns_bind.1 h with ⟨tables, _, hselect, h⟩
  rcases selectTables_returns.1 hselect with ⟨rfl, rfl⟩
  split at h
  · exact (returns_throw.1 h).elim
  rename_i events hevents
  rcases returns_bind.1 h with ⟨_, db₁, hwrite, h⟩
  rcases returns_pure.1 h with ⟨rfl, rfl⟩
  exact ⟨events, hevents, writeTables_returns.1 hwrite, rfl⟩

theorem acknowledge_returns {exit : Exit (List EchoEvent)}
    (h : Returns (acknowledge lib ctx a) db exit db') :
    exit = .commit (a.domainEvents ctx) ∧ a.Marks ctx.now db db' := by
  simp only [acknowledge, returns_bind] at h
  rcases h with ⟨_, db₁, hlease, _, db₂, houtbox, changed, db₃, hupdate, h⟩
  have h₁ := assertLeaseOf_returns hlease
  have h₂ := appendDomainOutboxTx_rows houtbox
  subst h₁ h₂
  rcases updateTaskEvents_returns hupdate with ⟨events, hevents, rfl, rfl⟩
  obtain ⟨hone, h⟩ := returns_guard.1 h
  rcases returns_pure.1 h with ⟨rfl, rfl⟩
  refine ⟨rfl, rfl, rfl, rfl, ?_⟩
  -- the row count says that there is a row of the key that was not marked
  have hcount := not_not.1 hone
  rcases countP_pos_iff.1 (hcount ▸ Nat.one_pos) with ⟨row, hrow, hselected⟩
  rcases of_decide_eq_true hselected with ⟨hkey, hunmarked⟩
  refine ⟨row, hrow, hkey, hunmarked, fun row' => ?_⟩
  refine Table.mem_update?_of_unique (fun r r' hr hr' => ?_) hevents hrow hselected
  exact .inl ((of_decide_eq_true hr).1.trans (of_decide_eq_true hr').1.symm)

/-! ## The claim -/

/-- What a worker that won a claim starts from. -/
structure Claimed (db : Db AgentTables) (key : EventKey) (stored : EchoTaskEvent)
    (rec : AgentTaskRow) : Prop where
  event : ∃ event ∈ db.domain.events, event.key = key ∧ event.payload = stored
  task : rec ∈ db.domain.tasks
  key : rec.key = key.task

theorem claimUnmarked_returns
    (h : Returns (claimUnmarked lib ctx holderId ttlSeconds key) db exit db') :
    (∃ leases, db' = { db with leases := leases }) ∧ ∀ lease stored rec,
      exit.value = .claimed lease stored rec → Claimed db key stored rec := by
  replace h := returns_get_bind.1 h
  split at h
  · rename_i event rec hevent hrec
    rcases filter_eq_some_iff.1 hevent with ⟨hfound, -⟩
    split at h
    · exact (returns_throw.1 h).elim
    · rename_i leases _
      rcases h with ⟨_, _, rfl, rfl, rfl⟩
      exact ⟨⟨leases, rfl⟩, fun _ _ _ hexit => by cases hexit⟩
    rename_i lease leases _
    rcases h with ⟨_, _, rfl, rfl, rfl⟩
    refine ⟨⟨leases, rfl⟩, fun _ _ _ hexit => ?_⟩
    cases hexit
    rcases AgentTables.findEvent_eq_some.1 hfound with ⟨hmem, hkey⟩
    rcases AgentTables.findTask_eq_some.1 hrec with ⟨htask, htaskKey⟩
    exact ⟨⟨event, hmem, hkey, rfl⟩, htask, htaskKey⟩
  · rcases returns_pure.1 h with ⟨rfl, rfl⟩
    exact ⟨⟨_, rfl⟩, fun _ _ _ hexit => by cases hexit⟩

theorem claimEventProjection_returns {taskLease : Option (LeaseToken Timestamp)}
    (h : Returns (claimEventProjection lib ctx holderId ttlSeconds taskLease key) db exit db') :
    (∃ leases, db' = { db with leases := leases }) ∧ ∀ lease stored rec,
      exit.value = .claimed lease stored rec → Claimed db key stored rec := by
  unfold claimEventProjection at h
  split at h
  · exact claimUnmarked_returns h
  rcases returns_bind.1 h with ⟨_, db₁, hlease, h⟩
  rw [assertLeaseOf_returns hlease] at h
  exact claimUnmarked_returns h

end Agents
