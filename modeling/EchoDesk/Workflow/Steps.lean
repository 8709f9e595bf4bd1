import EchoDesk.Runtime.LeaseFencing
import EchoDesk.Workflow.System

/-! # What a step of the service does

A step keeps the runs and their events, or it is a committed transaction with a
journal whose entries are those of its operation. Every invariant of the
workflow store is derived from `step_cases`.
-/

namespace Workflow

open EchoDesk Transaction Transition OrderedLog Outbox Runtime List LeaseFencing

variable {δ : Type}
variable {result : Option (WorkflowRunRecord × LeaseToken Timestamp)} {lease : LeaseToken Timestamp}
  {record : WorkflowRunRecord} {call : CreateCall δ} {α : Type} {e : WorkflowError}
  {holderId : String}

variable {db db' : Db δ} {ctx : Context} {runId : String} {ttlSeconds : Nat}

variable {body : WorkflowTx δ (Exit α)}

/-- An operation that raises leaves the database as it was. -/
theorem outcome_error (h : (outcome (atomically body db)).1 = .error e)
    : (outcome (atomically body db)).2 = db := by
  unfold outcome at h ⊢
  rcases hres : (atomically body db).1 with e' | a
  · exact atomically_error hres
  · rw [hres] at h
    cases h

/-! ## Operations -/

/-- The entries an operation makes. -/
def Op.Makes (ctx : Context) (e : Entry) : Op δ → Prop
  | .createRunAtomic body _ runId parentRunId attempt =>
    e.Creates (ctx.row (newRecord ctx body runId parentRunId attempt))
  | .recordEvent runId eventType _ _ _ _ => e.Notes ⟨ctx.scope, runId⟩ eventType
  | .recordAgentDeliveryOnce _ runId _ eventType _ _ _ _ => e.Notes ⟨ctx.scope, runId⟩ eventType
  | .mergeAgentOutputOnce _ runId _ _ eventType _ _ =>
    e.Changes ⟨ctx.scope, runId⟩ .output ∧ e.event.eventType = eventType
  | .mergeOutput runId _ eventType _ _ _ =>
    e.Changes ⟨ctx.scope, runId⟩ .output ∧ e.event.eventType = eventType
  | .commitRunProgressAtomic runId _ _ _ eventType _ _ =>
    e.Changes ⟨ctx.scope, runId⟩ .output ∧ e.run.isTerminal = false ∧ e.event.eventType = eventType
  | .setState runId call _ _ _ =>
    e.Changes ⟨ctx.scope, runId⟩ .transition ∧ e.run.state = call.change.state
  | .completeNewRunAtomic body newRunId _ _ _ _ =>
    e.Creates (ctx.row (newRecord ctx body newRunId none 1)) ∨
      e.Changes ⟨ctx.scope, newRunId⟩ .inline
  | .requestCancelInTransaction _ runId _ _ => e.Changes ⟨ctx.scope, runId⟩ .transition
  | .settleAgentTerminal _ runId _ _ _ _ _ => e.Changes ⟨ctx.scope, runId⟩ .transition
  | .retryRun runId newRunId reason _ =>
    (∃ old : RunRow, old.key = ⟨ctx.scope, runId⟩ ∧ e.Creates (ctx.row (newRecord ctx
      (retryBody old reason) newRunId (some old.runId) (old.attempt + 1)))) ∨
      e.Notes ⟨ctx.scope, runId⟩ "workflow.retry_created"
  | .projectActiveRun _ _ _ => False
  | .domain _ => False

/-- The lease of an operation that asserts ownership is owned. -/
def Op.Owned (ctx : Context) (db : Db δ) (op : Op δ) : Prop :=
  ∀ runId lease, op.asserted = some (runId, lease) → LeaseHeld ctx runId lease db

/-- What a committed operation has done. -/
structure Op.Committed (ctx : Context) (op : Op δ) (db : Db δ) (es : List Entry) (db' : Db δ) :
    Prop where
  journal : Journal db es db'
  entries : ∀ e ∈ es, op.Makes ctx e
  owned : op.Owned ctx db

/-- Writes of the domain keep what an operation reads of runs and leases. -/
theorem DomainEffect.leaseHeld {lease : Option (LeaseToken Timestamp)} (h : DomainEffect db db')
    (held : LeaseHeld ctx runId lease db') : LeaseHeld ctx runId lease db := by
  intro active ha
  rw [← h.leases]
  exact held active ha

/-- The journal of a caller-owned transaction is that of its operation. -/
theorem journal_of_unitOfWork {db₁ db₂ : Db δ} {es : List Entry} (hbefore : DomainEffect db db₁)
    (hj : Journal db₁ es db₂) (hafter : DomainEffect db₂ db') :
    Journal db es db' := by
  have := Journal.domain hbefore (hj.trans hafter.journal)
  rwa [append_nil] at this

variable {op : Op δ}

/-- What an operation has done is read off its committed body. -/
theorem Op.cases_of_body [DomainTables δ] (hexec : op.exec ctx db = outcome (atomically body db))
    (hbody : ∀ a db', Returns body db (.commit a) db' → ∃ es, op.Committed ctx db es db') :
    (op.exec ctx db).2 = db ∨
      ((op.exec ctx db).1 = .ok () ∧ ∃ es, op.Committed ctx db es (op.exec ctx db).2) := by
  rw [hexec]
  rcases atomically_cases body db with h | ⟨a, db', hret, h⟩
  · exact .inl h
  · rw [h]
    exact .inr ⟨rfl, hbody a db' hret⟩

/-- An operation raises, does nothing, or commits with its entries. -/
theorem Op.exec_cases [DomainTables δ] (ctx : Context) (op : Op δ) (db : Db δ) :
    (op.exec ctx db).2 = db ∨
      ((op.exec ctx db).1 = .ok () ∧ ∃ es, op.Committed ctx db es (op.exec ctx db).2) := by
  cases op with
  | createRunAtomic body domainWriter runId parentRunId attempt =>
    refine Op.cases_of_body rfl ?_
    rintro ⟨record, created⟩ db' hret
    rcases createRunAtomic_commits hret with ⟨db₁, hcreate, hfound, hwritten⟩
    rcases createRunInTransaction_returns hcreate with
      ⟨rfl, rfl, _⟩ | ⟨rfl, _, _, rfl, e, heff, hcreates⟩
    -- a run that is found writes no entry
    · obtain rfl := hfound rfl
      exact ⟨[], .nil _, by simp, fun _ _ h => by cases h⟩
    · exact ⟨[e], .entry heff (hwritten rfl).journal, forall_mem_singleton.2 hcreates,
        fun _ _ h => by cases h⟩
  | recordEvent runId eventType message payload visibility lease =>
    refine Op.cases_of_body rfl fun result db' hret => ?_
    rcases recordEvent_commits hret with ⟨hheld, e, hj, hnotes⟩
    exact ⟨[e], hj, forall_mem_singleton.2 hnotes, fun _ _ h => by cases h; exact hheld⟩
  | recordAgentDeliveryOnce before runId deliveryKey eventType message payload visibility after =>
    refine Op.cases_of_body rfl fun result db' hret => ?_
    rcases inUnitOfWork_commits hret with ⟨db₁, db₂, hbefore, hop, hafter⟩
    rcases recordAgentDeliveryOnce_returns hop with rfl | ⟨e, hj, hnotes⟩
    · exact ⟨[], journal_of_unitOfWork hbefore (.nil _) hafter, by simp, fun _ _ h => by cases h⟩
    · exact ⟨[e], journal_of_unitOfWork hbefore hj hafter, forall_mem_singleton.2 hnotes,
        fun _ _ h => by cases h⟩
  | mergeAgentOutputOnce before runId deliveryKey patch eventType message after =>
    refine Op.cases_of_body rfl fun result db' hret => ?_
    rcases inUnitOfWork_commits hret with ⟨db₁, db₂, hbefore, hop, hafter⟩
    rcases mergeAgentOutputOnce_returns hop with rfl | ⟨e, hj, hchanges⟩
    · exact ⟨[], journal_of_unitOfWork hbefore (.nil _) hafter, by simp, fun _ _ h => by cases h⟩
    · exact ⟨[e], journal_of_unitOfWork hbefore hj hafter, forall_mem_singleton.2 hchanges,
        fun _ _ h => by cases h⟩
  | mergeOutput runId patch eventType message mergeStrategy lease =>
    refine Op.cases_of_body rfl fun result db' hret => ?_
    rcases mergeOutput_commits hret with ⟨hheld, e, hj, hchanges⟩
    exact ⟨[e], hj, forall_mem_singleton.2 hchanges, fun _ _ h => by cases h; exact hheld⟩
  | commitRunProgressAtomic runId output domainWriter domainEvents eventType message lease =>
    refine Op.cases_of_body rfl fun result db' hret => ?_
    rcases commitRunProgressAtomic_commits hret with ⟨hheld, e, hj, hchanges⟩
    exact ⟨[e], hj, forall_mem_singleton.2 hchanges, fun _ _ h => by cases h; exact hheld⟩
  | setState runId call domainWriter domainEvents lease =>
    refine Op.cases_of_body rfl fun result db' hret => ?_
    rcases setState_commits (by cases call <;> rfl) call.eventType_mem hret with ⟨hheld, e, hj, hchanges⟩
    exact ⟨[e], hj, forall_mem_singleton.2 hchanges, fun _ _ h => by cases h; exact hheld⟩
  | completeNewRunAtomic body newRunId output domainWriter domainEvents message =>
    refine Op.cases_of_body rfl fun result db' hret => ?_
    rcases completeNewRunAtomic_commits hret with ⟨e₁, e₂, hj, hc₁, hc₂⟩
    exact ⟨[e₁, e₂], hj, by simpa using ⟨.inl hc₁, .inr hc₂⟩, fun _ _ h => by cases h⟩
  | requestCancelInTransaction before runId reason after =>
    refine Op.cases_of_body rfl fun result db' hret => ?_
    rcases inUnitOfWork_commits hret with ⟨db₁, db₂, hbefore, hop, hafter⟩
    have hheld := hbefore.leaseHeld (requestCancelInTransaction_returns hop).1
    rcases (requestCancelInTransaction_returns hop).2 with ⟨rfl, _⟩ | ⟨e, heff, hchanges, _⟩
    · exact ⟨[], journal_of_unitOfWork hbefore (.nil _) hafter, by simp,
        fun _ _ h => by cases h; exact hheld⟩
    · exact ⟨[e], journal_of_unitOfWork hbefore heff.journal hafter,
        forall_mem_singleton.2 hchanges, fun _ _ h => by cases h; exact hheld⟩
  | settleAgentTerminal before runId state message output payload after =>
    refine Op.cases_of_body rfl fun result db' hret => ?_
    rcases inUnitOfWork_commits hret with ⟨db₁, db₂, hbefore, hop, hafter⟩
    rcases settleAgentTerminalInTransaction_returns hop with ⟨hheld, es, hj, hchanges⟩
    exact ⟨es, journal_of_unitOfWork hbefore hj hafter, hchanges,
      fun _ _ h => by cases h; exact hbefore.leaseHeld hheld⟩
  | retryRun runId newRunId reason domainWriter =>
    refine Op.cases_of_body rfl fun result db' hret => ?_
    rcases retryRun_commits hret with ⟨old, record, hold, _, _, _,
      ⟨rfl, _⟩ | ⟨e₁, e₂, hj, rfl, hc₁, hnotes, _⟩⟩
    · exact ⟨[], .nil _, by simp, fun _ _ h => by cases h⟩
    · exact ⟨[e₁, e₂], hj, by
        simpa using ⟨.inl ⟨old, (Db.findRun_eq_some.1 hold).2, hc₁⟩, .inr hnotes⟩, fun _ _ h => by cases h⟩
  | projectActiveRun runId domainWriter lease =>
    refine Op.cases_of_body rfl fun result db' hret => ?_
    rcases projectActiveRun_commits hret with ⟨hheld, hj⟩
    exact ⟨[], hj, by simp, fun _ _ h => by cases h; exact hheld⟩
  | domain writer =>
    refine Op.cases_of_body rfl fun result db' hret => ?_
    rcases inUnitOfWork_commits hret with ⟨db₁, db₂, hbefore, hop, hafter⟩
    obtain rfl := (returns_pure.1 hop).2
    exact ⟨[], journal_of_unitOfWork hbefore (.nil _) hafter, by simp, fun _ _ h => by cases h⟩

/-- An operation that raises leaves the database as it was. -/
theorem Op.exec_error [DomainTables δ] (h : (op.exec ctx db).1 = .error e) :
    (op.exec ctx db).2 = db := by
  cases op <;> exact outcome_error h

/-! ## Creations in flight -/

/-- The row a creation inserts. -/
def CreateCall.newRow (call : CreateCall δ) : RunRow :=
  call.ctx.row (newRecord call.ctx call.body call.runId call.parentRunId call.attempt)

theorem insertBody_commits [DomainTables δ] (h : Returns call.insertBody db (.commit record) db') :
    record = call.newRow.toWorkflowRunRecord ∧ call.newRow ∈ db'.runs ∧
      ∃ e, Journal db [e] db' ∧ e.Creates call.newRow := by
  simp only [CreateCall.insertBody, returns_bind, returns_pure, Exit.commit.injEq] at h
  obtain ⟨_, db₁, hins, _, _, hwriter, rfl, rfl⟩ := h
  rcases insertNewRun_returns hins with ⟨rfl, e, heff, hcreates⟩
  have hdom := runOptionalWriter_returns hwriter
  refine ⟨rfl, ?_, e, .entry heff hdom.journal, hcreates⟩
  rw [hdom.runs]
  exact heff.mem_runs.2 (.inl hcreates.1.symm)

/-- The write transaction of a creation commits unless it raises. -/
theorem insertBody_of_ok [DomainTables δ] (h : atomically call.insertBody db = (.ok record, db')) :
    Returns call.insertBody db (.commit record) db' := by
  rcases atomically_ok h with hret | ⟨⟨_, habandon⟩, _⟩
  · exact hret
  simp only [CreateCall.insertBody, returns_bind, returns_pure] at habandon
  obtain ⟨_, _, _, _, _, _, hexit, _⟩ := habandon
  cases hexit

variable (s : Sys δ)

@[simp] theorem finish_db (id : Nat) (call : CreateCall δ) (record : WorkflowRunRecord)
    (created : Bool) : (s.finish id call record created).db = s.db := by
  unfold Sys.finish
  split <;> rfl

@[simp] theorem setCall_db (id : Nat) (call : Option (CreateCall δ)) :
    (s.setCall id call).db = s.db := rfl

@[simp] theorem finish_inlined (id : Nat) (call : CreateCall δ) (record : WorkflowRunRecord)
    (created : Bool) :
    (s.finish id call record created).inlined = s.inlined := by
  unfold Sys.finish
  split <;> rfl

@[simp] theorem setCall_inlined (id : Nat) (call : Option (CreateCall δ)) :
    (s.setCall id call).inlined = s.inlined := rfl

@[simp] theorem advance_inlined [DomainTables δ] (id : Nat) (call : CreateCall δ) :
    (s.advance id call).inlined = s.inlined := by
  unfold Sys.advance
  split
  case h_6 => rfl
  all_goals split <;> simp

/-- A statement of a creation reads, writes its run with the first event, or
writes a task. -/
theorem advance_cases [DomainTables δ] (id : Nat) (call : CreateCall δ) :
    (s.advance id call).db = s.db ∨ Journal s.db [] (s.advance id call).db ∨
      ∃ e, call.phase = .insert ∧ Journal s.db [e] (s.advance id call).db ∧
        e.Creates call.newRow := by
  unfold Sys.advance
  split
  · left; split <;> simp
  · left; split <;> simp
  · -- the write transaction
    rename_i hphase
    rcases atomically_cases call.insertBody s.db with h | ⟨record, db', hret, h⟩
    · left
      rcases hres : atomically call.insertBody s.db with ⟨e | record, db'⟩
      · cases e <;> rfl
      · rw [hres] at h
        simpa using h
    · rw [h]
      rcases insertBody_commits hret with ⟨_, _, e, hj, hcreates⟩
      right; right
      exact ⟨e, hphase, by simpa using hj, hcreates⟩
  · left; split <;> simp
  · left; split <;> simp
  · rename_i found _
    rcases atomically_cases (inUnitOfWork call.ctx (fun db : Db δ => { tables := db.domain })
      (runOptionalWriter call.ctx (call.task.map fun task => task found))
      fun _ db => { tables := db.domain }) s.db with h | ⟨a, db', hret, h⟩
    · exact .inl h
    rw [h]
    rcases inUnitOfWork_commits hret with ⟨db₁, db₂, hbefore, hop, hafter⟩
    exact .inr (.inl (journal_of_unitOfWork hbefore (runOptionalWriter_returns hop).journal hafter))

/-! ## Leases -/

/-- Only the leases are written, and no fence goes back. -/
structure LeaseEffect (db db' : Db δ) : Prop where
  rest : db' = { db with leases := db'.leases }
  fences : ∀ key, LeaseFencing.generation db.leases key ≤ LeaseFencing.generation db'.leases key

theorem LeaseEffect.refl (db : Db δ) : LeaseEffect db db := ⟨rfl, fun _ => le_rfl⟩

theorem claimRunForExecution_commits
    (h : Returns (claimRunForExecution ctx runId holderId ttlSeconds) db (.commit result) db') :
    LeaseEffect db db' ∧ ∀ run lease, result = some (run, lease) →
      lease.toLeaseKey = leaseKey ctx.scope runId ∧
        lease.fenceToken = generation db.leases lease.toLeaseKey + 1 ∧
        generation db'.leases lease.toLeaseKey = lease.fenceToken := by
  simp only [claimRunForExecution, returns_get_bind] at h
  split at h
  · exact (returns_throw.1 h).elim
  · -- refused
    rename_i leases hacquire
    simp only [returns_bind, returns_set, returns_pure] at h
    obtain ⟨_, _, rfl, hres, rfl⟩ := h
    injection hres with hres
    exact ⟨⟨rfl, (acquire_generation hacquire).1⟩, fun _ _ hr => by
      rw [← hres] at hr; cases hr⟩
  rename_i lease leases hacquire
  have hgen := acquire_generation hacquire
  split at h
  · -- granted for a run that is no longer active, and given back
    split at h
    · exact (returns_throw.1 h).elim
    rename_i released leases' hrelease
    simp only [returns_bind, returns_set, returns_pure] at h
    obtain ⟨_, _, rfl, hres, rfl⟩ := h
    injection hres with hres
    refine ⟨⟨rfl, fun key => ?_⟩, fun _ _ hr => by rw [← hres] at hr; cases hr⟩
    rw [release_generation hrelease]
    exact hgen.1 key
  · simp only [returns_bind, returns_set, returns_pure] at h
    obtain ⟨_, _, rfl, hres, rfl⟩ := h
    injection hres with hres
    refine ⟨⟨rfl, hgen.1⟩, fun run token hr => ?_⟩
    rw [← hres] at hr
    cases hr
    rcases hgen.2 lease rfl with ⟨hkey, hfence, hnew⟩
    rw [hkey]
    exact ⟨rfl, hfence, hnew⟩

/-- A claim commits unless it raises. -/
theorem claimRunForExecution_of_ok
    (h : atomically (claimRunForExecution ctx runId holderId ttlSeconds) db = (.ok result, db')) :
    Returns (claimRunForExecution ctx runId holderId ttlSeconds) db (.commit result) db' := by
  rcases atomically_ok h with hret | ⟨⟨db₁, habandon⟩, _⟩
  · exact hret
  simp only [claimRunForExecution, returns_get_bind] at habandon
  repeat' split at habandon
  all_goals simp only [returns_bind, returns_set, returns_pure, returns_throw, reduceCtorEq,
    false_and, and_false, exists_false] at habandon

theorem renewRunLease_commits {result : Option (LeaseToken Timestamp)}
    (h : Returns (renewRunLease ctx lease ttlSeconds) db (.commit result) db') :
    LeaseEffect db db' := by
  simp only [renewRunLease, returns_get_bind] at h
  split at h
  · exact (returns_throw.1 h).elim
  rename_i renewed leases hrenew
  obtain ⟨_, _, rfl, _, rfl⟩ := h
  exact ⟨rfl, fun key => (renew_generation hrenew key).ge⟩

theorem releaseRunLease_commits {result : Bool}
    (h : Returns (releaseRunLease ctx lease) db (.commit result) db') : LeaseEffect db db' := by
  simp only [releaseRunLease, returns_get_bind] at h
  split at h
  · exact (returns_throw.1 h).elim
  rename_i released leases hrelease
  obtain ⟨_, _, rfl, _, rfl⟩ := h
  exact ⟨rfl, fun key => (release_generation hrelease key).ge⟩

/-- A transaction that either does nothing or commits a lease statement. -/
theorem leaseEffect_atomically
    (hbody : ∀ a db', Returns body db (.commit a) db' → LeaseEffect db db') :
    LeaseEffect db (atomically body db).2 := by
  rcases atomically_cases body db with h | ⟨a, db', hret, h⟩
  · rw [h]
    exact .refl db
  · rw [h]
    exact hbody a db' hret

/-! ## Steps -/

/-- The entries a step makes. -/
def Lbl.Makes (s : Sys δ) (e : Entry) : Lbl δ → Prop
  | .op ctx operation => operation.Makes ctx e
  | .advance id => ∃ call, s.calls id = some call ∧ call.phase = .insert ∧ e.Creates call.newRow
  | _ => False

/-- What a step does to the database. -/
inductive StepEffect (s : Sys δ) (l : Lbl δ) (db' : Db δ) : Prop where
  | same (h : db' = s.db)
  | leases (h : LeaseEffect s.db db')
  | outbox (table : OutboxTable OutboxPayload) (h : db' = { s.db with outbox := table })
  | journal (es : List Entry) (h : Journal s.db es db') (entries : ∀ e ∈ es, l.Makes s e)

theorem step_claim_db [DomainTables δ] (ctx : Context) (runId holderId : String)
    (ttlSeconds : Nat) :
    (step s (.claimRunForExecution ctx runId holderId ttlSeconds)).db =
      (atomically (claimRunForExecution ctx runId holderId ttlSeconds) s.db).2 := by
  simp only [step]
  split <;> simp_all

/-- Every step keeps the database, writes leases or the delivery columns of the
outbox, or is a transaction with a journal of its entries. -/
theorem step_cases [DomainTables δ] (l : Lbl δ) : StepEffect s l (step s l).db := by
  cases l with
  | create call => exact .same rfl
  | advance id =>
    simp only [step]
    split
    · exact .same rfl
    rename_i call hcall
    rcases advance_cases s id call with h | h | ⟨e, hphase, hj, hcreates⟩
    · exact .same h
    · exact .journal [] h (by simp)
    · exact .journal [e] hj (forall_mem_singleton.2 ⟨call, hcall, hphase, hcreates⟩)
  | drop id => exact .same rfl
  | op ctx op =>
    rcases op.exec_cases ctx s.db with h | ⟨_, es, h⟩
    · exact .same h
    · exact .journal es h.journal h.entries
  | claimRunForExecution ctx runId holderId ttlSeconds =>
    rw [step_claim_db]
    exact .leases (leaseEffect_atomically fun _ _ h => (claimRunForExecution_commits h).1)
  | renewRunLease ctx lease ttlSeconds =>
    exact .leases (leaseEffect_atomically fun _ _ h => renewRunLease_commits h)
  | releaseRunLease ctx lease =>
    exact .leases (leaseEffect_atomically fun _ _ h => releaseRunLease_commits h)
  | outbox table =>
    simp only [step]
    split
    · exact .outbox table rfl
    · exact .same rfl

end Workflow
