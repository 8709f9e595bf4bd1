import EchoDesk.Workflow.Steps

/-! # Ownership of a run

A worker claims the lease of a run and works with the token bound to its
context. Every operation that asserts ownership checks the token inside its own
transaction, so it commits only with the newest fence granted for the run and
within its term: once another worker has claimed the run, these operations of
the first worker change nothing.

Creating a run, and `retry_run` with it, asserts nothing.
-/

namespace Workflow

open EchoDesk Transaction Transition OrderedLog Outbox Runtime List LeaseFencing

variable {δ : Type}

/-- The token an operation asserts: the explicit one or the one bound to the
context. -/
def Op.token (ctx : Context) (op : Op δ) : Option (LeaseToken Timestamp) :=
  op.asserted.bind fun asserted => asserted.2.or ctx.boundLease

/-- The run an operation asserts the ownership of. -/
def Op.assertedRun (ctx : Context) (op : Op δ) : Option LeaseKey :=
  op.asserted.map fun asserted => leaseKey ctx.scope asserted.1

/-- The fences of the tokens handed out for a run increase, and none is past
the fence of its row. -/
structure GrantsOrdered (s : Sys δ) : Prop where
  below : ∀ token ∈ s.granted,
    token.fenceToken ≤ LeaseFencing.generation s.db.leases token.toLeaseKey
  ordered : s.granted.Pairwise fun earlier later =>
    earlier.toLeaseKey = later.toLeaseKey → earlier.fenceToken < later.fenceToken

/-! ## The tokens handed out -/

variable (s : Sys δ) (l : Lbl δ)

@[simp] theorem advance_granted [DomainTables δ] (id : Nat) (call : CreateCall δ) :
    (s.advance id call).granted = s.granted := by
  have hfinish : ∀ (t : Sys δ) (record : WorkflowRunRecord) (created : Bool),
      (t.finish id call record created).granted = t.granted := fun t record created => by
    unfold Sys.finish
    split <;> rfl
  unfold Sys.advance
  split
  case h_6 => rfl
  all_goals split <;> simp [hfinish, Sys.setCall]

/-- Only a claim hands out a token, the next one of its run. -/
theorem step_granted [DomainTables δ] :
    (step s l).granted = s.granted ∨ ∃ token, (step s l).granted = s.granted ++ [token] ∧
      token.fenceToken = generation s.db.leases token.toLeaseKey + 1 ∧
      generation (step s l).db.leases token.toLeaseKey = token.fenceToken := by
  cases l with
  | advance id =>
    simp only [step]
    split <;> simp
  | claimRunForExecution ctx runId holderId ttlSeconds =>
    simp only [step]
    split
    · rename_i run token db hres
      right
      refine ⟨token, rfl, ?_⟩
      rcases claimRunForExecution_commits (claimRunForExecution_of_ok hres) with ⟨_, hgranted⟩
      exact (hgranted run token rfl).2
    · exact .inl rfl
  | outbox table =>
    simp only [step]
    split <;> exact .inl rfl
  | _ => exact .inl rfl

/-- No step takes a fence back. -/
theorem generation_step [DomainTables δ] (key : LeaseKey) : generation s.db.leases key ≤
      generation (step s l).db.leases key := by
  cases step_cases s l with
  | same h => rw [h]
  | leases h => exact h.fences key
  | outbox table h => rw [h]
  | journal es h entries => rw [h.leases_eq]

theorem grantsOrdered_step [DomainTables δ] (s : Sys δ) (l : Lbl δ) (hi : GrantsOrdered s) :
    GrantsOrdered (step s l) := by
  have hbelow : ∀ token ∈ s.granted,
      token.fenceToken ≤ generation (step s l).db.leases token.toLeaseKey :=
    fun token ht => (hi.below token ht).trans (generation_step s l _)
  rcases step_granted s l with h | ⟨token, h, hfence, hgen⟩
  · exact ⟨by rwa [h], by rw [h]; exact hi.ordered⟩
  refine ⟨fun t ht => ?_, ?_⟩
  · rw [h] at ht
    rcases mem_append.1 ht with ht | ht
    · exact hbelow t ht
    · rw [mem_singleton.1 ht, hgen]
  rw [h]
  refine pairwise_append.2 ⟨hi.ordered, pairwise_singleton _ _, ?_⟩
  intro earlier he later hl hkey
  rw [mem_singleton.1 hl] at hkey ⊢
  have := hi.below earlier he
  rw [hkey] at this
  omega

/-! ## Operations that assert ownership -/

/-- What an operation asserts when it changes the database: its token is one of
the run, unexpired at the reading of the clock in the transaction, and no token
handed out for the run has a newer fence. -/
structure AssertedBy (s : Sys δ) (ctx : Context) (op : Op δ) (token : LeaseToken Timestamp) :
    Prop where
  ofRun : op.assertedRun ctx = some token.toLeaseKey
  unexpired : ∃ row, s.db.leases token.toLeaseKey = some row ∧ row.holderId = token.holderId ∧
    row.fenceToken = token.fenceToken ∧ ctx.leaseNow < row.expiresAt
  latest : ∀ other ∈ s.granted, other.toLeaseKey = token.toLeaseKey →
    other.fenceToken ≤ token.fenceToken

theorem assertedBy_of_exec [DomainTables δ] {s : Sys δ} (hi : GrantsOrdered s) {ctx : Context}
    {op : Op δ} {token : LeaseToken Timestamp} (htoken : op.token ctx = some token)
    (hchange : (op.exec ctx s.db).2 ≠ s.db) : AssertedBy s ctx op token := by
  rcases op.exec_cases ctx s.db with h | ⟨_, es, h⟩
  · exact absurd h hchange
  rcases Option.bind_eq_some_iff.1 htoken with ⟨⟨runId, lease⟩, hasserted, hlease⟩
  rcases h.owned runId lease hasserted token hlease with ⟨hkey, howned⟩
  rcases checkOwned_eq_true.1 howned with ⟨_, row, hrow, hholder, hfence, hterm⟩
  refine ⟨by rw [Op.assertedRun, hasserted, hkey]; rfl, ⟨row, hrow, hholder, hfence, hterm⟩, ?_⟩
  intro other hother hsame
  have hbelow := hi.below other hother
  rw [hsame] at hbelow
  simpa [generation, hrow, hfence] using hbelow

/-- Along every run of the service: an operation that asserts ownership changes
the database only with the newest token of its run, within its term; and once a
second token of the run has been handed out, those with the first one change
nothing, then and ever after. -/
theorem asserted_operations_fenced [DomainTables δ] (domain : δ) (trace : List (Lbl δ)) :
    let s := run step (Sys.start domain) trace
    (∀ ctx (op : Op δ) token, op.token ctx = some token → (op.exec ctx s.db).2 ≠ s.db →
      AssertedBy s ctx op token) ∧
    ∀ first second before between after, s.granted = before ++ first :: between ++ second :: after →
      first.toLeaseKey = second.toLeaseKey → ∀ more ctx (op : Op δ), op.token ctx = some first →
          (op.exec ctx (run step s more).db).2 = (run step s more).db := by
  intro s
  have hi : GrantsOrdered s :=
    run_invariant grantsOrdered_step ⟨fun _ h => absurd h not_mem_nil, .nil⟩ trace
  refine ⟨fun ctx op token htoken hchange => assertedBy_of_exec hi htoken hchange, ?_⟩
  intro first second before between after hgranted hkey more ctx op htoken
  have hlt : first.fenceToken < second.fenceToken := by
    have hordered := hi.ordered
    rw [hgranted, List.pairwise_append] at hordered
    exact hordered.2.2 first (by simp) second (by simp) hkey
  have hmem : second ∈ (run step s more).granted := by
    refine @run_invariant _ _ step (fun t => second ∈ t.granted) (fun t l ht => ?_) s ?_ more
    · rcases step_granted t l with h | ⟨token, h, _⟩
      · rwa [h]
      · rw [h]
        exact List.mem_append_left _ ht
    · rw [hgranted]
      simp
  by_contra hchange
  have hi' : GrantsOrdered (run step s more) := run_invariant grantsOrdered_step hi more
  have := (assertedBy_of_exec hi' htoken hchange).latest second hmem hkey.symm
  omega

/-! ## Operations that assert nothing -/

/-- Every change made with a token bound is made while the token is owned. -/
def WorkersFenced [DomainTables δ] (s : Sys δ) : Prop :=
  ∀ ctx (op : Op δ) token, ctx.boundLease = some token → (op.exec ctx s.db).2 ≠ s.db →
    checkOwned s.db.leases ctx.leaseNow token = .ok true

/-- A worker of the run below, at a reading of the lease clock. -/
def worker (boundLease : Option (LeaseToken Timestamp)) (leaseNow : Nat) : Context :=
  { principal := ⟨"tenant", "device", "owner"⟩, boundLease := boundLease, leaseNow := leaseNow }

/-- The token of a worker. -/
def workerToken (holderId : String) (fenceToken : Nat) : LeaseToken Timestamp :=
  { tenantId := "tenant", ownerId := "owner", resourceKind := "workflow", resourceId := "run"
    holderId := holderId, fenceToken := fenceToken, expiresAt := 0, heartbeatAt := 0 }

/-- A run is claimed, claimed again after the term, and failed by the second
worker. -/
def takenOver : List (Lbl Unit) :=
  [.create { ctx := worker none 0, body := { kind := "note", intentText := "" }, runId := "run" },
    .advance 0, .advance 0, .advance 0,
    .claimRunForExecution (worker none 0) "run" "first" 10,
    .claimRunForExecution (worker none 10) "run" "second" 10,
    .op (worker (workerToken "second" 2) 10) (.setState "run" (.failRun "stopped" none) none []
      none)]

/-- What the first worker's `retry_run` does after that. -/
def staleRetry (db : Db Unit) : Except WorkflowError Unit × Db Unit :=
  (Op.retryRun "run" "again" none none).exec (worker (workerToken "first" 1) 11) db

/-- The first worker, whose token is superseded, still commits an event of the
run it has lost: `retry_run` asserts nothing. -/
theorem not_workersFenced_staleRetry :
    let s := run step (Sys.start ()) takenOver
    (s.granted.map fun token => (token.holderId, token.fenceToken)) = [("first", 1), ("second", 2)] ∧
      ((staleRetry s.db).2.history ⟨⟨"tenant", "owner"⟩, "run"⟩).map (·.eventType) =
        ["workflow.created", "workflow.failed", "workflow.retry_created"] ∧
      ¬ WorkersFenced s := by
  refine ⟨by decide +kernel, by decide +kernel, fun h => ?_⟩
  have howned := h (worker (workerToken "first" 1) 11) (.retryRun "run" "again" none none)
    (workerToken "first" 1) rfl fun hsame => by
      have hlength := congrArg (fun db => db.events.rows.length) hsame
      revert hlength
      decide +kernel
  revert howned
  decide +kernel

end Workflow
