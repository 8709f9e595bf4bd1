import EchoDesk.Workflow.Steps

/-! # Idempotency keys

`create_run` looks for a run with its idempotency key and then for an active run
with its active key. What the second lookup finds is returned under the
idempotency key of the call and not recorded with it, so the key is forgotten
once that run is terminal: the next call with the key creates another run.

Where the second lookup only ever finds runs that carry the key of the call,
keys are permanent: the run a key was answered with has the key in its row, no
operation rewrites or deletes it, and every later call finds it first.
-/

namespace Workflow

open EchoDesk Transaction Transition OrderedLog Outbox List Option Function Sys

variable {δ : Type}
variable {row : RunRow}
variable {call : CreateCall δ} {scope : Scope} {created : Bool}

/-! ## Stored runs keep their identity -/

theorem SameIdentity.refl (row : RunRow) : SameIdentity row row := rfl

theorem SameIdentity.trans {a b c : RunRow} (hab : SameIdentity a b) (hbc : SameIdentity b c) :
    SameIdentity a c := by
  rw [SameIdentity, hbc, hab]

theorem SameIdentity.key {old new : RunRow} (h : SameIdentity old new) : new.key = old.key := by
  rw [h]
  rfl

variable {db db' : Db δ} {runId : String} {ctx : Context} {body : WorkflowRunCreate} (s : Sys δ)
variable (l : Lbl δ)

theorem identity_effect {e : Entry} (h : Effect db e db') (hrow : row ∈ db.runs) :
    ∃ row' ∈ db'.runs, SameIdentity row row' := by
  by_cases hkey : row.key = e.run.key
  · refine ⟨e.run, h.mem_runs.2 (.inl rfl), ?_⟩
    have hprior := h.runs.mem_prior.1 ⟨hrow, hkey⟩
    cases hreport : e.report with
    | created =>
      rw [hreport] at hprior
      cases hprior
    | changed kind old =>
      rw [hreport] at hprior
      cases hprior
      exact (h.of_changed hreport).2.identity
    | noted =>
      rw [hreport] at hprior
      exact some.inj hprior ▸ .refl _
  · exact ⟨row, h.mem_runs.2 (.inr ⟨hrow, hkey⟩), .refl row⟩

/-- A row stored after an entry was stored before it, or the entry created it. -/
theorem Effect.origin {e : Entry} (h : Effect db e db') (hrow : row ∈ db'.runs) :
    (∃ old ∈ db.runs, SameIdentity old row) ∨ (e.report = .created ∧ row = e.run) := by
  rcases h.mem_runs.1 hrow with rfl | ⟨hmem, _⟩
  · cases hreport : e.report with
    | created => exact .inr ⟨rfl, rfl⟩
    | changed kind old =>
      exact .inl ⟨old, (h.of_changed hreport).1, (h.of_changed hreport).2.identity⟩
    | noted => exact .inl ⟨_, h.of_noted hreport, .refl _⟩
  · exact .inl ⟨row, hmem, .refl row⟩

theorem identity_journal {es : List Entry} (h : Journal db es db') (hrow : row ∈ db.runs) :
    ∃ row' ∈ db'.runs, SameIdentity row row' := by
  induction h generalizing row with
  | nil => exact ⟨row, hrow, .refl row⟩
  | domain effect _ ih => exact ih (effect.runs ▸ hrow)
  | entry effect _ ih =>
    rcases identity_effect effect hrow with ⟨row₁, h₁, hs₁⟩
    rcases ih h₁ with ⟨row₂, h₂, hs₂⟩
    exact ⟨row₂, h₂, hs₁.trans hs₂⟩

/-- No step deletes a run or rewrites the columns that say what it is. -/
theorem identity_step [DomainTables δ] (hrow : row ∈ s.db.runs) :
    ∃ row' ∈ (step s l).db.runs, SameIdentity row row' := by
  cases step_cases s l with
  | same h => exact ⟨row, h ▸ hrow, .refl row⟩
  | leases h => exact ⟨row, by rwa [h.rest], .refl row⟩
  | outbox table h => exact ⟨row, by rwa [h], .refl row⟩
  | journal es h entries => exact identity_journal h hrow

/-- A run of the scope carries the idempotency key. -/
def Keyed (db : Db δ) (scope : Scope) (key runId : String) : Prop :=
  ∃ row ∈ db.runs, row.scope = scope ∧ row.idempotencyKey = some key ∧ row.runId = runId

theorem keyed_step [DomainTables δ] {key : String} (h : Keyed s.db scope key runId) :
    Keyed (step s l).db scope key runId := by
  rcases h with ⟨row, hrow, rfl, hkey, rfl⟩
  rcases identity_step s l hrow with ⟨row', hrow', hsame⟩
  have hk := hsame.key
  refine ⟨row', hrow', congrArg RunKey.scope hk, ?_, congrArg RunKey.runId hk⟩
  rw [hsame]
  exact hkey

/-! ## What the lookups find -/

theorem lookupIdempotency_keyed (h : lookupIdempotency db ctx body = some row) {key : String}
    (hkey : truthy body.idempotencyKey = some key) : Keyed db ctx.scope key row.runId := by
  rw [lookupIdempotency, hkey] at h
  rcases Table.mem_of_lookup h with ⟨hmem, hsel⟩
  rcases of_decide_eq_true hsel with ⟨hscope, hk⟩
  exact ⟨row, hmem, hscope, hk, rfl⟩

/-- The run that carries a key is what its lookup finds. -/
theorem Keyed.lookup {key : String} (h : Keyed db ctx.scope key runId)
    (hkey : truthy body.idempotencyKey = some key) :
    ∃ row, lookupIdempotency db ctx body = some row ∧ row.runId = runId := by
  rcases h with ⟨row, hrow, hscope, hk, hid⟩
  refine ⟨row, ?_, hid⟩
  rw [lookupIdempotency, hkey, bind_some, Db.byIdempotency, Table.lookup_eq_some]
  · exact ⟨hrow, by simp [hscope, hk]⟩
  intro a b ha hb
  rcases of_decide_eq_true ha with ⟨hsa, hka⟩
  rcases of_decide_eq_true hb with ⟨hsb, hkb⟩
  exact .inr (.inl ⟨hsa.trans hsb.symm, by rw [hka]; simp, hka.trans hkb.symm⟩)

theorem lookupActive_mem (h : lookupActive db ctx body = some row) :
    row ∈ db.runs ∧ row.scope = ctx.scope := by
  rcases bind_eq_some_iff.1 h with ⟨key, _, hlookup⟩
  rcases Table.mem_of_lookup hlookup with ⟨hmem, hsel⟩
  exact ⟨hmem, (of_decide_eq_true hsel).1⟩

/-! ## What a call returns -/

/-- The statement is one of the two lookups by active key. -/
def CreatePhase.readsActive : CreatePhase → Bool
  | .lookupActive => true
  | .recoverActive => true
  | _ => false

/-- Where the run that a call returns comes from. -/
inductive Answer (s s' : Sys δ) (call : CreateCall δ) : String → Bool → Prop where
  | found {row : RunRow} (h : lookupIdempotency s.db call.ctx call.body = some row) :
      Answer s s' call row.runId false
  | coalesced {row : RunRow} (phase : call.phase.readsActive = true)
      (h : lookupActive s.db call.ctx call.body = some row) : Answer s s' call row.runId false
  | created (h : call.newRow ∈ s'.db.runs) : Answer s s' call call.newRow.runId true

/-- What the next statement of a creation does to the call. -/
inductive CallStep (s : Sys δ) (id : Nat) (call : CreateCall δ) (s' : Sys δ) : Prop where
  /-- It goes on, or ends without returning a run. -/
  | continues (next : Option (CreateCall δ))
      (hnext : ∀ c, next = some c → ∃ phase, c = { call with phase := phase })
      (hcalls : s'.calls = Function.update s.calls id next) (hreturned : s'.returned = s.returned)
  | returns (htask : call.task = none) (runId : String) (created : Bool)
      (hcalls : s'.calls = Function.update s.calls id none)
      (hreturned : s'.returned = s.returned ++ [⟨id, call.ctx.scope, call.key, runId, created⟩])
      (answer : Answer s s' call runId created)

theorem CallStep.of_finish {s t : Sys δ} {id : Nat} {record : WorkflowRunRecord}
    (hcalls : t.calls = s.calls) (hreturned : t.returned = s.returned)
    (answer : Answer s (t.finish id call record created) call record.runId created) :
    CallStep s id call (t.finish id call record created) := by
  cases htask : call.task with
  | none =>
    refine .returns htask record.runId created ?_ ?_ answer <;>
      simp [finish, htask, setCall, hcalls, hreturned]
  | some task =>
    refine .continues (if created then none else some { call with phase := .link record }) ?_ ?_ ?_
    · intro c hc
      split at hc
      · cases hc
      · cases hc
        exact ⟨_, rfl⟩
    · simp [finish, htask, setCall, hcalls]
    · simp [finish, htask, setCall, hreturned]

theorem CallStep.of_setCall (id : Nat) (call : CreateCall δ) {next : Option (CreateCall δ)}
    (hnext : ∀ c, next = some c → ∃ phase, c = { call with phase := phase }) :
    CallStep s id call (s.setCall id next) := .continues next hnext rfl rfl

theorem advance_callStep [DomainTables δ] (id : Nat) (call : CreateCall δ) :
    CallStep s id call (s.advance id call) := by
  have hnone : ∀ c : CreateCall δ, none = some c → ∃ phase, c = { call with phase := phase } :=
    fun c h => by cases h
  have hphase : ∀ phase : CreatePhase, ∀ c, some { call with phase := phase } = some c →
      ∃ phase, c = { call with phase := phase } := by
    rintro phase _ ⟨⟩
    exact ⟨phase, rfl⟩
  unfold advance
  split
  · split
    · rename_i row hrow
      exact .of_finish rfl rfl (.found hrow)
    · exact .of_setCall s id call (hphase _)
  · rename_i hp
    split
    · rename_i row hrow
      exact .of_finish rfl rfl (.coalesced (by rw [hp]; rfl) hrow)
    · exact .of_setCall s id call (hphase _)
  · split
    · rename_i record db hres
      rcases insertBody_commits (insertBody_of_ok hres) with ⟨rfl, hmem, _⟩
      refine .of_finish rfl rfl (.created ?_)
      rwa [finish_db]
    · refine .of_setCall s id call ?_
      split
      · exact hnone
      · exact hphase _
    · exact .of_setCall s id call hnone
  · split
    · rename_i row hrow
      exact .of_finish rfl rfl (.found hrow)
    · exact .of_setCall s id call (hphase _)
  · rename_i hp
    split
    · rename_i row hrow
      exact .of_finish rfl rfl (.coalesced (by rw [hp]; rfl) hrow)
    · exact .of_setCall s id call hnone
  · exact .continues none hnone rfl rfl

@[simp] theorem advance_nextCall [DomainTables δ] (id : Nat) (call : CreateCall δ) :
    (s.advance id call).nextCall = s.nextCall := by
  have hfinish : ∀ (t : Sys δ) (record : WorkflowRunRecord) (created : Bool),
      (t.finish id call record created).nextCall = t.nextCall := fun t record created => by
    unfold finish
    split <;> rfl
  unfold advance
  split
  case h_6 => rfl
  all_goals split <;> simp [hfinish, setCall]

/-- What a step does to the calls in flight. -/
inductive CallsStep [DomainTables δ] (s : Sys δ) (l : Lbl δ) (s' : Sys δ) : Prop where
  | same (hnext : s'.nextCall = s.nextCall) (hcalls : s'.calls = s.calls)
      (hreturned : s'.returned = s.returned)
  | enters (call : CreateCall δ) (hl : l = .create call) (hnext : s'.nextCall = s.nextCall + 1)
      (hcalls : s'.calls = Function.update s.calls s.nextCall
        (some { call with phase := .lookupIdempotency }))
      (hreturned : s'.returned = s.returned)
  | leaves (id : Nat) (hnext : s'.nextCall = s.nextCall)
      (hcalls : s'.calls = Function.update s.calls id none) (hreturned : s'.returned = s.returned)
  | moves (id : Nat) (call : CreateCall δ) (hl : l = .advance id) (hcall : s.calls id = some call)
      (hstep : s' = s.advance id call)

theorem step_calls [DomainTables δ] : CallsStep s l (step s l) := by
  cases l with
  | create call => exact .enters call rfl rfl rfl rfl
  | advance id =>
    cases hcall : s.calls id with
    | none => simp only [step, hcall]; exact .same rfl rfl rfl
    | some call => simp only [step, hcall]; exact .moves id call rfl hcall rfl
  | drop id => exact .leaves id rfl rfl rfl
  | claimRunForExecution ctx runId holderId ttlSeconds | outbox table =>
    simp only [step]
    split <;> exact .same rfl rfl rfl
  | _ => exact .same rfl rfl rfl

/-! ## Keys are permanent -/

/-- The call is a `create_run` call of the scope with the idempotency key. -/
def CreateCall.Uses (call : CreateCall δ) (scope : Scope) (key : String) : Prop :=
  call.task = none ∧ call.ctx.scope = scope ∧ call.key = some key

/-- The next statement of the call returns the run `runId` and does nothing else. -/
def Repeats [DomainTables δ] (s : Sys δ) (id : Nat) (scope : Scope) (key runId : String) : Prop :=
  step s (.advance id) =
    { s.setCall id none with returned := s.returned ++ [⟨id, scope, some key, runId, false⟩] }

/-- Once some `create_run` call was answered with a run under an idempotency
key, every call with this key that enters later is answered with the same run
by its first statement, and creates none. -/
def KeysPermanent [DomainTables δ] (s : Sys δ) (trace : List (Lbl δ)) : Prop :=
  ∀ before between after, trace = before ++ between ++ after →
    ∀ r ∈ (run step s before).returned, ∀ key, r.idempotencyKey = some key →
      ∀ id call, (run step s before).nextCall ≤ id →
        (run step s (before ++ between)).calls id = some call → call.Uses r.scope key →
          Repeats (run step s (before ++ between)) id r.scope key r.runId

/-- The lookup by active key of a call with an idempotency key finds only runs
that carry this key. -/
def CoalescesOwnKey (s : Sys δ) : Lbl δ → Prop
  | .advance id => ∀ call ∈ s.calls id, call.task.isNone → call.phase.readsActive →
      ∀ key ∈ call.key, ∀ row ∈ lookupActive s.db call.ctx call.body, row.idempotencyKey = some key
  | _ => True

instance (s : Sys δ) (l : Lbl δ) : Decidable (CoalescesOwnKey s l) :=
  match l with
  | .advance _ => inferInstanceAs (Decidable (∀ _, _))
  | .create _ | .drop _ | .op _ _ | .claimRunForExecution _ _ _ _ | .renewRunLease _ _ _
  | .releaseRunLease _ _ | .outbox _ => .isTrue trivial

/-- Every answer under a key is a run that carries the key, and the numbers of
later calls are free. -/
structure Answered (s : Sys δ) : Prop where
  keyed : ∀ r ∈ s.returned, ∀ key, r.idempotencyKey = some key → Keyed s.db r.scope key r.runId
  fresh : ∀ id, s.nextCall ≤ id → s.calls id = none

theorem answer_keyed {s s' : Sys δ} (h : Answer s s' call runId created) {key : String}
    (hkey : call.key = some key)
    (hdb : ∀ {row}, row ∈ s.db.runs → ∃ row' ∈ s'.db.runs, SameIdentity row row')
    (hown : call.phase.readsActive = true →
      ∀ row, lookupActive s.db call.ctx call.body = some row → row.idempotencyKey = some key) :
    Keyed s'.db call.ctx.scope key runId := by
  have hkept : ∀ {runId}, Keyed s.db call.ctx.scope key runId →
      Keyed s'.db call.ctx.scope key runId := by
    rintro runId ⟨row, hrow, hscope, hk, hid⟩
    rcases hdb hrow with ⟨row', hrow', hsame⟩
    have hsk := hsame.key
    refine ⟨row', hrow', (congrArg RunKey.scope hsk).trans hscope, ?_,
      (congrArg RunKey.runId hsk).trans hid⟩
    rw [hsame]
    exact hk
  cases h with
  | found h => exact hkept (lookupIdempotency_keyed h hkey)
  | coalesced phase h =>
    rcases lookupActive_mem h with ⟨hmem, hscope⟩
    exact hkept ⟨_, hmem, hscope, hown phase _ h, rfl⟩
  | created h =>
    have hk : call.body.idempotencyKey = some key := (filter_eq_some_iff.1 hkey).1
    exact ⟨_, h, rfl, hk, rfl⟩

theorem answered_step [DomainTables δ] (s : Sys δ) (l : Lbl δ) (hg : CoalescesOwnKey s l)
    (hi : Answered s) : Answered (step s l) := by
  have hkept : ∀ r ∈ s.returned, ∀ key, r.idempotencyKey = some key →
      Keyed (step s l).db r.scope key r.runId := fun r hr key hk =>
    keyed_step s l (hi.keyed r hr key hk)
  cases step_calls s l with
  | same hnext hcalls hreturned =>
    exact ⟨by rwa [hreturned], fun id hid => by rw [hcalls]; exact hi.fresh id (hnext ▸ hid)⟩
  | enters call hl hnext hcalls hreturned =>
    refine ⟨by rwa [hreturned], fun id hid => ?_⟩
    rw [hcalls, update_of_ne (by omega)]
    exact hi.fresh id (by omega)
  | leaves i hnext hcalls hreturned =>
    refine ⟨by rwa [hreturned], fun id hid => ?_⟩
    by_cases h : id = i
    · rw [hcalls, h, update_self]
    · rw [hcalls, update_of_ne h]
      exact hi.fresh id (hnext ▸ hid)
  | moves i call hl hcall hstep =>
    have hfresh : ∀ next : Option (CreateCall δ), ∀ id, s.nextCall ≤ id →
        Function.update s.calls i next id = none := fun next id hid => by
      have : id ≠ i := fun h => by
        rw [← h, hi.fresh id hid] at hcall
        cases hcall
      rw [update_of_ne this]
      exact hi.fresh id hid
    have hnext : (step s l).nextCall = s.nextCall := by rw [hstep, advance_nextCall]
    have hcs := advance_callStep s i call
    rw [← hstep] at hcs
    cases hcs with
    | continues next _ hcalls hreturned =>
      exact ⟨by rwa [hreturned], fun id hid => by rw [hcalls]; exact hfresh _ id (hnext ▸ hid)⟩
    | returns htask runId created hcalls hreturned answer =>
      refine ⟨fun r hr key hk => ?_, fun id hid => by rw [hcalls]; exact hfresh _ id (hnext ▸ hid)⟩
      rw [hreturned] at hr
      rcases mem_append.1 hr with hr | hr
      · exact hkept r hr key hk
      obtain rfl := mem_singleton.1 hr
      subst hl
      exact answer_keyed answer hk (fun hrow => identity_step s _ hrow)
        fun hphase => hg call hcall (by rw [htask]; rfl) hphase key hk

/-- After an answer under a key, a call that entered later and uses the key has
not run its first statement yet. -/
structure Waiting (scope : Scope) (key runId : String) (first : Nat) (s : Sys δ) : Prop where
  keyed : Keyed s.db scope key runId
  next : first ≤ s.nextCall
  waiting : ∀ id call, first ≤ id → s.calls id = some call → call.Uses scope key →
    call.phase = .lookupIdempotency

/-- The first statement of a call whose key is carried by a run returns it. -/
theorem repeats_of_keyed [DomainTables δ] {s : Sys δ} {id : Nat} {key : String}
    (hcall : s.calls id = some call) (huses : call.Uses scope key)
    (hphase : call.phase = .lookupIdempotency) (hkeyed : Keyed s.db scope key runId) :
    Repeats s id scope key runId := by
  rcases huses with ⟨htask, rfl, hkey⟩
  rcases hkeyed.lookup hkey with ⟨row, hrow, rfl⟩
  simp only [Repeats, step, hcall, advance, hphase, hrow, finish, htask, hkey,
    isSome_none, Bool.false_eq_true, if_false]

theorem waiting_step [DomainTables δ] {key : String} {first : Nat} (s : Sys δ) (l : Lbl δ)
    (hi : Waiting scope key runId first s) : Waiting scope key runId first (step s l) := by
  have hkeyed := keyed_step s l hi.keyed
  cases step_calls s l with
  | same hnext hcalls _ => exact ⟨hkeyed, hnext ▸ hi.next, by rw [hcalls]; exact hi.waiting⟩
  | enters call hl hnext hcalls _ =>
    refine ⟨hkeyed, by rw [hnext]; exact Nat.le_succ_of_le hi.next, fun id c hid hc huses => ?_⟩
    rw [hcalls] at hc
    by_cases h : id = s.nextCall
    · rw [h, update_self] at hc
      cases hc
      rfl
    · rw [update_of_ne h] at hc
      exact hi.waiting id c hid hc huses
  | leaves i hnext hcalls _ =>
    refine ⟨hkeyed, hnext ▸ hi.next, fun id c hid hc huses => ?_⟩
    rw [hcalls] at hc
    by_cases h : id = i
    · rw [h, update_self] at hc
      cases hc
    · rw [update_of_ne h] at hc
      exact hi.waiting id c hid hc huses
  | moves i call hl hcall hstep =>
    refine ⟨hkeyed, by rw [hstep, advance_nextCall]; exact hi.next, fun id c hid hc huses => ?_⟩
    by_cases h : id = i
    · -- a call that uses the key has returned; no other one changes its key
      subst h
      by_cases hu : call.Uses scope key
      · have hrep := repeats_of_keyed hcall hu (hi.waiting id call hid hcall hu) hi.keyed
        subst hl
        rw [Repeats] at hrep
        rw [hrep] at hc
        simp [setCall] at hc
      exfalso
      have hcs := advance_callStep s id call
      rw [← hstep] at hcs
      cases hcs with
      | continues next hnext hcalls _ =>
        rw [hcalls, update_self] at hc
        rcases hnext c hc with ⟨phase, rfl⟩
        exact hu huses
      | returns _ _ _ hcalls _ _ =>
        rw [hcalls, update_self] at hc
        cases hc
    · have hcalls : (step s l).calls id = s.calls id := by
        have hcs := advance_callStep s i call
        rw [← hstep] at hcs
        cases hcs with
        | continues next _ hcalls _ | returns _ _ _ hcalls _ _ =>
          rw [hcalls, update_of_ne h]
      exact hi.waiting id c hid (hcalls ▸ hc) huses

/-- Idempotency keys are permanent along every run in which the lookup by active
key of a keyed call only ever finds runs that carry the key. -/
theorem keysPermanent_of_coalescesOwnKey [DomainTables δ] (domain : δ) (trace : List (Lbl δ))
    (hg : Meets step CoalescesOwnKey (Sys.start domain) trace) :
    KeysPermanent (Sys.start domain) trace := by
  rintro before between after rfl r hr key hkey id call hid hcall huses
  rw [List.append_assoc, meets_append] at hg
  have hans : Answered (run step (Sys.start domain) before) :=
    run_invariant_of_meets answered_step hg.1 ⟨fun _ h => absurd h not_mem_nil, fun _ _ => rfl⟩
  have hwait : Waiting r.scope key r.runId (run step (Sys.start domain) before).nextCall
      (run step (run step (Sys.start domain) before) between) := by
    refine run_invariant waiting_step ⟨hans.keyed r hr key hkey, le_rfl, ?_⟩ between
    intro i c hi hc
    rw [hans.fresh i hi] at hc
    cases hc
  rw [← run_append] at hwait
  exact repeats_of_keyed hcall huses (hwait.waiting id call hid hcall huses) hwait.keyed

/-! ## Two short runs of the service -/

/-- The caller of the runs below. -/
def phone : Context := { principal := ⟨"tenant", "phone", "owner"⟩ }

/-- `create_run` under a key, for the active run of one meeting. -/
def createKeyed (key runId : String) : Lbl Unit :=
  .create
    { ctx := phone
      body :=
        { kind := "summary", intentText := "summary", idempotencyKey := some key
          activeKey := some "meeting" }
      runId := runId }

/-- A request is repeated after its run has ended. -/
def repeatedRequest : List (Lbl Unit) :=
  [createKeyed "k" "first", .advance 0, .advance 0, .advance 0,
    .op phone (.setState "first" .startRun none [] none),
    .op phone (.setState "first" (.completeRun none none) none [] none),
    createKeyed "k" "second", .advance 1]

/-- The repeated request finds the ended run. -/
theorem keysPermanent_repeatedRequest : Meets step CoalescesOwnKey (Sys.start ()) repeatedRequest ∧
      (run step (Sys.start ()) repeatedRequest).returned =
        [⟨0, ⟨"tenant", "owner"⟩, some "k", "first", true⟩,
          ⟨1, ⟨"tenant", "owner"⟩, some "k", "first", false⟩] ∧
      KeysPermanent (Sys.start ()) repeatedRequest :=
  ⟨by decide +kernel, by decide +kernel,
    keysPermanent_of_coalescesOwnKey () repeatedRequest (by decide +kernel)⟩

/-- A request is coalesced with the run of another key, and repeated after that
run has ended. -/
def coalescedRequest : List (Lbl Unit) :=
  [createKeyed "other" "first", .advance 0, .advance 0, .advance 0,
    createKeyed "k" "second", .advance 1, .advance 1,
    .op phone (.setState "first" .startRun none [] none),
    .op phone (.setState "first" (.completeRun none none) none [] none),
    createKeyed "k" "third", .advance 2, .advance 2, .advance 2]

/-- The repeated request creates a second run under its key. -/
theorem not_keysPermanent_coalescedRequest : (run step (Sys.start ()) coalescedRequest).returned =
        [⟨0, ⟨"tenant", "owner"⟩, some "other", "first", true⟩,
          ⟨1, ⟨"tenant", "owner"⟩, some "k", "first", false⟩,
          ⟨2, ⟨"tenant", "owner"⟩, some "k", "third", true⟩] ∧
      ¬ KeysPermanent (Sys.start ()) coalescedRequest := by
  refine ⟨by decide +kernel, fun h => ?_⟩
  -- the third call has entered and not run a statement
  have hcall : ((run step (Sys.start ()) (coalescedRequest.take 10)).calls 2).map
      (fun call => (call.task.isNone, call.ctx.scope, call.key)) =
        some (true, ⟨"tenant", "owner"⟩, some "k") := by decide +kernel
  rcases Option.map_eq_some_iff.1 hcall with ⟨call, hcall, huses⟩
  simp only [Prod.mk.injEq, Option.isNone_iff_eq_none] at huses
  have hrepeats := h (coalescedRequest.take 7) ((coalescedRequest.take 10).drop 7)
    (coalescedRequest.drop 10) rfl ⟨1, ⟨"tenant", "owner"⟩, some "k", "first", false⟩
    (by decide +kernel) "k" rfl 2 call (by decide +kernel) hcall huses
  have hreturned := congrArg Sys.returned hrepeats
  revert hreturned
  decide +kernel

end Workflow
