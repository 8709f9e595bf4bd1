import EchoDesk.Stt.Scheduler

/-! # What a step of the scheduler can do

One lemma for each operation of a worker: all it can leave, with the conditions it
does so under.
-/

namespace Stt

open Transition List

variable {config : Config} {s : Scheduler}

/-- A worker takes the first job for dispatch, or else the first of the backlog, or else waits. -/
theorem nextJob_cases (s : Scheduler) (w : Nat) : (∃ job rest, s.dispatchQueue = job :: rest ∧
      s.nextJob w = { s.setPhase w (.taken job) with
        dispatchQueue := rest
        dispatchReserved := s.dispatchReserved - 1
        activeJobs := s.activeJobs + 1 }) ∨
    (∃ job rest, s.dispatchQueue = [] ∧ s.queue = job :: rest ∧
      s.nextJob w = { s.setPhase w (.taken job) with
        queue := rest
        activeJobs := s.activeJobs + 1 }) ∨
    (s.dispatchQueue = [] ∧ s.queue = [] ∧ s.nextJob w =
        { s.setPhase w (.waiting false) with workAvailable := false, current := none }) := by
  unfold Scheduler.nextJob
  split
  · rename_i job rest hdispatch
    exact .inl ⟨job, rest, hdispatch, rfl⟩
  · rename_i job rest hdispatch hqueue
    exact .inr (.inl ⟨job, rest, hdispatch, hqueue, rfl⟩)
  · rename_i hdispatch hqueue
    exact .inr (.inr ⟨hdispatch, hqueue, rfl⟩)

/-- The future of a job after it ended. -/
def Job.ended (result : JobEnd) (j : Job) : Job :=
  { j with future := if j.future = .pending then result.future.getD j.future else j.future }

/-- The scheduler after a job ended, before its worker goes on. -/
def Scheduler.ended (s : Scheduler) (job : Nat) (result : JobEnd) : Scheduler :=
  { s with
    jobs := s.jobs.modify job (Job.ended result)
    acceptedCount := s.acceptedCount - 1
    activeJobs := s.activeJobs - 1
    scopeStates :=
      match (s.jobs.modify job (Job.ended result))[job]? with
      | some j => Function.update s.scopeStates j.scopeKey
          { s.scopeStates j.scopeKey with inFlight := (s.scopeStates j.scopeKey).inFlight - 1 }
      | none => s.scopeStates }

/-- A worker goes on after its job, unless the cancellation of the provider ended it or the
future of the job was left pending. -/
theorem endJob_cases (s : Scheduler) (w job : Nat) (result : JobEnd) :
    (s.endJob w job result = (s.ended job result).awaitWork w ∧ result ≠ .cancelledError ∧
      (s.ended job result).jobs[job]?.any (fun j => j.future ≠ .pending) = true) ∨
    (s.endJob w job result = { (s.ended job result).setPhase w .dead with current := none } ∧
      (result = .cancelledError ∨
        (s.ended job result).jobs[job]?.any (fun j => j.future ≠ .pending) = false)) := by
  unfold Scheduler.endJob Scheduler.finishJob
  dsimp only
  split
  · rename_i h
    exact .inl ⟨rfl, h.2, h.1⟩
  rename_i h
  right
  refine ⟨rfl, ?_⟩
  by_cases hresult : result = .cancelledError
  · exact .inl hresult
  right
  apply Bool.eq_false_iff.2
  intro hdone
  exact h ⟨hdone, hresult⟩

/-- The provider that was selected is waited for. -/
def Scheduler.reserved (config : Config) (s : Scheduler) (tried : List String) (selectedAt : Int)
    (name : String) : Scheduler :=
  (s.reserveProbes (s.candidates config tried selectedAt)).setState name fun state =>
    { state with waiting := state.waiting + 1 }

/-- A turn of `_execute` ends the job with an error, or selects a provider. -/
theorem execute_cases (config : Config) (s : Scheduler) (w job : Nat) (attempt : Attempt)
    (now selectedAt : Int) :
    (∃ error, s.execute config w job attempt now selectedAt =
      s.endJob w job (.value (.exception error))) ∨
    ∃ name, attempt.attempt < config.maxAttempts ∧
      s.selected config (s.candidates config attempt.tried selectedAt) = some name ∧
      s.execute config w job attempt now selectedAt =
        { (s.reserved config attempt.tried selectedAt name).setPhase w
            (.acquiring job { attempt with tried := attempt.tried ++ [name] } name) with
          current := none } := by
  unfold Scheduler.execute
  split
  · exact .inl ⟨_, rfl⟩
  rename_i hattempt
  split
  · exact .inl ⟨_, rfl⟩
  dsimp only
  split
  · exact .inl ⟨_, rfl⟩
  · rename_i name hselected
    exact .inr ⟨name, Nat.lt_of_not_le hattempt, hselected, rfl⟩

/-- The call failed: the job ends with the error, or the next attempt is made. -/
theorem failover_cases (s : Scheduler) (w job : Nat) (attempt : Attempt) (error : AsrError) :
    s.failover config w job attempt error = s.endJob w job (.value (.exception error)) ∨
    ∃ attempt', attempt'.attempt = attempt.attempt + 1 ∧ attempt.attempt + 1 < config.maxAttempts ∧
      s.failover config w job attempt error =
        { s.setPhase w (.executing job attempt') with current := some w } := by
  unfold Scheduler.failover
  split
  · exact .inl rfl
  split
  · rename_i hattempt
    exact .inr ⟨_, rfl, hattempt, rfl⟩
  · exact .inl rfl

/-- The state of a provider after a call to it ended. -/
def ProviderState.after (config : Config) (state : ProviderState) (acquired : Bool)
    (outcome : CallOutcome) (now : Int) : ProviderState :=
  match outcome with
  | .result => (state.leave acquired).recordSuccess
  | .cancelled => state.leave acquired
  | _ => (state.leave acquired).recordFailure config now

/-- The scheduler after a call ended, before its worker goes on. -/
def Scheduler.left (config : Config) (s : Scheduler) (w : Nat) (name : String) (acquired : Bool)
    (outcome : CallOutcome) (now : Int) : Scheduler :=
  { s.setState name fun state => state.after config acquired outcome now with current := some w }

/-- The future of a job is not set to pending or cancelled. -/
def JobEnd.Settles (result : JobEnd) : Prop :=
  result.future ≠ some .pending ∧ result.future ≠ some .cancelled

/-- A call that ended ends the job, or its error is failed over. -/
theorem callEnds_ends (config : Config) (s : Scheduler) (w job : Nat) (attempt : Attempt)
    (name : String) (acquired : Bool) (outcome : CallOutcome) (now : Int) :
    (∃ result, (result = .cancelledError ↔ outcome = .cancelled) ∧ result ≠ .skipped ∧
      result.Settles ∧
      s.callEnds config w job attempt name acquired outcome now =
        (s.left config w name acquired outcome now).endJob w job result) ∨
    ∃ error, outcome ≠ .cancelled ∧ s.callEnds config w job attempt name acquired outcome now =
      (s.left config w name acquired outcome now).failover config w job attempt error := by
  have hstates : ∀ (f g : ProviderState → ProviderState),
      ({ s.setState name f with current := some w } : Scheduler).setState name g =
        { s.setState name (fun state => g (f state)) with current := some w } := by
    intro f g
    simp [Scheduler.setState]
  cases outcome with
  | result =>
    left
    refine ⟨.value .result, by simp, by simp, by simp [JobEnd.Settles, JobEnd.future], ?_⟩
    simp only [Scheduler.callEnds, hstates]
    rfl
  | cancelled => exact .inl ⟨.cancelledError, by simp, by simp, by simp [JobEnd.Settles, JobEnd.future], rfl⟩
  | timeout =>
    left
    refine ⟨.value (.exception .deadlineExceeded), by simp, by simp, by simp [JobEnd.Settles, JobEnd.future], ?_⟩
    simp only [Scheduler.callEnds, hstates, CallOutcome.error]
    rfl
  | malformed =>
    right
    refine ⟨.providerProtocol, by simp, ?_⟩
    simp only [Scheduler.callEnds, hstates, CallOutcome.error]
    rfl
  | raisesOther =>
    right
    refine ⟨.providerTransient, by simp, ?_⟩
    simp only [Scheduler.callEnds, hstates, CallOutcome.error]
    rfl
  | raises error =>
    by_cases hdeadline : error = .deadlineExceeded
    · left
      refine ⟨.value (.exception .deadlineExceeded), by simp, by simp, by simp [JobEnd.Settles, JobEnd.future], ?_⟩
      simp only [Scheduler.callEnds, hstates, CallOutcome.error, if_pos hdeadline]
      rfl
    · right
      refine ⟨error, by simp, ?_⟩
      simp only [Scheduler.callEnds, hstates, CallOutcome.error, if_neg hdeadline]
      rfl

/-- A call that ended ends the job, or another attempt is made. -/
theorem callEnds_cases (config : Config) (s : Scheduler) (w job : Nat) (attempt : Attempt)
    (name : String) (acquired : Bool) (outcome : CallOutcome) (now : Int) :
    (∃ result, (result = .cancelledError ↔ outcome = .cancelled) ∧ result ≠ .skipped ∧
      result.Settles ∧
      s.callEnds config w job attempt name acquired outcome now =
        (s.left config w name acquired outcome now).endJob w job result) ∨
    ∃ attempt', attempt'.attempt = attempt.attempt + 1 ∧
      attempt.attempt + 1 < config.maxAttempts ∧ outcome ≠ .cancelled ∧
      s.callEnds config w job attempt name acquired outcome now =
        { (s.left config w name acquired outcome now).setPhase w (.executing job attempt') with
          current := some w } := by
  rcases callEnds_ends config s w job attempt name acquired outcome now with h | ⟨error, hne, heq⟩
  · exact .inl h
  rcases failover_cases (s.left config w name acquired outcome now) w job attempt error with
    h | ⟨attempt', hattempt, hmax, h⟩
  · exact .inl ⟨.value (.exception error), by simp [hne], by simp, by simp [JobEnd.Settles, JobEnd.future],
      heq.trans h⟩
  · exact .inr ⟨attempt', hattempt, hmax, hne, heq.trans h⟩

/-- An admission prunes what it reads, and may enqueue the job: for an eligible provider, into
a queue that has room. -/
theorem admit_cases (config : Config) (s : Scheduler) (request : Request) (now : Int) :
    ∃ records scopes, ( s.admit config request now).2 =
        { s with idempotency := records, scopeStates := scopes } ∨
      ∃ fingerprint, config.enabled = true ∧ s.hasEligibleCandidate config now = true ∧
        s.hasRoom config = true ∧ ( s.admit config request now).2 =
          Scheduler.enqueueAdmittedJob config { s with idempotency := records, scopeStates := scopes }
            request fingerprint now := by
  unfold Scheduler.admit
  cases request.fingerprint with
  | none => exact ⟨s.idempotency, s.scopeStates, .inl rfl⟩
  | some fingerprint =>
    dsimp only
    split
    · exact ⟨_, s.scopeStates, .inl rfl⟩
    rename_i henabled
    split
    · split
      · exact ⟨_, s.scopeStates, .inl rfl⟩
      · exact ⟨_, s.scopeStates, .inl rfl⟩
    unfold Scheduler.admitNew
    dsimp only
    split
    · exact ⟨_, s.scopeStates, .inl rfl⟩
    rename_i heligible
    split
    · exact ⟨_, _, .inl rfl⟩
    split
    · exact ⟨_, _, .inl rfl⟩
    split
    · exact ⟨_, _, .inl rfl⟩
    split
    · exact ⟨_, _, .inl rfl⟩
    rename_i hroom
    refine ⟨_, _, .inr ⟨fingerprint, ?_, ?_, ?_, rfl⟩⟩
    · simpa using henabled
    · have h : (s.pruneIdempotency now).hasEligibleCandidate config now = true := by
        simpa using heligible
      exact h
    · have h : ((s.pruneIdempotency now).pruneScope request.scopeKey now).hasRoom
          config = true := by simpa using hroom
      exact h

/-! ## What the operations of a worker keep -/

/-- What is kept when the worker `w` changes its phase, the states of the providers change, or a
job ends. -/
structure WorkerKeeps (w : Nat) (P : Scheduler → Prop) : Prop where
  goes : ∀ s phase current, (∀ job attempt name, phase ≠ .acquiring job attempt name) → P s →
    P { s.setPhase w phase with current := current }
  provider : ∀ s states current, P s → P { s with states := states, current := current }
  ended : ∀ s job result, result.future ≠ some .cancelled → P s → P (s.ended job result)

namespace WorkerKeeps

variable {w job : Nat} {P : Scheduler → Prop}

section

variable (h : WorkerKeeps w P)

include h

theorem awaitWork (hs : P s) : P (s.awaitWork w) := by
  unfold Scheduler.awaitWork
  split
  · exact h.goes s _ _ nofun hs
  · exact h.goes s _ _ nofun hs

theorem endJob {result : JobEnd} (hresult : result.future ≠ some .cancelled)
    (hs : P s) : P (s.endJob w job result) := by
  rcases endJob_cases s w job result with ⟨heq, -, -⟩ | ⟨heq, -⟩
  · rw [heq]
    exact h.awaitWork (h.ended s _ _ hresult hs)
  · rw [heq]
    exact h.goes _ _ _ nofun (h.ended s _ _ hresult hs)

theorem nextJob (htakes : ∀ {s d q r a b c}, P s → P { s with
      dispatchQueue := d, queue := q, dispatchReserved := r, activeJobs := a, workAvailable := b
      current := c })
    (hs : P s) : P (s.nextJob w) := by
  rcases nextJob_cases s w with ⟨_, _, -, heq⟩ | ⟨_, _, -, -, heq⟩ | ⟨-, -, heq⟩
  · rw [heq]
    exact htakes (h.goes s (.taken _) _ nofun hs)
  · rw [heq]
    exact htakes (h.goes s (.taken _) _ nofun hs)
  · rw [heq]
    exact htakes (h.goes s (.waiting false) _ nofun hs)

theorem execute (hacquires : ∀ {s job attempt name current}, P s →
      P { s.setPhase w (.acquiring job attempt name) with current := current })
    (hs : P s) (attempt : Attempt) (now selectedAt : Int) :
    P (s.execute config w job attempt now selectedAt) := by
  rcases execute_cases config s w job attempt now selectedAt with
    ⟨error, heq⟩ | ⟨name, -, -, heq⟩
  · rw [heq]
    exact h.endJob (by simp [JobEnd.future]) hs
  · rw [heq]
    exact hacquires (h.provider s _ _ hs)

theorem callEnds (hs : P s) (attempt : Attempt) (name : String)
    (acquired : Bool) (outcome : CallOutcome) (now : Int) :
    P (s.callEnds config w job attempt name acquired outcome now) := by
  have hleft : P (s.left config w name acquired outcome now) := h.provider s _ _ hs
  rcases callEnds_cases config s w job attempt name acquired outcome now with
    ⟨result, -, -, hresult, heq⟩ | ⟨attempt', -, -, -, heq⟩
  · rw [heq]
    exact h.endJob hresult.2 hleft
  · rw [heq]
    exact h.goes _ _ _ nofun hleft

theorem resume (htakes : ∀ {s d q r a b c}, P s → P { s with
      dispatchQueue := d, queue := q, dispatchReserved := r, activeJobs := a, workAvailable := b
      current := c })
    (hacquires : ∀ {s job attempt name current}, P s →
      P { s.setPhase w (.acquiring job attempt name) with current := current })
    (hs : P s) (now selectedAt : Int) : P (s.resume config w now selectedAt) := by
  unfold Scheduler.resume
  split
  · exact h.nextJob htakes hs
  · split
    · exact h.endJob (by simp [JobEnd.future]) hs
    · exact h.goes s _ _ nofun hs
  · exact h.execute hacquires hs _ now selectedAt
  · exact hs

end

/-- What all workers keep, and the start and the callers too. -/
theorem idleStep (h : ∀ w, WorkerKeeps w P) (hs : P s) {l : Label} (hstart : P (s.start config))
    (htranscribe : ∀ request now, l = .transcribe request now →
      P (s.transcribe config request now).2)
    (hcancel : ∀ job, l = .cancel job → P (s.cancel job)) : P (s.idleStep config l) := by
  cases l with
  | start => exact hstart
  | transcribe request now => exact htranscribe request now rfl
  | cancel job => exact hcancel job rfl
  | wake w =>
    dsimp only [Scheduler.idleStep]
    split
    · exact (h w).awaitWork hs
    · exact (h w).goes s _ _ nofun hs
    · exact hs
  | resume now selectedAt => exact hs
  | acquired w =>
    dsimp only [Scheduler.idleStep]
    split
    · split
      · exact (h w).goes (s.setState _ _) _ s.current nofun ((h w).provider s _ _ hs)
      · exact hs
    · exact hs
  | acquireTimeout w now =>
    dsimp only [Scheduler.idleStep]
    split
    · exact (h w).callEnds hs _ _ _ _ now
    · exact hs
  | callEnds w outcome now =>
    dsimp only [Scheduler.idleStep]
    split
    · split
      · exact hs
      · exact (h w).callEnds hs _ _ _ outcome now
    · exact hs

/-- Either of two. -/
theorem or {Q : Scheduler → Prop} (hp : WorkerKeeps w P) (hq : WorkerKeeps w Q) :
    WorkerKeeps w fun s => P s ∨ Q s where
  goes s phase current hphase h :=
    h.imp (hp.goes s phase current hphase) (hq.goes s phase current hphase)
  provider s states current h := h.imp (hp.provider s states current) (hq.provider s states current)
  ended s job result hresult h := h.imp (hp.ended s job result hresult) (hq.ended s job result hresult)

end WorkerKeeps

/-! ## The crew of workers -/

/-- The same workers, by their number. -/
structure SameCrew (s s' : Scheduler) : Prop where
  started : s'.started = s.started
  length : s'.workers.length = s.workers.length

theorem SameCrew.refl (s : Scheduler) : SameCrew s s := ⟨rfl, rfl⟩

theorem SameCrew.trans {s₁ s₂ s₃ : Scheduler} (h : SameCrew s₁ s₂) (h' : SameCrew s₂ s₃) :
    SameCrew s₁ s₃ := ⟨h'.started.trans h.started, h'.length.trans h.length⟩

theorem workerKeeps_sameCrew (s₀ : Scheduler) (w : Nat) : WorkerKeeps w (SameCrew s₀) where
  goes _ _ _ _ h := h.trans ⟨rfl, length_set⟩
  provider _ _ _ h := h.trans ⟨rfl, rfl⟩
  ended _ _ _ _ h := h.trans ⟨rfl, rfl⟩

theorem sameCrew_setWorkAvailable (s : Scheduler) : SameCrew s s.setWorkAvailable := by
  unfold Scheduler.setWorkAvailable
  split
  · exact SameCrew.refl s
  · exact ⟨rfl, length_map _⟩

theorem sameCrew_enqueue (s : Scheduler) (request : Request) (fingerprint : String) (now : Int) :
    SameCrew s (s.enqueueAdmittedJob config request fingerprint now) := by
  unfold Scheduler.enqueueAdmittedJob
  refine SameCrew.trans ?_ (sameCrew_setWorkAvailable _)
  exact ⟨rfl, rfl⟩

theorem sameCrew_admitted (s : Scheduler) (request : Request) (now : Int) :
    SameCrew s ( s.admit config request now).2 := by
  obtain ⟨records, scopes, heq | ⟨fingerprint, -, -, -, heq⟩⟩ := admit_cases config s request now
  · rw [heq]
    exact ⟨rfl, rfl⟩
  · rw [heq]
    refine SameCrew.trans ?_ (sameCrew_enqueue _ request fingerprint now)
    exact ⟨rfl, rfl⟩

/-- Only the start changes the crew, of a scheduler that was not started. -/
theorem step_crew (config : Config) (s : Scheduler) (l : Label) :
    SameCrew s (step config s l) ∨ SameCrew (s.start config) (step config s l) := by
  unfold step
  split
  · exact .inl ((workerKeeps_sameCrew s _).resume (·.trans ⟨rfl, rfl⟩)
      (·.trans ⟨rfl, length_set⟩) (.refl s) _ _)
  · exact .inl (SameCrew.refl s)
  refine WorkerKeeps.idleStep (fun w => (workerKeeps_sameCrew s w).or (workerKeeps_sameCrew _ w))
    (.inl (.refl s)) (.inr (.refl _)) ?_ ?_
  · intro request now _
    unfold Scheduler.transcribe
    split
    · exact .inl (SameCrew.refl s)
    · exact .inr (sameCrew_admitted _ request now)
  · exact fun job _ => .inl ⟨rfl, length_map _⟩

/-- The workers the configuration calls for. -/
def Config.crew (config : Config) : Nat :=
  if config.enabled && hasConfiguredCandidate config then config.maxConcurrency else 0

/-- The crew is complete once the scheduler was started, and there is none before. -/
def Staffed (config : Config) (s : Scheduler) : Prop :=
  s.workers.length = if s.started then config.crew else 0

theorem staffed_start (h : Staffed config s) : Staffed config (s.start config) := by
  unfold Scheduler.start
  split
  · exact h
  rename_i hstarted
  have hnone : s.workers.length = 0 := by
    rw [Staffed, if_neg hstarted] at h
    exact h
  split
  · rename_i hcandidate
    rw [Staffed, if_pos rfl, Config.crew, if_neg]
    · exact hnone
    intro hboth
    simp only [Bool.and_eq_true] at hboth
    simp [hboth.1, hboth.2] at hcandidate
  · rename_i hcandidate
    rw [Staffed, if_pos rfl, Config.crew, if_pos]
    · exact length_replicate
    · simpa using hcandidate

theorem SameCrew.staffed {s' : Scheduler} (h : SameCrew s s') (hs : Staffed config s) :
    Staffed config s' := by
  rw [Staffed, h.length, h.started]
  exact hs

theorem staffed_step (h : Staffed config s) (l : Label) : Staffed config (step config s l) := by
  rcases step_crew config s l with hcrew | hcrew
  · exact hcrew.staffed h
  · exact hcrew.staffed (staffed_start h)

end Stt
