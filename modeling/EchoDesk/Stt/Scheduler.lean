import EchoDesk.Core.Data
import EchoDesk.Foundations.Transition

/-! # The ASR scheduler

`app/adapters/stt/scheduler.py`: bounded admission into a dispatch queue and a
backlog, workers that take jobs from both, and providers with a circuit breaker
each.

A coroutine runs until it waits for something, and no body under the state lock
waits, so the worker that runs is kept in `current` and nothing else happens
meanwhile. One step of it is what it does between two readings of the clock. Times
are whole numbers of microseconds, and weights are scaled to whole numbers.
-/

namespace Stt

open Transition

/-- The errors of `errors.py` that the scheduler raises or tells apart. -/
inductive AsrError where
  | idempotencyConflict | rateLimited | queueFull | noEligibleProvider | deadlineExceeded
  | schedulerDisabled | schedulerShutdown | audioRejected
  | providerTransient | providerRateLimited | providerPermanent | providerAuth | providerProtocol
  | providerMidstream
deriving DecidableEq

/-- The class attribute `retryable`. -/
def AsrError.retryable : AsrError → Bool
  | .rateLimited | .queueFull | .noEligibleProvider | .schedulerShutdown | .providerTransient
  | .providerRateLimited => true
  | _ => false

/-- `ASRProviderBinding`. -/
structure Binding where
  weight : Nat
  maxConcurrency : Nat
  enabled : Bool
  authReady : Bool
  weight_pos : 0 < weight
  maxConcurrency_pos : 0 < maxConcurrency

/-- `ASRSchedulerConfig`, as far as the queue uses it, with the checks it makes, and the
providers of the scheduler. -/
structure Config where
  enabled : Bool
  eligibleProviders : List String
  providers : List (String × Binding)
  maxConcurrency : Nat
  queueSize : Nat
  jobDeadline : Int
  maxAttempts : Nat
  circuitFailureThreshold : Nat
  circuitCooldown : Int
  scopeMaxConcurrency : Nat
  scopeRateLimitPerMinute : Nat
  eligibleProviders_nodup : eligibleProviders.Nodup
  maxConcurrency_pos : 0 < maxConcurrency
  jobDeadline_pos : 0 < jobDeadline
  maxAttempts_pos : 0 < maxAttempts
  circuitFailureThreshold_pos : 0 < circuitFailureThreshold
  circuitCooldown_pos : 0 < circuitCooldown
  scopeMaxConcurrency_pos : 0 < scopeMaxConcurrency

/-- `CircuitState`. -/
inductive CircuitState where
  | closed | open' | halfOpen
deriving DecidableEq

/-- `_ProviderState`, with the value of the semaphore of the provider. -/
structure ProviderState where
  circuitState : CircuitState
  consecutiveFailures : Nat
  openUntil : Option Int
  halfOpenProbeReserved : Bool
  inFlight : Nat
  waiting : Nat
  semaphore : Nat

/-- `context.scope_key`. -/
structure ScopeKey where
  tenant : String
  principal : String
  device : String
deriving DecidableEq

/-- `_ScopeState`. -/
structure ScopeState where
  inFlight : Nat
  requestTimes : List Int

/-- The future of a job. -/
inductive JobFuture where
  | pending | result
  | exception (error : AsrError)
  | cancelled
deriving DecidableEq

/-- `_QueuedJob`. -/
structure Job where
  scopeKey : ScopeKey
  deadlineAt : Int
  cancelled : Bool
  future : JobFuture

/-- `_IdempotencyRecord` under its key. -/
structure IdempotencyRecord where
  scopeKey : ScopeKey
  key : String
  fingerprint : String
  expiresAt : Int
  job : Nat

/-- A call of `transcribe`. -/
structure Request where
  /-- `_audio_is_admissible`. -/
  audioIsAdmissible : Bool
  scopeKey : ScopeKey
  idempotencyKey : Option String
  deadline : Option Int
  /-- `_request_fingerprint`, or `none` when the options are no JSON. -/
  fingerprint : Option String

/-- Where a job was taken from. -/
inductive Source where
  | dispatchQueue | queue

/-- The local variables of `_execute`. -/
structure Attempt where
  attempt : Nat
  tried : List String
  lastError : Option AsrError
deriving DecidableEq

/-- Where a worker is. -/
inductive Phase where
  /-- The task was created and has not run yet. -/
  | created
  /-- It waits for work; `notified` when the event was set meanwhile. -/
  | waiting (notified : Bool)
  /-- It is about to take a job in `_next_job`. -/
  | next
  | taken (job : Nat)
  /-- It is at the head of the loop of `_execute`. -/
  | executing (job : Nat) (attempt : Attempt)
  /-- It waits for the semaphore of the provider. -/
  | acquiring (job : Nat) (attempt : Attempt) (name : String)
  /-- It waits for the provider; the task of the call may have been cancelled. -/
  | calling (job : Nat) (attempt : Attempt) (name : String) (cancelRequested : Bool)
  /-- The task ended. -/
  | dead
deriving DecidableEq

/-- The scheduler. -/
structure Scheduler where
  started : Bool
  jobs : List Job
  dispatchQueue : List Nat
  queue : List Nat
  dispatchReserved : Nat
  workAvailable : Bool
  workers : List Phase
  scopeStates : ScopeKey → ScopeState
  idempotency : List IdempotencyRecord
  acceptedCount : Nat
  activeJobs : Nat
  states : String → ProviderState
  /-- The worker whose code runs. -/
  current : Option Nat

/-- `ASRScheduler.__init__`. -/
def Scheduler.init (config : Config) : Scheduler where
  started := false
  jobs := []
  dispatchQueue := []
  queue := []
  dispatchReserved := 0
  workAvailable := false
  workers := []
  scopeStates := fun _ => ⟨0, []⟩
  idempotency := []
  acceptedCount := 0
  activeJobs := 0
  states := fun name =>
    ⟨.closed, 0, none, false, 0, 0, ((config.providers.lookup name).map Binding.maxConcurrency).getD 0⟩
  current := none

variable (config : Config)

/-! ## Admission -/

/-- The binding is enabled and authenticated. -/
def Binding.ready (binding : Binding) : Bool := binding.enabled && binding.authReady

/-- `_has_configured_candidate`. -/
def hasConfiguredCandidate : Bool :=
  config.eligibleProviders.any fun name => (config.providers.lookup name).any Binding.ready

/-- `start`. -/
def Scheduler.start (s : Scheduler) : Scheduler :=
  if s.started then s
  else if !config.enabled || !hasConfiguredCandidate config then { s with started := true }
  else { s with started := true, workers := List.replicate config.maxConcurrency .created }

/-- `_is_state_eligible`. -/
def Scheduler.isStateEligible (s : Scheduler) (name : String) (now : Int) : Bool :=
  let state := s.states name
  (config.providers.lookup name).any Binding.ready &&
    !(state.circuitState == .open' && state.openUntil.all fun openUntil => now < openUntil) &&
    !(state.circuitState == .halfOpen && state.halfOpenProbeReserved)

/-- `_has_eligible_candidate`. -/
def Scheduler.hasEligibleCandidate (s : Scheduler) (now : Int) : Bool :=
  config.eligibleProviders.any fun name => s.isStateEligible config name now

/-- `_prune_idempotency`. -/
def Scheduler.pruneIdempotency (s : Scheduler) (now : Int) : Scheduler :=
  { s with idempotency := s.idempotency.filter fun record => now < record.expiresAt }

/-- Sixty seconds. -/
def minute : Int := 60000000

/-- `_prune_scope`. -/
def ScopeState.prune (scope : ScopeState) (now : Int) : ScopeState :=
  { scope with requestTimes := scope.requestTimes.dropWhile fun time => minute ≤ now - time }

/-- The scope is pruned, and is there from now on. -/
def Scheduler.pruneScope (s : Scheduler) (key : ScopeKey) (now : Int) : Scheduler :=
  { s with scopeStates := Function.update s.scopeStates key ((s.scopeStates key).prune now) }

/-- `self._work_available.set()`. -/
def Scheduler.setWorkAvailable (s : Scheduler) : Scheduler :=
  if s.workAvailable then s
  else
    { s with
      workAvailable := true
      workers := s.workers.map fun phase =>
        if phase = .waiting false then .waiting true else phase }

/-- `self._idempotency[(scope_key, key)] = record`. -/
def setRecord (records : List IdempotencyRecord) (record : IdempotencyRecord) :
    List IdempotencyRecord :=
  records.filter (fun r => ¬ (r.scopeKey = record.scopeKey ∧ r.key = record.key)) ++ [record]

/-- The queue that `put_nowait` is called on, with the size it may have. -/
def Scheduler.hasRoom (s : Scheduler) : Bool :=
  if s.activeJobs + s.dispatchReserved < config.maxConcurrency then
    s.dispatchQueue.length < config.maxConcurrency
  else s.queue.length < max 1 config.queueSize

/-- `_enqueue_admitted_job` of a new job, when the queue has room. -/
def Scheduler.enqueueAdmittedJob (s : Scheduler) (request : Request) (fingerprint : String)
    (now : Int) : Scheduler :=
  let deadline := min (request.deadline.getD config.jobDeadline) config.jobDeadline
  let job := s.jobs.length
  let scope := s.scopeStates request.scopeKey
  let reserves := s.activeJobs + s.dispatchReserved < config.maxConcurrency
  let s : Scheduler := { s with
    jobs := s.jobs ++ [⟨request.scopeKey, now + deadline, false, .pending⟩]
    dispatchQueue := if reserves then s.dispatchQueue ++ [job] else s.dispatchQueue
    dispatchReserved := if reserves then s.dispatchReserved + 1 else s.dispatchReserved
    queue := if reserves then s.queue else s.queue ++ [job]
    acceptedCount := s.acceptedCount + 1
    scopeStates := Function.update s.scopeStates request.scopeKey
      { scope with inFlight := scope.inFlight + 1, requestTimes := scope.requestTimes ++ [now] }
    idempotency :=
      match request.idempotencyKey with
      | some key => setRecord s.idempotency
          ⟨request.scopeKey, key, fingerprint, now + max minute (config.jobDeadline * 4), job⟩
      | none => s.idempotency }
  s.setWorkAvailable

/-- What an admission comes to. -/
inductive Admission where
  | accepted (job : Nat)
  /-- The handle of a job that was accepted before. -/
  | reused (job : Nat)
  | rejected (error : AsrError)
  /-- The options are no JSON. -/
  | valueError
  /-- `put_nowait` found its queue full. -/
  | putNowaitFull

/-- The lock body of `_admit` after the idempotency key was looked up. -/
def Scheduler.admitNew (s : Scheduler) (request : Request) (fingerprint : String) (now : Int) :
    Admission × Scheduler :=
  if !s.hasEligibleCandidate config now then (.rejected .noEligibleProvider, s)
  else
    let s := s.pruneScope request.scopeKey now
    let scope := s.scopeStates request.scopeKey
    if config.scopeMaxConcurrency ≤ scope.inFlight then (.rejected .rateLimited, s)
    else if 0 < config.scopeRateLimitPerMinute ∧
        config.scopeRateLimitPerMinute ≤ scope.requestTimes.length then (.rejected .rateLimited, s)
    else if config.maxConcurrency + config.queueSize ≤ s.acceptedCount then (.rejected .queueFull, s)
    else if !s.hasRoom config then (.putNowaitFull, s)
    else (.accepted s.jobs.length, s.enqueueAdmittedJob config request fingerprint now)

/-- `_admit`. -/
def Scheduler.admit (s : Scheduler) (request : Request) (now : Int) : Admission × Scheduler :=
  match request.fingerprint with
  | none => (.valueError, s)
  | some fingerprint =>
    let s := s.pruneIdempotency now
    if !config.enabled then (.rejected .schedulerDisabled, s)
    else
      match request.idempotencyKey.bind fun key =>
          s.idempotency.find? fun r => r.scopeKey = request.scopeKey ∧ r.key = key with
      | some record =>
        if record.fingerprint ≠ fingerprint then (.rejected .idempotencyConflict, s)
        else (.reused record.job, s)
      | none => s.admitNew config request fingerprint now

/-- `transcribe` up to its wait for the result. -/
def Scheduler.transcribe (s : Scheduler) (request : Request) (now : Int) : Admission × Scheduler :=
  if !request.audioIsAdmissible then (.rejected .audioRejected, s)
  else Scheduler.admit config (s.start config) request now

/-- The caller that waits for a job is cancelled. -/
def Scheduler.cancel (s : Scheduler) (job : Nat) : Scheduler :=
  { s with
    jobs := s.jobs.modify job fun j =>
      { j with cancelled := true, future := if j.future = .pending then .cancelled else j.future }
    workers := s.workers.map fun phase =>
      match phase with
      | .calling j attempt name requested =>
        if j = job then .calling j attempt name true else .calling j attempt name requested
      | phase => phase }

/-! ## Providers -/

/-- The providers `_select_provider` chooses from, in their order. -/
def Scheduler.candidates (s : Scheduler) (tried : List String) (now : Int) : List String :=
  config.eligibleProviders.filter fun name =>
    !tried.contains name && s.isStateEligible config name now

/-- The load of the provider. -/
def ProviderState.load (state : ProviderState) : Nat := state.inFlight + state.waiting

/-- The score of `name` is less than that of `other`. -/
def Scheduler.lighter (s : Scheduler) (name other : String) : Bool :=
  let weight := fun name => ((config.providers.lookup name).map Binding.weight).getD 1
  ((s.states name).load + 1) * weight other < ((s.states other).load + 1) * weight name

/-- `min` by score, of names in their order. -/
def Scheduler.lightest (s : Scheduler) : List String → Option String
  | [] => none
  | name :: names =>
    some (names.foldl (fun best other => if s.lighter config other best then other else best) name)

/-- The provider that is selected of the candidates: one with a free slot if there is one. -/
def Scheduler.selected (s : Scheduler) (candidates : List String) : Option String :=
  let available := candidates.filter fun name =>
    (config.providers.lookup name).any fun binding =>
      (s.states name).load < binding.maxConcurrency
  s.lightest config (if available.isEmpty then candidates else available)

/-- The candidates that are not closed are half open from now on, each with a probe reserved. -/
def Scheduler.reserveProbes (s : Scheduler) (candidates : List String) : Scheduler :=
  { s with
    states := fun name =>
      if name ∈ candidates ∧ (s.states name).circuitState ≠ .closed then
        { s.states name with circuitState := .halfOpen, halfOpenProbeReserved := true }
      else s.states name }

/-- Change the state of a provider. -/
def Scheduler.setState (s : Scheduler) (name : String) (f : ProviderState → ProviderState) :
    Scheduler :=
  { s with states := Function.update s.states name (f (s.states name)) }

/-- `_record_provider_success`. -/
def ProviderState.recordSuccess (state : ProviderState) : ProviderState :=
  { state with
    consecutiveFailures := 0
    circuitState := .closed
    openUntil := none
    halfOpenProbeReserved := false }

/-- `_record_provider_failure`. -/
def ProviderState.recordFailure (state : ProviderState) (now : Int) : ProviderState :=
  let failures := state.consecutiveFailures + 1
  if state.circuitState = .halfOpen ∨ config.circuitFailureThreshold ≤ failures then
    { state with
      consecutiveFailures := failures
      circuitState := .open'
      openUntil := some (now + config.circuitCooldown)
      halfOpenProbeReserved := false }
  else { state with consecutiveFailures := failures }

/-- The semaphore is acquired. -/
def ProviderState.acquire (state : ProviderState) : ProviderState :=
  { state with
    semaphore := state.semaphore - 1
    waiting := state.waiting - 1
    inFlight := state.inFlight + 1 }

/-- The `finally` of `_call_provider`. -/
def ProviderState.leave (state : ProviderState) (acquired : Bool) : ProviderState :=
  if acquired then
    { state with inFlight := state.inFlight - 1, semaphore := state.semaphore + 1 }
  else { state with waiting := state.waiting - 1 }

/-! ## Workers -/

def Scheduler.setPhase (s : Scheduler) (w : Nat) (phase : Phase) : Scheduler :=
  { s with workers := s.workers.set w phase }

/-- The worker waits for work at the head of `_next_job`. -/
def Scheduler.awaitWork (s : Scheduler) (w : Nat) : Scheduler :=
  if s.workAvailable then { s.setPhase w .next with current := some w }
  else { s.setPhase w (.waiting false) with current := none }

/-- The lock body of `_next_job`. -/
def Scheduler.nextJob (s : Scheduler) (w : Nat) : Scheduler :=
  match s.dispatchQueue, s.queue with
  | job :: rest, _ =>
    { s.setPhase w (.taken job) with
      dispatchQueue := rest
      dispatchReserved := s.dispatchReserved - 1
      activeJobs := s.activeJobs + 1 }
  | [], job :: rest =>
    { s.setPhase w (.taken job) with
      queue := rest
      activeJobs := s.activeJobs + 1 }
  | [], [] => Scheduler.awaitWork { s with workAvailable := false } w

/-- `_finish_job`: it raises when the future is not done. -/
def Scheduler.finishJob (s : Scheduler) (job : Nat) : Bool × Scheduler :=
  let s : Scheduler := { s with
    acceptedCount := s.acceptedCount - 1
    activeJobs := s.activeJobs - 1
    scopeStates :=
      match s.jobs[job]? with
      | some j => Function.update s.scopeStates j.scopeKey
          { s.scopeStates j.scopeKey with inFlight := (s.scopeStates j.scopeKey).inFlight - 1 }
      | none => s.scopeStates }
  (s.jobs[job]?.any fun j => j.future ≠ .pending, s)

/-- What `_run_job` comes to: the future gets a value unless it is done, and the cancellation
of the provider is raised on. -/
inductive JobEnd where
  /-- The job was cancelled before it ran. -/
  | skipped
  | value (future : JobFuture)
  | cancelledError
deriving DecidableEq

def JobEnd.future : JobEnd → Option JobFuture
  | .skipped => none
  | .value future => some future
  | .cancelledError => some (.exception .schedulerShutdown)

/-- The rest of the turn of `_worker_loop` after `_run_job`. -/
def Scheduler.endJob (s : Scheduler) (w job : Nat) (result : JobEnd) : Scheduler :=
  let s : Scheduler := { s with
    jobs := s.jobs.modify job fun j =>
      { j with future := if j.future = .pending then result.future.getD j.future else j.future } }
  match s.finishJob job with
  | (done, s) =>
    if done ∧ result ≠ .cancelledError then s.awaitWork w
    else { s.setPhase w .dead with current := none }

/-- One turn of the loop of `_execute` up to its wait for the semaphore. -/
def Scheduler.execute (s : Scheduler) (w job : Nat) (attempt : Attempt) (now selectedAt : Int) :
    Scheduler :=
  if config.maxAttempts ≤ attempt.attempt then
    s.endJob w job (.value (.exception (attempt.lastError.getD .providerPermanent)))
  else if s.jobs[job]?.any fun j => j.deadlineAt ≤ now then
    s.endJob w job (.value (.exception .deadlineExceeded))
  else
    let candidates := s.candidates config attempt.tried selectedAt
    match s.selected config candidates with
    | none => s.endJob w job (.value (.exception .noEligibleProvider))
    | some name =>
      { ((s.reserveProbes candidates).setState name fun state =>
            { state with waiting := state.waiting + 1 }).setPhase w
          (.acquiring job { attempt with tried := attempt.tried ++ [name] } name) with
        current := none }

/-- How the call of a provider ends. -/
inductive CallOutcome where
  | result
  /-- The result is no list of segments. -/
  | malformed
  | timeout
  | raises (error : AsrError)
  /-- An exception that is none of the scheduler's. -/
  | raisesOther
  | cancelled
deriving DecidableEq

/-- The error `_execute` goes on with: `none` where it raises what it caught. -/
def CallOutcome.error : CallOutcome → Option AsrError
  | .malformed => some .providerProtocol
  | .raises error => if error = .deadlineExceeded then none else some error
  | .raisesOther => some .providerTransient
  | _ => none

/-- The call failed with an error that `_execute` caught. -/
def Scheduler.failover (s : Scheduler) (w job : Nat) (attempt : Attempt) (error : AsrError) :
    Scheduler :=
  if !error.retryable then s.endJob w job (.value (.exception error))
  else if attempt.attempt + 1 < config.maxAttempts then
    let tried := if config.eligibleProviders.length ≤ attempt.tried.length then []
      else attempt.tried
    { s.setPhase w (.executing job ⟨attempt.attempt + 1, tried, some error⟩) with current := some w }
  else s.endJob w job (.value (.exception error))

/-- The call of the provider `name` ends. -/
def Scheduler.callEnds (s : Scheduler) (w job : Nat) (attempt : Attempt) (name : String)
    (acquired : Bool) (outcome : CallOutcome) (now : Int) : Scheduler :=
  let s : Scheduler := { s.setState name (ProviderState.leave · acquired) with current := some w }
  match outcome with
  | .result => (s.setState name ProviderState.recordSuccess).endJob w job (.value .result)
  | .cancelled => s.endJob w job .cancelledError
  | outcome =>
    let s := s.setState name (ProviderState.recordFailure config · now)
    match outcome.error with
    | none => s.endJob w job (.value (.exception .deadlineExceeded))
    | some error => s.failover config w job attempt error

/-! ## Steps -/

inductive Label where
  | start
  | transcribe (request : Request) (now : Int)
  /-- The caller that waits for the job is cancelled. -/
  | cancel (job : Nat)
  /-- A worker that was created or notified runs. -/
  | wake (w : Nat)
  /-- The worker that runs goes on. -/
  | resume (now selectedAt : Int)
  | acquired (w : Nat)
  | acquireTimeout (w : Nat) (now : Int)
  | callEnds (w : Nat) (outcome : CallOutcome) (now : Int)

/-- The worker that runs goes on. -/
def Scheduler.resume (s : Scheduler) (w : Nat) (now selectedAt : Int) : Scheduler :=
  match s.workers[w]? with
  | some .next => s.nextJob w
  | some (.taken job) =>
    if s.jobs[job]?.any fun j => j.cancelled || j.future == .cancelled then
      s.endJob w job .skipped
    else s.setPhase w (.executing job ⟨0, [], none⟩)
  | some (.executing job attempt) => s.execute config w job attempt now selectedAt
  | _ => s

/-- A step while no worker runs. -/
def Scheduler.idleStep (s : Scheduler) : Label → Scheduler
  | .start => s.start config
  | .transcribe request now => (s.transcribe config request now).2
  | .cancel job => s.cancel job
  | .wake w =>
    match s.workers[w]? with
    | some .created => s.awaitWork w
    | some (.waiting true) => { s.setPhase w .next with current := some w }
    | _ => s
  | .resume _ _ => s
  | .acquired w =>
    match s.workers[w]? with
    | some (.acquiring job attempt name) =>
      if 0 < (s.states name).semaphore then
        (s.setState name ProviderState.acquire).setPhase w (.calling job attempt name false)
      else s
    | _ => s
  | .acquireTimeout w now =>
    match s.workers[w]? with
    | some (.acquiring job attempt name) => s.callEnds config w job attempt name false .timeout now
    | _ => s
  | .callEnds w outcome now =>
    match s.workers[w]? with
    | some (.calling job attempt name requested) =>
      if outcome = .cancelled ∧ requested = false then s
      else s.callEnds config w job attempt name true outcome now
    | _ => s

def step (s : Scheduler) (l : Label) : Scheduler :=
  match s.current, l with
  | some w, .resume now selectedAt => s.resume config w now selectedAt
  | some _, _ => s
  | none, l => s.idleStep config l

end Stt
