import EchoDesk.Stt.Pickup

/-! # The callers that share a job

A caller with a new idempotency key owns the job it is admitted with; the callers that come
with the key after it wait for the same future. A caller whose task is cancelled finds out at
its `await`, and if it owns the job it cancels the future there, of which the followers and the
entry of the key know nothing.
-/

namespace Stt

open Transition List Scheduler

variable {config : Config} {s s' s'' : Scheduler}
variable {job : Nat}

/-! ## Callers -/

/-- What `transcribe` returns or raises. -/
inductive CallerOutcome where
  | result
  | error (error : AsrError)
  | valueError
  | cancelledError
deriving DecidableEq

/-- What awaiting the future comes to, once it is done. -/
def JobFuture.outcome : JobFuture → Option CallerOutcome
  | .pending => none
  | .result => some .result
  | .exception error => some (.error error)
  | .cancelled => some .cancelledError

inductive CallerPhase where
  /-- `await asyncio.shield(job.future)`. -/
  | waiting (job : Nat) (ownsJob : Bool)
  | ended (outcome : CallerOutcome)

/-- The task of a call of `transcribe`. -/
structure Caller where
  /-- `cancel` was called on it while it waited. -/
  cancelled : Bool
  phase : CallerPhase

def Caller.waitsFor (c : Caller) (job : Nat) : Prop := ∃ ownsJob, c.phase = .waiting job ownsJob

/-- What the caller received, or receives once it runs unless it is cancelled. -/
def Caller.receives (s : Scheduler) (c : Caller) : Option CallerOutcome :=
  match c.phase with
  | .waiting job _ => (s.jobs[job]?).bind fun j => j.future.outcome
  | .ended outcome => some outcome

/-- Where an admission takes its caller. -/
def Admission.phase : Admission → CallerPhase
  | .accepted job => .waiting job true
  | .reused job => .waiting job false
  | .rejected error => .ended (.error error)
  | .valueError => .ended .valueError
  | .putNowaitFull => .ended (.error .queueFull)

/-- The scheduler and its callers. -/
structure Shared where
  scheduler : Scheduler
  callers : List Caller

def Shared.init (config : Config) : Shared := ⟨.init config, []⟩

inductive SharedLabel where
  | call (request : Request) (now : Int)
  /-- The task of a caller is cancelled. -/
  | cancelCaller (i : Nat)
  /-- A caller runs that was cancelled, or whose future is done. -/
  | runCaller (i : Nat)
  /-- The scheduler goes on, and no caller does. -/
  | schedule (l : Label)

/-- `transcribe` of a new caller up to its wait. -/
def Shared.call (config : Config) (s : Shared) (request : Request) (now : Int) : Shared where
  scheduler := (s.scheduler.transcribe config request now).2
  callers := s.callers ++ [⟨false, (s.scheduler.transcribe config request now).1.phase⟩]

/-- The caller is marked; one that has ended cannot be cancelled. -/
def Caller.cancel (c : Caller) : Caller :=
  match c.phase with
  | .waiting _ _ => { c with cancelled := true }
  | .ended _ => c

/-- The rest of `transcribe` after its `await`. -/
def Shared.runCaller (s : Shared) (i : Nat) (c : Caller) : Shared :=
  match c.phase with
  | .waiting job ownsJob =>
    if c.cancelled then
      { scheduler := if ownsJob then s.scheduler.cancel job else s.scheduler
        callers := s.callers.set i { c with phase := .ended .cancelledError } }
    else
      match c.receives s.scheduler with
      | some outcome => { s with callers := s.callers.set i { c with phase := .ended outcome } }
      | none => s
  | .ended _ => s

def sharedStep (config : Config) (s : Shared) (l : SharedLabel) : Shared :=
  match l, s.scheduler.current with
  | .call request now, none => s.call config request now
  | .cancelCaller i, none => { s with callers := s.callers.modify i Caller.cancel }
  | .runCaller i, none =>
    match s.callers[i]? with
    | some c => s.runCaller i c
    | none => s
  | .schedule (.transcribe _ _), _ => s
  | .schedule (.cancel _), _ => s
  | .schedule l, _ => { s with scheduler := step config s.scheduler l }
  | _, some _ => s

/-- The cancellation of a caller is its own: no other caller receives `CancelledError`, and no
entry leads to a future that raises it. -/
structure Isolated (s : Shared) : Prop where
  callers : ∀ c ∈ s.callers, c.cancelled = false → c.receives s.scheduler ≠ some .cancelledError
  entries : ∀ record ∈ s.scheduler.idempotency, ∀ j, s.scheduler.jobs[record.job]? = some j →
    j.future ≠ .cancelled

/-- A cancelled owner that runs before its future is done has the job to itself: no entry leads
to it, and whoever else waits for it was cancelled too. -/
def CancelsAlone (s : Shared) : SharedLabel → Prop
  | .runCaller i => s.scheduler.current = none → ∀ c ∈ s.callers[i]?, c.cancelled = true →
      ∀ job, c.phase = .waiting job true → ∀ j ∈ s.scheduler.jobs[job]?, j.future = .pending →
          (∀ record ∈ s.scheduler.idempotency, record.job ≠ job) ∧
            ∀ other ∈ s.callers, other.cancelled = false → ¬ other.waitsFor job
  | _ => True

/-! ## What a step of the scheduler does to futures and entries -/

/-- No future is cancelled, and entries are new only for jobs whose future is not. -/
structure Settles (s s' : Scheduler) : Prop where
  cancelled : ∀ (i : Nat) j', s'.jobs[i]? = some j' → j'.future = .cancelled →
    ∃ j, s.jobs[i]? = some j ∧ j.future = .cancelled
  entries : ∀ record ∈ s'.idempotency, record ∈ s.idempotency ∨
    ∀ j, s'.jobs[record.job]? = some j → j.future ≠ .cancelled

theorem Settles.of_same (hjobs : s'.jobs = s.jobs)
    (hentries : ∀ record ∈ s'.idempotency, record ∈ s.idempotency) : Settles s s' where
  cancelled _ j' hj' hfuture := ⟨j', hjobs ▸ hj', hfuture⟩
  entries record hrecord := .inl (hentries record hrecord)

theorem Settles.refl (s : Scheduler) : Settles s s := .of_same rfl fun _ h => h

theorem Settles.trans (h : Settles s s') (h' : Settles s' s'') : Settles s s'' where
  cancelled i j'' hj'' hfuture := by
    obtain ⟨j', hj', hfuture'⟩ := h'.cancelled i j'' hj'' hfuture
    exact h.cancelled i j' hj' hfuture'
  entries record hrecord := by
    rcases h'.entries record hrecord with hold | hnew
    · rcases h.entries record hold with hold | hnew
      · exact .inl hold
      right
      intro j'' hj'' hfuture
      obtain ⟨j', hj', hfuture'⟩ := h'.cancelled record.job j'' hj'' hfuture
      exact hnew j' hj' hfuture'
    · exact .inr hnew

/-- A job whose future is not cancelled by its change. -/
theorem Settles.of_modify {f : Job → Job} (hjobs : s'.jobs = s.jobs.modify job f)
    (hf : ∀ j, (f j).future = .cancelled → j.future = .cancelled)
    (hentries : s'.idempotency = s.idempotency) : Settles s s' where
  cancelled i j' hj' hfuture := by
    rw [hjobs, getElem?_modify] at hj'
    obtain ⟨j, hj, rfl⟩ := Option.map_eq_some_iff.1 hj'
    refine ⟨j, hj, ?_⟩
    split at hfuture
    · exact hf j hfuture
    · exact hfuture
  entries record hrecord := .inl (hentries ▸ hrecord)

theorem settles_ended (s : Scheduler) (job : Nat) {result : JobEnd}
    (hresult : result.future ≠ some .cancelled) : Settles s (s.ended job result) := by
  refine .of_modify rfl (fun j hfuture => ?_) rfl
  simp only [Job.ended] at hfuture
  split at hfuture
  · cases hend : result.future with
    | none =>
      rw [hend, Option.getD_none] at hfuture
      exact hfuture
    | some future =>
      rw [hend, Option.getD_some] at hfuture
      rw [hfuture] at hend
      exact absurd hend hresult
  · exact hfuture

theorem workerKeeps_settles (s₀ : Scheduler) (w : Nat) : WorkerKeeps w (Settles s₀) where
  goes _ _ _ _ h := h.trans (.of_same rfl fun _ h => h)
  provider _ _ _ h := h.trans (.of_same rfl fun _ h => h)
  ended s job _ hresult h := h.trans (settles_ended s job hresult)

theorem settles_start (s : Scheduler) : Settles s (s.start config) := by
  unfold start
  split
  · exact .refl s
  split
  · exact .of_same rfl fun _ h => h
  · exact .of_same rfl fun _ h => h

/-- No step but those of the callers cancels a future or writes an entry. -/
theorem settles_idleStep (s : Scheduler) {l : Label}
    (hcall : ∀ request now, l ≠ .transcribe request now) (hcancel : ∀ job, l ≠ .cancel job) :
    Settles s (s.idleStep config l) :=
  WorkerKeeps.idleStep (workerKeeps_settles s) (.refl s) (settles_start s)
    (fun request now hl => absurd hl (hcall request now)) fun job hl => absurd hl (hcancel job)

theorem settles_step (s : Scheduler) {l : Label} (hcall : ∀ request now, l ≠ .transcribe request now)
    (hcancel : ∀ job, l ≠ .cancel job) : Settles s (step config s l) := by
  unfold step
  split
  · exact (workerKeeps_settles s _).resume (·.trans (.of_same rfl fun _ h => h))
      (·.trans (.of_same rfl fun _ h => h)) (.refl s) _ _
  · exact .refl s
  · exact settles_idleStep s hcall hcancel

/-! ## What an admission does to them -/

theorem setWorkAvailable_jobs (s : Scheduler) : s.setWorkAvailable.jobs = s.jobs := by
  unfold setWorkAvailable
  split
  · rfl
  · rfl

theorem setWorkAvailable_idempotency (s : Scheduler) :
    s.setWorkAvailable.idempotency = s.idempotency := by
  unfold setWorkAvailable
  split
  · rfl
  · rfl

/-- The new job is pending, and so is the one its entry leads to. -/
theorem settles_enqueue (s : Scheduler) (request : Request) (fingerprint : String) (now : Int) :
    Settles s (s.enqueueAdmittedJob config request fingerprint now) := by
  unfold enqueueAdmittedJob
  constructor
  · intro i j' hj' hfuture
    rw [setWorkAvailable_jobs] at hj'
    rw [getElem?_append] at hj'
    split at hj'
    · exact ⟨j', hj', hfuture⟩
    rw [getElem?_singleton] at hj'
    split at hj'
    · cases hj'
      cases hfuture
    · cases hj'
  intro record hrecord
  rw [setWorkAvailable_idempotency] at hrecord
  cases hkey : request.idempotencyKey with
  | none =>
    rw [hkey] at hrecord
    exact .inl hrecord
  | some key =>
    rw [hkey] at hrecord
    rcases mem_append.1 hrecord with hold | hnew
    · exact .inl (mem_filter.1 hold).1
    right
    rw [mem_singleton.1 hnew, setWorkAvailable_jobs]
    intro j hj
    rw [getElem?_concat_length] at hj
    cases hj
    simp

/-- An admission enters a new job, or joins the job an entry leads to. -/
structure Admitted (s s' : Scheduler) (admission : Admission) : Prop where
  settles : Settles s s'
  accepted : ∀ job, admission = .accepted job → ∀ j, s'.jobs[job]? = some j → j.future = .pending
  reused : ∀ job, admission = .reused job → ∃ record ∈ s.idempotency, record.job = job

theorem admitted_admitNew (s : Scheduler) (request : Request) (fingerprint : String) (now : Int) :
    Admitted s (s.admitNew config request fingerprint now).2
      (s.admitNew config request fingerprint now).1 := by
  have hrejected : ∀ s' error, Settles s s' → Admitted s s' (.rejected error) :=
    fun s' error h => ⟨h, nofun, nofun⟩
  have hpruned : Settles s (s.pruneScope request.scopeKey now) := .of_same rfl fun _ h => h
  unfold admitNew
  split
  · exact hrejected _ _ (.refl s)
  dsimp only
  split
  · exact hrejected _ _ hpruned
  split
  · exact hrejected _ _ hpruned
  split
  · exact hrejected _ _ hpruned
  split
  · exact ⟨hpruned, nofun, nofun⟩
  refine ⟨hpruned.trans (settles_enqueue _ request fingerprint now), ?_, nofun⟩
  intro job hjob j hj
  cases hjob
  rw [show (enqueueAdmittedJob config _ request fingerprint now).jobs = _ from
    setWorkAvailable_jobs _] at hj
  rw [getElem?_concat_length] at hj
  cases hj
  rfl

theorem start_idempotency (s : Scheduler) : (s.start config).idempotency = s.idempotency := by
  unfold start
  split
  · rfl
  split
  · rfl
  · rfl

theorem admitted_admission (s : Scheduler) (request : Request) (now : Int) :
    Admitted s ( s.admit config request now).2 ( s.admit config request now).1 := by
  have hpruned : Settles s (s.pruneIdempotency now) := .of_same rfl fun _ h => (mem_filter.1 h).1
  unfold Scheduler.admit
  cases request.fingerprint with
  | none => exact ⟨.refl s, nofun, nofun⟩
  | some fingerprint =>
    dsimp only
    split
    · exact ⟨hpruned, nofun, nofun⟩
    split
    · rename_i record hrecord
      obtain ⟨key, -, hfound⟩ := Option.bind_eq_some_iff.1 hrecord
      have hmem := mem_of_find?_eq_some hfound
      split
      · exact ⟨hpruned, nofun, nofun⟩
      refine ⟨hpruned, nofun, ?_⟩
      intro job hjob
      cases hjob
      exact ⟨record, (mem_filter.1 hmem).1, rfl⟩
    · have hnew := @admitted_admitNew config (s.pruneIdempotency now) request fingerprint now
      refine ⟨hpruned.trans hnew.settles, hnew.accepted, ?_⟩
      intro job hjob
      obtain ⟨record, hmem, hrecord⟩ := hnew.reused job hjob
      exact ⟨record, (mem_filter.1 hmem).1, hrecord⟩

theorem admitted_transcribe (s : Scheduler) (request : Request) (now : Int) :
    Admitted s (s.transcribe config request now).2 (s.transcribe config request now).1 := by
  unfold transcribe
  split
  · exact ⟨.refl s, nofun, nofun⟩
  have hadmitted := @admitted_admission config (s.start config) request now
  refine ⟨(settles_start s).trans hadmitted.settles, hadmitted.accepted, ?_⟩
  intro job hjob
  obtain ⟨record, hmem, hrecord⟩ := hadmitted.reused job hjob
  exact ⟨record, start_idempotency s ▸ hmem, hrecord⟩

/-! ## What the callers receive -/

theorem outcome_cancelled {future : JobFuture} :
    future.outcome = some .cancelledError ↔ future = .cancelled := by
  cases future <;> simp [JobFuture.outcome]

variable {c : Caller} {callers : List Caller} {i : Nat}

/-- A waiting caller receives `CancelledError` when the future is cancelled. -/
theorem receives_waiting {ownsJob : Bool} (hphase : c.phase = .waiting job ownsJob) :
    c.receives s = some .cancelledError ↔ ∃ j, s.jobs[job]? = some j ∧ j.future = .cancelled := by
  simp only [Caller.receives, hphase, Option.bind_eq_some_iff, outcome_cancelled]

theorem receives_ended {outcome : CallerOutcome} (hphase : c.phase = .ended outcome) :
    c.receives s = some outcome := by simp only [Caller.receives, hphase]

theorem Settles.receives (h : Settles s s') (hc : c.receives s' = some .cancelledError) :
    c.receives s = some .cancelledError := by
  cases hphase : c.phase with
  | waiting job ownsJob =>
    obtain ⟨j', hj', hfuture⟩ := (receives_waiting hphase).1 hc
    exact (receives_waiting hphase).2 (h.cancelled job j' hj' hfuture)
  | ended outcome =>
    rw [receives_ended hphase] at hc ⊢
    exact hc

theorem Settles.entry (h : Settles s s')
    (hs : ∀ record ∈ s.idempotency, ∀ j, s.jobs[record.job]? = some j → j.future ≠ .cancelled) :
    ∀ record ∈ s'.idempotency, ∀ j, s'.jobs[record.job]? = some j → j.future ≠ .cancelled := by
  intro record hrecord j' hj'
  rcases h.entries record hrecord with hold | hnew
  · intro hfuture
    obtain ⟨j, hj, hcancelled⟩ := h.cancelled record.job j' hj' hfuture
    exact hs record hold j hj hcancelled
  · exact hnew j' hj'

theorem Isolated.settles (h : Isolated ⟨s, callers⟩) (hsettles : Settles s s') :
    Isolated ⟨s', callers⟩ where
  callers c hc hcancelled hreceives := h.callers c hc hcancelled (hsettles.receives hreceives)
  entries := hsettles.entry h.entries

/-- A new caller waits for a future that is pending, or for the one of an entry. -/
theorem Isolated.call {s : Shared} (h : Isolated s) (request : Request) (now : Int) :
    Isolated (s.call config request now) := by
  have hadmitted := @admitted_transcribe config s.scheduler request now
  have hold := h.settles hadmitted.settles
  refine ⟨?_, hold.entries⟩
  intro c hc hcancelled hreceives
  rcases mem_append.1 hc with hc | hc
  · exact hold.callers c hc hcancelled hreceives
  obtain rfl := mem_singleton.1 hc
  cases hadmission : (s.scheduler.transcribe config request now).1 with
  | accepted job =>
    have hphase : Admission.phase (.accepted job) = .waiting job true := rfl
    rw [hadmission] at hreceives
    obtain ⟨j, hj, hfuture⟩ := (receives_waiting hphase).1 hreceives
    have hpending := hadmitted.accepted job hadmission j hj
    rw [hfuture] at hpending
    cases hpending
  | reused job =>
    have hphase : Admission.phase (.reused job) = .waiting job false := rfl
    rw [hadmission] at hreceives
    obtain ⟨j', hj', hfuture'⟩ := (receives_waiting hphase).1 hreceives
    obtain ⟨j, hj, hfuture⟩ := hadmitted.settles.cancelled job j' hj' hfuture'
    obtain ⟨record, hrecord, rfl⟩ := hadmitted.reused job hadmission
    exact h.entries record hrecord j hj hfuture
  | rejected error | valueError | putNowaitFull =>
    rw [hadmission] at hreceives
    cases hreceives

/-! ## A caller that was cancelled -/

/-- Only the pending future of the job is cancelled. -/
theorem cancel_future {j' : Job} (h : (s.cancel job).jobs[i]? = some j') :
    ∃ j, s.jobs[i]? = some j ∧
      (j'.future = .cancelled → j.future = .cancelled ∨ i = job ∧ j.future = .pending) := by
  simp only [cancel, getElem?_modify, Option.map_eq_map] at h
  obtain ⟨j, hj, rfl⟩ := Option.map_eq_some_iff.1 h
  refine ⟨j, hj, ?_⟩
  split
  · rename_i hi
    intro hfuture
    by_cases hpending : j.future = .pending
    · exact .inr ⟨hi.symm, hpending⟩
    · simp only [if_neg hpending] at hfuture
      exact .inl hfuture
  · exact .inl

theorem cancel_pending {j : Job} (hj : s.jobs[job]? = some j) (hpending : j.future = .pending) :
    ∃ j', (s.cancel job).jobs[job]? = some j' ∧ j'.future = .cancelled := by
  refine ⟨{ j with cancelled := true, future := .cancelled }, ?_, rfl⟩
  simp only [cancel, getElem?_modify_eq, hj, Option.map_eq_map, Option.map_some, hpending, if_true]

theorem mem_set_of_ne {c' other : Caller} (hc : callers[i]? = some c) (hother : other ∈ callers)
    (hne : other ≠ c) :
    other ∈ callers.set i c' := by
  obtain ⟨k, hk⟩ := mem_iff_getElem?.1 hother
  have hki : i ≠ k := by
    rintro rfl
    rw [hc] at hk
    exact hne (Option.some.inj hk).symm
  have hset : (callers.set i c')[k]? = some other := (getElem?_set_ne hki).trans hk
  exact mem_of_getElem? hset

/-- The caller that was cancelled has ended; the others are as they were. -/
theorem Isolated.end_caller (h : Isolated ⟨s, callers⟩)
    (hc : c.cancelled = false → c.receives s ≠ some .cancelledError) :
    Isolated ⟨s, callers.set i c⟩ := by
  refine ⟨?_, h.entries⟩
  intro other hother hcancelled
  rcases mem_or_eq_of_mem_set hother with hother | rfl
  · exact h.callers other hother hcancelled
  · exact hc hcancelled

/-- An owner that was cancelled disturbs no one exactly when it is alone with its job. -/
theorem Isolated.cancel_iff {s : Shared} (h : Isolated s) (hc : s.callers[i]? = some c)
    (hcancelled : c.cancelled = true) (job : Nat) :
    Isolated ⟨s.scheduler.cancel job, s.callers.set i { c with phase := .ended .cancelledError }⟩ ↔
      ∀ j ∈ s.scheduler.jobs[job]?, j.future = .pending →
        (∀ record ∈ s.scheduler.idempotency, record.job ≠ job) ∧
          ∀ other ∈ s.callers, other.cancelled = false → ¬ other.waitsFor job := by
  constructor
  · intro hafter j hj hpending
    obtain ⟨j', hj', hfuture⟩ := cancel_pending (Option.mem_def.1 hj) hpending
    constructor
    · rintro record hrecord rfl
      exact hafter.entries record hrecord j' hj' hfuture
    rintro other hother hlive ⟨ownsJob, hphase⟩
    have hne : other ≠ c := by
      rintro rfl
      rw [hcancelled] at hlive
      cases hlive
    exact hafter.callers other (mem_set_of_ne hc hother hne) hlive
      ((receives_waiting hphase).2 ⟨j', hj', hfuture⟩)
  intro halone
  -- what is cancelled now was so before, or is the job
  have hold : ∀ (k : Nat) j', (s.scheduler.cancel job).jobs[k]? = some j' → j'.future = .cancelled →
      (∃ j, s.scheduler.jobs[k]? = some j ∧ j.future = .cancelled) ∨
        k = job ∧ ∃ j, s.scheduler.jobs[job]? = some j ∧ j.future = .pending := by
    intro k j' hj' hfuture
    obtain ⟨j, hj, hbefore⟩ := cancel_future hj'
    rcases hbefore hfuture with hfuture | ⟨rfl, hpending⟩
    · exact .inl ⟨j, hj, hfuture⟩
    · exact .inr ⟨rfl, j, hj, hpending⟩
  constructor
  · intro other hset hlive hreceives
    rcases mem_or_eq_of_mem_set hset with hother | rfl
    · cases hphase : other.phase with
      | waiting k ownsJob =>
        obtain ⟨j', hj', hfuture⟩ := (receives_waiting hphase).1 hreceives
        rcases hold k j' hj' hfuture with hbefore | ⟨rfl, j, hj, hpending⟩
        · exact h.callers other hother hlive ((receives_waiting hphase).2 hbefore)
        · exact (halone j hj hpending).2 other hother hlive ⟨ownsJob, hphase⟩
      | ended outcome =>
        rw [receives_ended hphase] at hreceives
        exact h.callers other hother hlive ((receives_ended hphase).trans hreceives)
    · rw [hcancelled] at hlive
      cases hlive
  · intro record hrecord j' hj' hfuture
    rcases hold record.job j' hj' hfuture with ⟨j, hj, hbefore⟩ | ⟨hjob, j, hj, hpending⟩
    · exact h.entries record hrecord j hj hbefore
    · exact (halone j hj hpending).1 record hrecord hjob

/-! ## Runs -/

theorem isolated_init (config : Config) : Isolated (.init config) where
  callers _ hc := absurd hc not_mem_nil
  entries _ hrecord := absurd hrecord not_mem_nil

theorem cancel_waitsFor {s : Scheduler} : c.cancel.receives s = c.receives s := by
  unfold Caller.cancel
  split
  · rfl
  · rfl

theorem Isolated.cancelCaller (h : Isolated ⟨s, callers⟩) (i : Nat) :
    Isolated ⟨s, callers.modify i Caller.cancel⟩ := by
  refine ⟨?_, h.entries⟩
  intro c hc hlive
  obtain ⟨k, hk⟩ := mem_iff_getElem?.1 hc
  rw [getElem?_modify, Option.map_eq_map] at hk
  obtain ⟨c₀, hc₀, rfl⟩ := Option.map_eq_some_iff.1 hk
  have hmem := mem_of_getElem? hc₀
  split at hlive
  · have hlive₀ : c₀.cancelled = false := by
      unfold Caller.cancel at hlive
      split at hlive
      · cases hlive
      · exact hlive
    rw [if_pos ‹_›, cancel_waitsFor]
    exact h.callers c₀ hmem hlive₀
  · rw [if_neg ‹_›]
    exact h.callers c₀ hmem hlive

/-- Whatever a caller does at its `await`, it disturbs no one unless it is a cancelled owner that
is not alone. -/
theorem Isolated.runCaller_iff {s : Shared} (h : Isolated s) (hc : s.callers[i]? = some c) :
    Isolated (s.runCaller i c) ↔ (c.cancelled = true → ∀ job, c.phase = .waiting job true →
        ∀ j ∈ s.scheduler.jobs[job]?, j.future = .pending →
          (∀ record ∈ s.scheduler.idempotency, record.job ≠ job) ∧
            ∀ other ∈ s.callers, other.cancelled = false → ¬ other.waitsFor job) := by
  unfold Shared.runCaller
  cases hphase : c.phase with
  | ended outcome => exact ⟨fun _ => nofun, fun _ => h⟩
  | waiting job ownsJob =>
    dsimp only
    by_cases hcancelled : c.cancelled = true
    · rw [if_pos hcancelled]
      cases ownsJob with
      | false =>
        refine ⟨fun _ => nofun, fun _ => ?_⟩
        exact h.end_caller fun hlive => absurd (hcancelled.symm.trans hlive) (by simp)
      | true =>
        rw [if_pos rfl, h.cancel_iff hc hcancelled job]
        constructor
        · rintro halone - job' hjob
          cases hjob
          exact halone
        · exact fun halone => halone hcancelled job rfl
    · rw [if_neg hcancelled]
      refine ⟨fun _ hyes => absurd hyes hcancelled, fun _ => ?_⟩
      have hlive : c.cancelled = false := Bool.eq_false_iff.2 hcancelled
      have hreceives := h.callers c (mem_of_getElem? hc) hlive
      cases hgets : c.receives s.scheduler with
      | none => exact h
      | some outcome =>
        rw [hgets] at hreceives
        exact h.end_caller fun _ => hreceives

theorem Isolated.schedule {s : Shared} (h : Isolated s) (l : Label) :
    Isolated (sharedStep config s (.schedule l)) := by
  cases l with
  | transcribe request now | cancel job => exact h
  | _ => exact h.settles (settles_step s.scheduler nofun nofun)

/-- A step keeps the callers apart exactly when it is no cancelled owner that is not alone. -/
theorem Isolated.step_iff {s : Shared} (h : Isolated s) (l : SharedLabel) :
    Isolated (sharedStep config s l) ↔ CancelsAlone s l := by
  cases hcurrent : s.scheduler.current with
  | none =>
    cases l with
    | call request now =>
      simp only [sharedStep, hcurrent, CancelsAlone, iff_true]
      exact h.call request now
    | cancelCaller i =>
      simp only [sharedStep, hcurrent, CancelsAlone, iff_true]
      exact h.cancelCaller i
    | runCaller i =>
      simp only [sharedStep, hcurrent, CancelsAlone, forall_true_left]
      cases hc : s.callers[i]? with
      | none => exact ⟨fun _ c hno => absurd hno (Option.not_mem_none c), fun _ => h⟩
      | some c =>
        rw [show Isolated (s.runCaller i c) ↔ _ from h.runCaller_iff hc]
        constructor
        · rintro halone c' hc'
          cases hc'
          exact halone
        · exact fun halone => halone c rfl
    | schedule l => exact iff_of_true (h.schedule l) trivial
  | some w =>
    -- a worker runs, and no caller does
    cases l with
    | call request now | cancelCaller i =>
      simp only [sharedStep, hcurrent, CancelsAlone, iff_true]
      exact h
    | runCaller i =>
      simp only [sharedStep, hcurrent, CancelsAlone]
      exact iff_of_true h nofun
    | schedule l => exact iff_of_true (h.schedule l) trivial

/-- In every run of the scheduler and its callers, the callers are kept apart in each state
exactly when each owner that was cancelled runs after its future is done, or is alone with it. -/
theorem isolated_iff (config : Config) (trace : List SharedLabel) :
    Meets (sharedStep config) (fun s l => Isolated (sharedStep config s l)) (.init config) trace ↔
      Meets (sharedStep config) CancelsAlone (.init config) trace :=
  meets_congr (fun _ l hs => hs.step_iff l) (fun _ l hmeets hs => (hs.step_iff l).2 hmeets)
    (isolated_init config) trace

/-- A request with an idempotency key. -/
def keyedRequest : Request := ⟨true, ⟨"t", "p", "d"⟩, some "k", none, some "f"⟩

/-- The owner of the key is cancelled while its job is queued. The follower receives
`CancelledError`, and so does whoever calls with the key after that. -/
theorem follower_cancelled :
    ¬ ∀ trace, Isolated (run (sharedStep oneWorker) (.init oneWorker) trace) := by
  intro h
  have hcallers := (h [.call keyedRequest 0, .call keyedRequest 0, .cancelCaller 0, .runCaller 0,
    .runCaller 1, .call keyedRequest 1]).callers
  revert hcallers
  decide +kernel

end Stt
