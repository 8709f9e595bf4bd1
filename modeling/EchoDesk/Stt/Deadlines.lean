import EchoDesk.Stt.Pickup

/-! # The deadline of a job and the time of its provider

`_execute` reads the clock once for each attempt, and `_call_provider` allows the time that
remained then twice: for the wait for the semaphore, and again for the call. The scheduler
runs here next to a clock that moves between its steps, with the value of `remaining` in
the `_execute` of each worker and the calls that were started.
-/

namespace Stt

open Transition List Scheduler

variable {config : Config} {s s' s'' : Scheduler}

/-- A millisecond, in microseconds. -/
def millisecond : Int := 1000

/-- A call of a provider at the time it was started. -/
structure ProviderCall where
  job : Nat
  name : String
  deadlineAt : Int
  startedAt : Int
  timeout : Int

/-- The call may not run past the deadline of its job, but for the floor of a millisecond. -/
def ProviderCall.Bounded (call : ProviderCall) : Prop :=
  call.timeout ≤ max (call.deadlineAt - call.startedAt) millisecond

instance (call : ProviderCall) : Decidable call.Bounded := inferInstanceAs (Decidable (_ ≤ _))

/-- The scheduler, its clock, and for each worker the `remaining` of its `_execute` with the
reading of the clock it comes from. -/
structure Timed where
  scheduler : Scheduler
  now : Int
  remaining : Nat → Int
  readAt : Nat → Int
  calls : List ProviderCall

def Timed.init (config : Config) (now : Int) : Timed :=
  ⟨.init config, now, fun _ => 0, fun _ => now, []⟩

/-- The labels of the scheduler without their clock readings, and the passing of time. While a
worker selects a provider the clock may move too. -/
inductive TimedLabel where
  | tick (elapsed : Nat)
  | start
  | transcribe (request : Request)
  | cancel (job : Nat)
  | wake (w : Nat)
  | resume (elapsed : Nat)
  | acquired (w : Nat)
  | acquireTimeout (w : Nat)
  | callEnds (w : Nat) (outcome : CallOutcome)

/-- The label of the scheduler at this time. -/
def TimedLabel.at (now : Int) : TimedLabel → Option Label
  | .tick _ => none
  | .start => some .start
  | .transcribe request => some (.transcribe request now)
  | .cancel job => some (.cancel job)
  | .wake w => some (.wake w)
  | .resume elapsed => some (.resume now (now + elapsed))
  | .acquired w => some (.acquired w)
  | .acquireTimeout w => some (.acquireTimeout w now)
  | .callEnds w outcome => some (.callEnds w outcome now)

def TimedLabel.elapsed : TimedLabel → Nat
  | .tick elapsed | .resume elapsed => elapsed
  | _ => 0

/-- The worker at the head of the loop of `_execute`, with the `remaining` it computes. -/
def Timed.head (s : Timed) : TimedLabel → Option (Nat × Int)
  | .resume _ =>
    match s.scheduler.current with
    | some w =>
      match s.scheduler.workers[w]? with
      | some (.executing job _) =>
        (s.scheduler.jobs[job]?).map fun j => (w, j.deadlineAt - s.now)
      | _ => none
    | none => none
  | _ => none

/-- The call a worker starts that has acquired the semaphore:
`asyncio.wait_for(provider_task, timeout=max(0.001, timeout_s))`. -/
def Timed.started (s : Timed) : TimedLabel → Option ProviderCall
  | .acquired w =>
    match s.scheduler.current, s.scheduler.workers[w]? with
    | none, some (.acquiring job _ name) =>
      if 0 < (s.scheduler.states name).semaphore then
        (s.scheduler.jobs[job]?).map fun j =>
          { job := job
            name := name
            deadlineAt := j.deadlineAt
            startedAt := s.now
            timeout := max millisecond (s.remaining w) }
      else none
    | _, _ => none
  | _ => none

/-- `remaining = job.deadline_at - self._clock()`. -/
def Timed.read (s : Timed) : Option (Nat × Int) → Timed
  | some (w, remaining) =>
    { s with
      remaining := Function.update s.remaining w remaining
      readAt := Function.update s.readAt w s.now }
  | none => s

def timedStep (config : Config) (s : Timed) (l : TimedLabel) : Timed :=
  { s.read (s.head l) with
    scheduler :=
      match l.at s.now with
      | some label => step config s.scheduler label
      | none => s.scheduler
    now := s.now + l.elapsed
    calls := s.calls ++ (s.started l).toList }

/-- A call is started at the time its attempt began, or with no more than a millisecond left
even then. -/
def StartsInTime (s : Timed) : TimedLabel → Prop
  | .acquired w => ∀ call ∈ s.started (.acquired w),
      s.now = s.readAt w ∨ call.deadlineAt ≤ s.readAt w + millisecond
  | _ => True

/-! ## What a step keeps of the waits for a semaphore -/

def Phase.Acquiring : Phase → Prop
  | .acquiring _ _ _ => True
  | _ => False

/-- Jobs keep their deadline, and no worker comes to wait for a semaphore. -/
structure Keeps (s s' : Scheduler) : Prop where
  deadline : ∀ (i : Nat) j, s.jobs[i]? = some j →
    (s'.jobs[i]?).map Job.deadlineAt = some j.deadlineAt
  acquiring : ∀ (w : Nat) phase, s'.workers[w]? = some phase → phase.Acquiring →
    s.workers[w]? = some phase

theorem Keeps.refl (s : Scheduler) : Keeps s s where
  deadline i j hj := by rw [hj]; rfl
  acquiring _ _ hw _ := hw

theorem Keeps.trans (h : Keeps s s') (h' : Keeps s' s'') : Keeps s s'' where
  deadline i j hj := by
    obtain ⟨j', hj', hdeadline⟩ := Option.map_eq_some_iff.1 (h.deadline i j hj)
    rw [h'.deadline i j' hj', hdeadline]
  acquiring w phase hw hphase := h.acquiring w phase (h'.acquiring w phase hw hphase) hphase

/-- The same jobs and workers. -/
theorem Keeps.of_same (hjobs : s'.jobs = s.jobs) (hworkers : s'.workers = s.workers) :
    Keeps s s' where
  deadline i j hj := by rw [hjobs, hj]; rfl
  acquiring w phase hw _ := hworkers ▸ hw

/-- One worker goes on to a phase in which it waits for no semaphore. -/
theorem Keeps.of_set {w : Nat} {phase : Phase} (hjobs : s'.jobs = s.jobs)
    (hworkers : s'.workers = s.workers.set w phase) (hphase : ¬ phase.Acquiring) :
    Keeps s s' where
  deadline i j hj := by rw [hjobs, hj]; rfl
  acquiring v phase' hv hacquiring := by
    rw [hworkers, getElem?_set] at hv
    split at hv
    · split at hv
      · cases hv
        exact absurd hacquiring hphase
      · cases hv
    · exact hv

/-- All workers go on, those that wait for a semaphore as they are. -/
theorem Keeps.of_map {f : Phase → Phase} (hjobs : s'.jobs = s.jobs)
    (hworkers : s'.workers = s.workers.map f) (hf : ∀ phase, (f phase).Acquiring → f phase = phase) :
    Keeps s s' where
  deadline i j hj := by rw [hjobs, hj]; rfl
  acquiring v phase hv hacquiring := by
    rw [hworkers, getElem?_map] at hv
    obtain ⟨phase₀, hv₀, rfl⟩ := Option.map_eq_some_iff.1 hv
    rw [hf phase₀ hacquiring]
    exact hv₀

/-- A job changes, but not its deadline. -/
theorem Keeps.of_modify {job : Nat} {f : Job → Job} (hjobs : s'.jobs = s.jobs.modify job f)
    (hf : ∀ j, (f j).deadlineAt = j.deadlineAt) (hworkers : s'.workers = s.workers) :
    Keeps s s' where
  deadline i j hj := by
    rw [hjobs, getElem?_modify, hj]
    simp only [Option.map_eq_map, Option.map_some, Option.some.injEq]
    split
    · exact hf j
    · rfl
  acquiring w phase hw _ := hworkers ▸ hw

theorem workerKeeps_keeps (s₀ : Scheduler) (w : Nat) : WorkerKeeps w (Keeps s₀) where
  goes s phase _ hphase h := by
    refine h.trans (.of_set rfl rfl fun hacquiring => ?_)
    cases phase with
    | acquiring job attempt name => exact hphase job attempt name rfl
    | _ => exact hacquiring
  provider _ _ _ h := h.trans (.of_same rfl rfl)
  ended _ _ _ _ h := h.trans (.of_modify rfl (fun _ => rfl) rfl)

theorem keeps_start (s : Scheduler) : Keeps s (s.start config) := by
  unfold start
  split
  · exact .refl s
  split
  · exact .of_same rfl rfl
  constructor
  · intro i j hj
    exact congrArg (Option.map Job.deadlineAt) hj
  · intro w phase hw hphase
    obtain rfl := (mem_replicate.1 (mem_of_getElem? hw)).2
    exact hphase.elim

theorem keeps_setWorkAvailable (s : Scheduler) : Keeps s s.setWorkAvailable := by
  unfold setWorkAvailable
  split
  · exact .refl s
  refine .of_map rfl rfl fun phase hphase => ?_
  split
  · rename_i hwaiting
    rw [if_pos hwaiting] at hphase
    exact hphase.elim
  · rfl

theorem keeps_admitted (s : Scheduler) (request : Request) (now : Int) :
    Keeps s ( s.admit config request now).2 := by
  obtain ⟨records, scopes, h | ⟨fingerprint, -, -, -, h⟩⟩ := admit_cases config s request now
  · rw [h]
    exact .of_same rfl rfl
  rw [h]
  unfold enqueueAdmittedJob
  refine Keeps.trans ?_ (keeps_setWorkAvailable _)
  constructor
  · intro i j hj
    have hlt := (List.getElem?_eq_some_iff.1 hj).1
    rw [getElem?_append_left hlt, hj]
    rfl
  · exact fun _ _ hw _ => hw

theorem keeps_cancel (s : Scheduler) (job : Nat) : Keeps s (s.cancel job) := by
  have hjobs : Keeps s { s with jobs := (s.cancel job).jobs } := .of_modify rfl (fun _ => rfl) rfl
  refine hjobs.trans (.of_map rfl rfl fun phase hphase => ?_)
  cases phase with
  | calling j attempt name requested =>
    dsimp only at hphase
    split at hphase
    · exact hphase.elim
    · exact hphase.elim
  | _ => rfl

/-- Nothing but a worker at the head of its loop brings it to wait for a semaphore. -/
theorem keeps_idleStep (s : Scheduler) (l : Label) : Keeps s (s.idleStep config l) := by
  refine WorkerKeeps.idleStep (workerKeeps_keeps s) (.refl s) (keeps_start s) ?_
    fun job _ => keeps_cancel s job
  intro request now _
  unfold transcribe
  split
  · exact .refl s
  · exact (keeps_start s).trans (keeps_admitted _ request now)

/-- The worker that runs comes to wait for a semaphore only from the head of its loop. -/
theorem resume_waits (s : Scheduler) (w : Nat) (now selectedAt : Int) :
    Keeps s (s.resume config w now selectedAt) ∨
      ∃ job attempt attempt' name, s.workers[w]? = some (.executing job attempt) ∧
        Keeps { s with workers := s.workers.set w (.acquiring job attempt' name) }
          (s.resume config w now selectedAt) := by
  unfold resume
  split
  · exact .inl ((workerKeeps_keeps s w).nextJob (·.trans (.of_same rfl rfl)) (.refl s))
  · split
    · exact .inl ((workerKeeps_keeps s w).endJob (by simp [JobEnd.future]) (.refl s))
    · exact .inl (.of_set rfl rfl id)
  · rename_i job attempt hw
    rcases execute_cases config s w job attempt now selectedAt with
      ⟨error, h⟩ | ⟨name, -, -, h⟩
    · rw [h]
      exact .inl ((workerKeeps_keeps s w).endJob (by simp [JobEnd.future]) (.refl s))
    · rw [h]
      exact .inr ⟨job, attempt, _, name, hw, .of_same rfl rfl⟩
  · exact .inl (.refl s)

/-! ## What remained -/

/-- What each worker that waits for a semaphore has as `remaining` is what was left for its job
at the reading. -/
def Remains (remaining readAt : Nat → Int) (s : Scheduler) : Prop :=
  ∀ (w : Nat) job attempt name, s.workers[w]? = some (.acquiring job attempt name) →
    ∃ j, s.jobs[job]? = some j ∧ remaining w = j.deadlineAt - readAt w

theorem Keeps.remains {remaining readAt : Nat → Int} (h : Keeps s s')
    (hs : Remains remaining readAt s) : Remains remaining readAt s' := by
  intro w job attempt name hw
  obtain ⟨j, hj, hremaining⟩ := hs w job attempt name (h.acquiring w _ hw trivial)
  obtain ⟨j', hj', hdeadline⟩ := Option.map_eq_some_iff.1 (h.deadline job j hj)
  exact ⟨j', hj', by rw [hdeadline, hremaining]⟩

structure Measured (config : Config) (s : Timed) : Prop where
  working : Working config s.scheduler
  past : ∀ w, s.readAt w ≤ s.now
  remains : Remains s.remaining s.readAt s.scheduler

theorem measured_init (config : Config) (now : Int) : Measured config (.init config now) where
  working := working_init config
  past _ := Int.le_refl _
  remains w job attempt name hw := by cases hw

/-- A worker at the head of its loop reads the clock for its job. -/
theorem Measured.head {s : Timed} (h : Measured config s) {w job : Nat} {attempt : Attempt}
    (elapsed : Nat) (hcurrent : s.scheduler.current = some w)
    (hw : s.scheduler.workers[w]? = some (.executing job attempt)) :
    ∃ j, s.scheduler.jobs[job]? = some j ∧
      s.head (.resume elapsed) = some (w, j.deadlineAt - s.now) := by
  have hget := getElem?_eq_getElem (h.working.known hw rfl)
  refine ⟨_, hget, ?_⟩
  simp only [Timed.head, hcurrent, hw, hget, Option.map_some]

/-- Only the worker at the head of its loop reads the clock. -/
theorem head_cases (s : Timed) (l : TimedLabel) : s.head l = none ∨
    ∃ w job attempt j elapsed, l = .resume elapsed ∧ s.scheduler.current = some w ∧
      s.scheduler.workers[w]? = some (.executing job attempt) ∧
      s.scheduler.jobs[job]? = some j ∧ s.head l = some (w, j.deadlineAt - s.now) := by
  cases l with
  | resume elapsed =>
    unfold Timed.head
    dsimp only
    split
    · rename_i w hcurrent
      split
      · rename_i job attempt hw
        cases hj : s.scheduler.jobs[job]? with
        | none => exact .inl rfl
        | some j => exact .inr ⟨w, job, attempt, j, elapsed, rfl, hcurrent, hw, hj, rfl⟩
      · exact .inl rfl
    · exact .inl rfl
  | _ => exact .inl rfl

theorem read_past {s : Timed} (h : ∀ w, s.readAt w ≤ s.now) (head : Option (Nat × Int)) (v : Nat) :
    (s.read head).readAt v ≤ s.now := by
  rcases head with _ | ⟨w, remaining⟩
  · exact h v
  show Function.update s.readAt w s.now v ≤ s.now
  by_cases hvw : v = w
  · rw [hvw, Function.update_self]
  · rw [Function.update_of_ne hvw]
    exact h v

/-- The reading of a worker that runs is none of those that wait. -/
theorem Measured.remains_read {s : Timed} (h : Measured config s) (l : TimedLabel) :
    Remains (s.read (s.head l)).remaining (s.read (s.head l)).readAt s.scheduler := by
  rcases head_cases s l with hhead | ⟨w, job, attempt, j, elapsed, -, -, hw, -, hhead⟩
  · rw [hhead]
    exact h.remains
  rw [hhead]
  intro v job' attempt' name hv
  have hvw : v ≠ w := by
    rintro rfl
    rw [hw] at hv
    cases hv
  simp only [Timed.read, Function.update_of_ne hvw]
  exact h.remains v job' attempt' name hv

theorem Measured.remains_step {s : Timed} (h : Measured config s) (l : TimedLabel) :
    Remains (s.read (s.head l)).remaining (s.read (s.head l)).readAt
      (timedStep config s l).scheduler := by
  have hread := h.remains_read l
  show Remains _ _ (match l.at s.now with
    | some label => step config s.scheduler label
    | none => s.scheduler)
  cases hat : l.at s.now with
  | none => exact hread
  | some label =>
    unfold step
    dsimp only
    split
    · rename_i w now selectedAt hcurrent
      obtain ⟨elapsed, rfl⟩ : ∃ elapsed, l = .resume elapsed := by
        cases l with
        | resume elapsed => exact ⟨elapsed, rfl⟩
        | _ => cases hat
      rcases resume_waits s.scheduler w now selectedAt with
        hkeeps | ⟨job, attempt, attempt', name, hw, hkeeps⟩
      · exact hkeeps.remains hread
      obtain ⟨j, hj, hhead⟩ := h.head elapsed hcurrent hw
      rw [hhead] at hread ⊢
      refine hkeeps.remains fun v job' attempt'' name' hv => ?_
      rw [getElem?_set] at hv
      split at hv
      · -- this worker waits from now on, with what it has just read
        rename_i hvw
        split at hv
        · cases hv
          refine ⟨j, hj, ?_⟩
          simp only [Timed.read, ← hvw, Function.update_self]
        · cases hv
      · exact hread v job' attempt'' name' hv
    · exact hread
    · exact (keeps_idleStep s.scheduler _).remains hread

theorem measured_step {s : Timed} (h : Measured config s) (l : TimedLabel) :
    Measured config (timedStep config s l) where
  working := by
    show Working config (match l.at s.now with
      | some label => step config s.scheduler label
      | none => s.scheduler)
    split
    · exact working_step h.working _
    · exact h.working
  past w := by
    have hread := read_past h.past (s.head l) w
    show (s.read (s.head l)).readAt w ≤ s.now + l.elapsed
    omega
  remains := h.remains_step l

/-! ## Calls -/

/-- The timeout of a call is what remained when its attempt began. -/
theorem Measured.started {s : Timed} (h : Measured config s) {w : Nat} {call : ProviderCall}
    (hcall : s.started (.acquired w) = some call) :
    call.startedAt = s.now ∧ call.timeout = max millisecond (call.deadlineAt - s.readAt w) := by
  unfold Timed.started at hcall
  dsimp only at hcall
  split at hcall
  · rename_i job attempt name _ hw
    split at hcall
    · obtain ⟨j, hj, rfl⟩ := Option.map_eq_some_iff.1 hcall
      obtain ⟨j', hj', hremaining⟩ := h.remains w job attempt name hw
      rw [hj] at hj'
      cases hj'
      exact ⟨rfl, congrArg (max millisecond) hremaining⟩
    · cases hcall
  · cases hcall

/-- A call keeps the deadline exactly when no time has passed since its attempt began, or too
little remained even then. -/
theorem Measured.bounded_iff {s : Timed} (h : Measured config s) (l : TimedLabel) :
    (∀ call ∈ s.started l, call.Bounded) ↔ StartsInTime s l := by
  cases l with
  | acquired w =>
    refine forall₂_congr fun call hcall => ?_
    obtain ⟨hstarted, htimeout⟩ := h.started hcall
    have hpast := h.past w
    rw [ProviderCall.Bounded, htimeout, hstarted]
    omega
  | _ => exact ⟨fun _ => trivial, fun _ _ hcall => by cases hcall⟩

/-- The calls of a run keep the deadlines of their jobs exactly when each is started in time. -/
theorem Measured.callsBounded_iff_punctual {s : Timed} (h : Measured config s) (trace : List TimedLabel) :
    (∀ call ∈ (run (timedStep config) s trace).calls, call.Bounded) ↔
      (∀ call ∈ s.calls, call.Bounded) ∧ Meets (timedStep config) StartsInTime s trace := by
  induction trace generalizing s with
  | nil => exact ⟨fun hcalls => ⟨hcalls, trivial⟩, fun hcalls => hcalls.1⟩
  | cons l trace ih =>
    rw [run_cons, ih (measured_step h l), meets_cons, ← h.bounded_iff l, ← and_assoc]
    refine and_congr_left fun _ => ?_
    show (∀ call ∈ s.calls ++ (s.started l).toList, _) ↔ _
    rw [forall_mem_append]
    simp only [Option.mem_toList, Option.mem_def]

/-- Whatever waits at the semaphores and however often jobs fail over: all calls of a run of a
scheduler are bounded by the deadlines of their jobs exactly when each call is started at the
time its attempt began, or at most a millisecond was left for it then. -/
theorem calls_bounded_iff (config : Config) (now : Int) (trace : List TimedLabel) :
    (∀ call ∈ (run (timedStep config) (.init config now) trace).calls, call.Bounded) ↔
      Meets (timedStep config) StartsInTime (.init config now) trace := by
  rw [(measured_init config now).callsBounded_iff_punctual trace]
  exact and_iff_right fun call hcall => absurd hcall List.not_mem_nil

/-- Two workers and a provider that takes one call at a time. -/
def twoWorkers : Config :=
  { oneWorker with maxConcurrency := 2, maxConcurrency_pos := Nat.two_pos }

/-- A job with a deadline of two seconds. -/
def shortRequest : Request := ⟨true, ⟨"t", "p", "d"⟩, none, some 2000000, some "f"⟩

/-- The second job waits for one second while the provider works on the first, and may then
use it for another two. -/
theorem call_past_deadline : ¬ ∀ trace,
    ∀ call ∈ (run (timedStep twoWorkers) (.init twoWorkers 0) trace).calls, call.Bounded := by
  intro h
  have hrun := h [.transcribe shortRequest, .transcribe shortRequest, .wake 0, .resume 0, .resume 0,
    .resume 0, .acquired 0, .wake 1, .resume 0, .resume 0, .resume 0, .tick 1000000,
    .callEnds 0 .result, .resume 0, .acquired 1]
  revert hrun
  decide +kernel

end Stt
