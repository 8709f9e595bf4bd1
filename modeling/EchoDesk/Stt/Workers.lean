import EchoDesk.Foundations.Fairness
import EchoDesk.Stt.Accounting

/-! # The workers and their callers

A worker outlives every end of a job but one: when the caller was cancelled, the
call of the provider is cancelled for it, and what that call raises ends the worker.
No other worker takes its place. Without such an end all workers stay, and every job
that was admitted is taken by one of them.
-/

namespace Stt

open Transition Fairness List Scheduler

variable {config : Config} {s : Scheduler}
variable {job w : Nat} {phase : Phase} {l : Label} {result : JobEnd}

/-- The workers that have not ended. -/
def Scheduler.liveWorkers (s : Scheduler) : Nat := s.workers.countP fun phase => phase ≠ .dead

/-- The call of a provider that was cancelled for the caller ends by that cancellation. -/
def EndsCancelled (s : Scheduler) : Label → Prop
  | .callEnds w .cancelled _ => s.current = none ∧
      ∃ job attempt name, s.workers[w]? = some (.calling job attempt name true)
  | _ => False

/-- A job that was cancelled has its future done. -/
def JobsDone (jobs : List Job) : Prop := ∀ j ∈ jobs, j.cancelled = true → j.future ≠ .pending

/-- The invariant of the workers. -/
structure Working (config : Config) (s : Scheduler) : Prop where
  kept : Kept config s
  jobsDone : JobsDone s.jobs

/-! ## Futures -/

theorem JobsDone.modify {jobs : List Job} (h : JobsDone jobs) (i : Nat) {f : Job → Job}
    (hf : ∀ j, (j.cancelled = true → j.future ≠ .pending) →
      (f j).cancelled = true → (f j).future ≠ .pending) : JobsDone (jobs.modify i f) := by
  intro j hj
  obtain ⟨k, hk⟩ := mem_iff_getElem?.1 hj
  rw [getElem?_modify] at hk
  cases hget : jobs[k]? with
  | none =>
    rw [hget] at hk
    cases hk
  | some j₀ =>
    rw [hget] at hk
    have hdone := h j₀ (mem_of_getElem? hget)
    simp only [Option.map_eq_map, Option.map_some, Option.some.injEq] at hk
    subst hk
    split
    · exact hf j₀ hdone
    · exact hdone

theorem jobsDone_ended (h : JobsDone s.jobs) (job : Nat) (result : JobEnd) :
    JobsDone (s.ended job result).jobs := by
  apply JobsDone.modify h
  intro j hj hcancelled
  have hnot := hj hcancelled
  simp only [Job.ended, if_neg hnot]
  exact hnot

theorem workerKeeps_jobsDone (w : Nat) : WorkerKeeps w fun s => JobsDone s.jobs where
  goes _ _ _ _ h := h
  provider _ _ _ h := h
  ended _ job result _ h := jobsDone_ended h job result

theorem enqueue_jobs (s : Scheduler) (request : Request) (fingerprint : String) (now : Int) :
    (s.enqueueAdmittedJob config request fingerprint now).jobs = s.jobs ++ [⟨request.scopeKey,
      now + min (request.deadline.getD config.jobDeadline) config.jobDeadline, false, .pending⟩] := by
  unfold enqueueAdmittedJob setWorkAvailable
  dsimp only
  split
  · rfl
  · rfl

theorem jobsDone_admit (h : JobsDone s.jobs) (request : Request) (now : Int) :
    JobsDone ( s.admit config request now).2.jobs := by
  obtain ⟨records, scopes, heq | ⟨fingerprint, -, -, -, heq⟩⟩ :=
    admit_cases config s request now
  · rw [heq]
    exact h
  rw [heq, enqueue_jobs]
  intro j hj hcancelled
  rcases mem_append.1 hj with hj | hj
  · exact h j hj hcancelled
  · rw [mem_singleton.1 hj] at hcancelled
    cases hcancelled

theorem jobsDone_idleStep (h : JobsDone s.jobs) (l : Label) :
    JobsDone (s.idleStep config l).jobs := by
  have hstart : JobsDone (s.start config).jobs := by
    unfold start
    split
    · exact h
    split
    · exact h
    · exact h
  refine WorkerKeeps.idleStep workerKeeps_jobsDone h hstart ?_ ?_
  · intro request now _
    unfold transcribe
    split
    · exact h
    · exact jobsDone_admit hstart request now
  intro job _
  apply JobsDone.modify h
  intro j _ _
  split
  · simp
  · assumption

theorem working_step (h : Working config s) (l : Label) : Working config (step config s l) := by
  refine ⟨kept_step h.kept l, ?_⟩
  unfold step
  split
  · exact (workerKeeps_jobsDone _).resume id id h.jobsDone _ _
  · exact h.jobsDone
  · exact jobsDone_idleStep h.jobsDone _

theorem working_init (config : Config) : Working config (.init config) := by
  refine ⟨kept_init config, ?_⟩
  intro j hj
  cases hj

/-! ## What ends a worker -/

/-- No worker has ended. -/
def AllAlive (s : Scheduler) : Prop := ∀ phase ∈ s.workers, phase ≠ .dead

theorem AllAlive.set {workers : List Phase} (h : ∀ phase ∈ workers, phase ≠ .dead) (w : Nat)
    (hphase : phase ≠ .dead) : ∀ p ∈ workers.set w phase, p ≠ .dead := by
  intro p hp
  rcases mem_or_eq_of_mem_set hp with hp | rfl
  · exact h p hp
  · exact hphase

theorem allAlive_awaitWork (h : AllAlive s) (w : Nat) : AllAlive (s.awaitWork w) := by
  unfold awaitWork
  split
  · exact AllAlive.set h w (by simp)
  · exact AllAlive.set h w (by simp)

/-- The future of a job that ended with a value, or was done before, is done. -/
theorem ended_done (hknown : job < s.jobs.length) (hresult : result.future ≠ some .pending)
    (hskipped : result = .skipped → ∀ j ∈ s.jobs[job]?, j.future ≠ .pending) :
    (s.ended job result).jobs[job]?.any (fun j => j.future ≠ .pending) = true := by
  have hget : s.jobs[job]? = some s.jobs[job] := getElem?_eq_getElem hknown
  have hended : (s.ended job result).jobs[job]? = some (s.jobs[job].ended result) := by
    show (s.jobs.modify job (Job.ended result))[job]? = _
    rw [getElem?_modify_eq, hget]
    rfl
  rw [hended, Option.any_some]
  apply decide_eq_true
  simp only [Job.ended]
  split
  · rename_i hpending
    cases result with
    | skipped => exact absurd hpending (hskipped rfl _ hget)
    | value future =>
      intro heq
      exact hresult (congrArg some heq)
    | cancelledError => simp [JobEnd.future]
  · assumption

/-- A job in the hands of a worker is one of the jobs. -/
theorem Working.known (h : Working config s) (hw : s.workers[w]? = some phase)
    (hjob : phase.job = some job) : job < s.jobs.length := by
  have hheld : job ∈ s.held := by
    rw [held, mem_filterMap]
    exact ⟨phase, mem_of_getElem? hw, hjob⟩
  have hlt := h.kept.accounted.known job (mem_append_right _ hheld)
  simpa [account] using hlt

/-- Where the job does not end by a cancellation, its worker goes on. -/
theorem endJob_alive (hknown : job < s.jobs.length) (hne : result ≠ .cancelledError)
    (hresult : result.future ≠ some .pending)
    (hskipped : result = .skipped → ∀ j ∈ s.jobs[job]?, j.future ≠ .pending) :
    s.endJob w job result = (s.ended job result).awaitWork w := by
  rcases endJob_cases s w job result with ⟨heq, -, -⟩ | ⟨-, hdead⟩
  · exact heq
  exfalso
  rcases hdead with hdead | hdead
  · exact hne hdead
  · rw [ended_done hknown hresult hskipped] at hdead
    cases hdead

/-- The job of a worker that was skipped has its future done. -/
theorem Working.skipped (h : Working config s)
    (hskip : s.jobs[job]?.any (fun j => j.cancelled || j.future == .cancelled) = true) :
    ∀ j ∈ s.jobs[job]?, j.future ≠ .pending := by
  intro j hj
  rw [Option.mem_def.1 hj, Option.any_some, Bool.or_eq_true] at hskip
  rcases hskip with hcancelled | hfuture
  · exact h.jobsDone j (mem_of_getElem? hj) hcancelled
  intro hpending
  rw [hpending] at hfuture
  cases hfuture

theorem Working.alive_resume (h : Working config s) (ha : AllAlive s) (w : Nat)
    (now selectedAt : Int) : AllAlive (s.resume config w now selectedAt) := by
  unfold resume
  split
  · rcases nextJob_cases s w with ⟨_, _, -, heq⟩ | ⟨_, _, -, -, heq⟩ | ⟨-, -, heq⟩
    · rw [heq]
      exact AllAlive.set ha w (by simp)
    · rw [heq]
      exact AllAlive.set ha w (by simp)
    · rw [heq]
      exact AllAlive.set ha w (by simp)
  · rename_i job hw
    split
    · rename_i hskip
      rw [endJob_alive (h.known hw rfl) (by simp) (by simp [JobEnd.future])
        fun _ => h.skipped hskip]
      exact allAlive_awaitWork (s := s.ended job .skipped) ha w
    · exact AllAlive.set ha w (by simp)
  · rename_i job attempt hw
    rcases execute_cases config s w job attempt now selectedAt with
      ⟨error, heq⟩ | ⟨name, -, -, heq⟩
    · rw [heq, endJob_alive (h.known hw rfl) (by simp) (by simp [JobEnd.future]) (by simp)]
      exact allAlive_awaitWork (s := s.ended job _) ha w
    · rw [heq]
      exact AllAlive.set ha w (by simp)
  · exact ha

theorem Working.alive_callEnds (h : Working config s) (ha : AllAlive s)
    (hw : s.workers[w]? = some phase) (hjob : phase.job = some job) (attempt : Attempt)
    (name : String) (acquired : Bool) {outcome : CallOutcome} (hne : outcome ≠ .cancelled)
    (now : Int) : AllAlive (s.callEnds config w job attempt name acquired outcome now) := by
  rcases callEnds_cases config s w job attempt name acquired outcome now with
    ⟨result, hcancel, hskip, hresult, heq⟩ | ⟨attempt', -, -, -, heq⟩
  · have hknown : job < (s.left config w name acquired outcome now).jobs.length := h.known hw hjob
    rw [heq, endJob_alive hknown (fun hc => hne (hcancel.1 hc)) hresult.1 fun hs => absurd hs hskip]
    exact allAlive_awaitWork (s := (s.left config w name acquired outcome now).ended job result) ha w
  · rw [heq]
    exact AllAlive.set ha w (by simp)

theorem allAlive_enqueue (h : AllAlive s) (request : Request) (fingerprint : String) (now : Int) :
    AllAlive (s.enqueueAdmittedJob config request fingerprint now) := by
  unfold enqueueAdmittedJob setWorkAvailable
  dsimp only
  split
  · exact h
  intro phase hphase
  obtain ⟨phase₀, hmem, rfl⟩ := mem_map.1 hphase
  split
  · simp
  · exact h phase₀ hmem

theorem allAlive_start (h : AllAlive s) : AllAlive (s.start config) := by
  unfold start
  split
  · exact h
  split
  · exact h
  intro phase hphase
  rw [(mem_replicate.1 hphase).2]
  simp

theorem allAlive_transcribe (h : AllAlive s) (request : Request) (now : Int) :
    AllAlive (s.transcribe config request now).2 := by
  unfold transcribe
  split
  · exact h
  have hstart : AllAlive (s.start config) := allAlive_start h
  obtain ⟨records, scopes, heq | ⟨fingerprint, -, -, -, heq⟩⟩ :=
    admit_cases config (s.start config) request now
  · rw [heq]
    exact hstart
  have hpruned : AllAlive
      { s.start config with idempotency := records, scopeStates := scopes } := hstart
  rw [heq]
  exact allAlive_enqueue hpruned request fingerprint now

theorem Working.alive_idleStep (h : Working config s) (ha : AllAlive s)
    (hcurrent : s.current = none) (hl : ¬ EndsCancelled s l) : AllAlive (s.idleStep config l) := by
  cases l with
  | start => exact allAlive_start ha
  | transcribe request now => exact allAlive_transcribe ha request now
  | cancel job =>
    intro phase hphase
    obtain ⟨phase₀, hmem, rfl⟩ := mem_map.1 hphase
    have halive := ha phase₀ hmem
    cases phase₀ with
    | calling j attempt name requested =>
      dsimp only
      split
      · simp
      · simp
    | _ => exact halive
  | wake w =>
    dsimp only [idleStep]
    split
    · exact allAlive_awaitWork ha w
    · exact AllAlive.set ha w (by simp)
    · exact ha
  | resume now selectedAt => exact ha
  | acquired w =>
    dsimp only [idleStep]
    split
    · split
      · exact AllAlive.set ha w (by simp)
      · exact ha
    · exact ha
  | acquireTimeout w now =>
    dsimp only [idleStep]
    split
    · rename_i hw
      exact h.alive_callEnds ha hw rfl _ _ _ (by simp) now
    · exact ha
  | callEnds w outcome now =>
    dsimp only [idleStep]
    split
    · rename_i job attempt name requested hw
      split
      · exact ha
      rename_i hends
      refine h.alive_callEnds ha hw rfl _ _ _ ?_ now
      rintro rfl
      apply hl
      refine ⟨hcurrent, job, attempt, name, ?_⟩
      cases requested with
      | true => exact hw
      | false => exact absurd ⟨rfl, rfl⟩ hends
    · exact ha

/-- Without a cancelled end, all workers stay alive. -/
theorem Working.alive_step (h : Working config s) (ha : AllAlive s) (hl : ¬ EndsCancelled s l) :
    AllAlive (step config s l) := by
  unfold step
  split
  · exact h.alive_resume ha _ _ _
  · exact ha
  · rename_i hcurrent
    exact h.alive_idleStep ha hcurrent hl

/-- A cancelled end leaves a worker that has ended. -/
theorem dead_of_endsCancelled (hl : EndsCancelled s l) : ¬ AllAlive (step config s l) := by
  intro ha
  cases l with
  | callEnds w outcome now =>
    cases outcome with
    | cancelled =>
      obtain ⟨hcurrent, job, attempt, name, hw⟩ := hl
      have hlt := (List.getElem?_eq_some_iff.1 hw).1
      have hstep : step config s (.callEnds w .cancelled now) =
          s.callEnds config w job attempt name true .cancelled now := by
        simp only [step, hcurrent, idleStep, hw]
        rfl
      rw [hstep] at ha
      rcases endJob_cases (s.left config w name true .cancelled now) w job .cancelledError with
        ⟨-, hne, -⟩ | ⟨heq, -⟩
      · exact hne rfl
      have hends : s.callEnds config w job attempt name true .cancelled now =
          (s.left config w name true .cancelled now).endJob w job .cancelledError := rfl
      rw [hends, heq] at ha
      refine ha .dead ?_ rfl
      exact mem_of_getElem? (getElem?_set_self hlt)
    | _ => exact hl
  | _ => exact hl

theorem liveWorkers_eq_length : s.liveWorkers = s.workers.length ↔ AllAlive s := by
  rw [liveWorkers, countP_eq_length]
  simp [AllAlive]

end Stt
