import EchoDesk.Stt.Line

/-! # Every admitted job is taken

The event loop is fair: a worker that can run does, and a call that a worker waits
for ends. Then every worker comes back for its next job again and again, each time
taking the first of the line; and once no worker is idle, a new job is no longer put
before those that wait in the backlog.
-/

namespace Stt

open Transition Fairness List Option Scheduler Phase

variable {config : Config} {s : Scheduler}
variable {phase : Phase}
variable {job : Nat} {s' : Scheduler}

/-- The worker can go on: it was not left waiting, and has not ended. -/
def Phase.able (phase : Phase) : Prop := phase ≠ .waiting false ∧ phase ≠ .dead

/-- The label is a step of the worker `w`. -/
def Runs (s : Scheduler) : Label → Nat → Prop
  | .wake v, w => v = w ∧ s.current = none ∧
      (s.workers[w]? = some .created ∨ s.workers[w]? = some (.waiting true))
  | .resume _ _, w => s.current = some w ∧ ∃ phase ∈ s.workers[w]?, phase.running = true
  | .acquired v, w => v = w ∧ s.current = none ∧ ∃ job attempt name,
      s.workers[w]? = some (.acquiring job attempt name) ∧ 0 < (s.states name).semaphore
  | .acquireTimeout v _, w => v = w ∧ s.current = none ∧ ∃ job attempt name,
      s.workers[w]? = some (.acquiring job attempt name)
  | .callEnds v outcome _, w => v = w ∧ s.current = none ∧ ∃ job attempt name requested,
      s.workers[w]? = some (.calling job attempt name requested) ∧
        ¬ (outcome = .cancelled ∧ requested = false)
  | _, _ => False

/-- The scheduler after the first `n` labels. -/
abbrev reached (config : Config) (labels : Nat → Label) (n : Nat) : Scheduler :=
  stateAt (step config) (.init config) labels n

/-- The event loop is fair to every worker. -/
def Fair (config : Config) (labels : Nat → Label) : Prop :=
  ∀ n w phase, (reached config labels n).workers[w]? = some phase → phase.able →
    ∃ m ≥ n, Runs (reached config labels m) (labels m) w

/-- How far a worker is from its next job. -/
def Phase.rank (config : Config) : Phase → Nat
  | .next | .dead => 0
  | .created | .waiting _ => 1
  | .calling _ attempt _ _ => 3 * (config.maxAttempts - attempt.attempt) + 1
  | .acquiring _ attempt _ => 3 * (config.maxAttempts - attempt.attempt) + 2
  | .executing _ attempt => 3 * (config.maxAttempts - attempt.attempt) + 3
  | .taken _ => 3 * config.maxAttempts + 4

/-! ## One worker's way to its next job -/

/-- The worker went on, and is not idle: it ran for its next job, or came closer to it. -/
structure Advances (config : Config) (s s' : Scheduler) (w : Nat) (phase : Phase) : Prop where
  after : ∃ phase', s'.workers[w]? = some phase' ∧ phase'.idle = false ∧
    (phase = .next ∨ phase'.rank config < phase.rank config)

variable {w : Nat} {phase₀ : Phase} {l : Label}

theorem advances_set {phase' : Phase} (hw : s.workers[w]? = some phase₀)
    (hs' : s'.workers = s.workers.set w phase') (hidle : phase'.idle = false)
    (hrank : phase = .next ∨ phase'.rank config < phase.rank config) :
    Advances config s s' w phase := by
  refine ⟨phase', ?_, hidle, hrank⟩
  rw [hs']
  exact getElem?_set_self (List.getElem?_eq_some_iff.1 hw).1

theorem advances_awaitWork (hw : s.workers[w]? = some phase₀) (hset : s.workAvailable = true)
    (hrank : 0 < phase.rank config) : Advances config s (s.awaitWork w) w phase := by
  rw [awaitWork, if_pos hset]
  exact advances_set hw rfl rfl (.inr hrank)

/-- A worker whose job ends goes on to its next. -/
theorem advances_endJob {result : JobEnd} (hw : s.workers[w]? = some phase₀)
    (hset : s.workAvailable = true) (hrank : 0 < phase.rank config) (hknown : job < s.jobs.length)
    (hne : result ≠ .cancelledError) (hresult : result.future ≠ some .pending)
    (hskipped : result = .skipped → ∀ j ∈ s.jobs[job]?, j.future ≠ .pending) :
    Advances config s (s.endJob w job result) w phase := by
  rw [endJob_alive hknown hne hresult hskipped]
  exact ⟨(advances_awaitWork (s := s.ended job result) hw hset hrank).after⟩

section

variable (hw : s.workers[w]? = some phase)

include hw

theorem Working.advances_callEnds (h : Working config s) {attempt : Attempt}
    (hjob : phase.job = some job) (hset : s.workAvailable = true)
    (hrank : 3 * (config.maxAttempts - attempt.attempt) < phase.rank config) (name : String)
    (acquired : Bool) {outcome : CallOutcome} (hne : outcome ≠ .cancelled) (now : Int) :
    Advances config s (s.callEnds config w job attempt name acquired outcome now) w phase := by
  rcases callEnds_cases config s w job attempt name acquired outcome now with
    ⟨result, hcancel, hskip, hresult, heq⟩ | ⟨attempt', hattempt, hmax, -, heq⟩
  · have hknown : job < (s.left config w name acquired outcome now).jobs.length := h.known hw hjob
    rw [heq]
    exact ⟨(advances_endJob (s := s.left config w name acquired outcome now) hw hset (by omega)
      hknown (fun hc => hne (hcancel.1 hc)) hresult.1 fun hs => absurd hs hskip).after⟩
  rw [heq]
  refine advances_set hw rfl rfl (.inr ?_)
  have hexecuting : (executing job attempt').rank config =
      3 * (config.maxAttempts - attempt'.attempt) + 3 := rfl
  rw [hexecuting, hattempt]
  omega

theorem Working.advances_resume (h : Working config s) (hready : Ready config s)
    (hline : s.line ≠ []) (hrunning : phase.running = true) (now selectedAt : Int) :
    Advances config s (s.resume config w now selectedAt) w phase := by
  have hset := hready.available hline
  unfold resume
  rw [hw]
  cases phase with
  | next =>
    rcases nextJob_cases s w with ⟨_, _, -, heq⟩ | ⟨_, _, -, -, heq⟩ | ⟨hdispatch, hqueue, -⟩
    · rw [heq]
      exact advances_set hw rfl rfl (.inl rfl)
    · rw [heq]
      exact advances_set hw rfl rfl (.inl rfl)
    · exact absurd (by simp [line, hdispatch, hqueue]) hline
  | taken job =>
    dsimp only
    split
    · rename_i hskip
      exact advances_endJob hw hset (by simp [rank]) (h.known hw rfl) (by simp)
        (by simp [JobEnd.future]) fun _ => h.skipped hskip
    · refine advances_set hw rfl rfl (.inr ?_)
      simp only [rank]
      omega
  | executing job attempt =>
    dsimp only
    rcases execute_cases config s w job attempt now selectedAt with
      ⟨error, heq⟩ | ⟨name, -, -, heq⟩
    · rw [heq]
      exact advances_endJob hw hset (by simp [rank]) (h.known hw rfl) (by simp)
        (by simp [JobEnd.future]) (by simp)
    · rw [heq]
      refine advances_set hw rfl rfl (.inr ?_)
      simp only [rank]
      omega
  | _ => cases hrunning

/-- A step of a worker, while jobs wait, brings it on. -/
theorem Working.advances (h : Working config s) (hready : Ready config s) (hline : s.line ≠ [])
    (hl : ¬ EndsCancelled s l) (hruns : Runs s l w) :
    Advances config s (step config s l) w phase := by
  have hset := hready.available hline
  cases l with
  | wake v =>
    obtain ⟨rfl, hcurrent, hphase⟩ := hruns
    simp only [step, hcurrent, idleStep]
    rcases hphase with hphase | hphase
    · rw [hphase] at hw ⊢
      cases hw
      exact advances_awaitWork hphase hset (by simp [rank])
    · rw [hphase] at hw ⊢
      cases hw
      exact advances_set hphase rfl rfl (.inr (by simp [rank]))
  | resume now selectedAt =>
    obtain ⟨hcurrent, phase', hphase, hrunning⟩ := hruns
    simp only [step, hcurrent]
    rw [mem_def, hw] at hphase
    cases hphase
    exact h.advances_resume hw hready hline hrunning now selectedAt
  | acquired v =>
    obtain ⟨rfl, hcurrent, job, attempt, name, hphase, hfree⟩ := hruns
    simp only [step, hcurrent, idleStep, hphase, if_pos hfree]
    rw [hphase] at hw
    cases hw
    refine advances_set hphase rfl rfl (.inr ?_)
    simp only [rank]
    omega
  | acquireTimeout v now =>
    obtain ⟨rfl, hcurrent, job, attempt, name, hphase⟩ := hruns
    simp only [step, hcurrent, idleStep, hphase]
    rw [hphase] at hw
    cases hw
    exact h.advances_callEnds hphase rfl hset (by simp [rank]) name false (by simp) now
  | callEnds v outcome now =>
    obtain ⟨rfl, hcurrent, job, attempt, name, requested, hphase, hends⟩ := hruns
    simp only [step, hcurrent, idleStep, hphase, if_neg hends]
    rw [hphase] at hw
    cases hw
    refine h.advances_callEnds hphase rfl hset (by simp [rank]) name true ?_ now
    rintro rfl
    apply hl
    refine ⟨hcurrent, job, attempt, name, ?_⟩
    cases requested with
    | true => exact hphase
    | false => exact absurd ⟨rfl, rfl⟩ hends
  | start | transcribe request now | cancel job => cases hruns

/-! ## What the steps of the others leave -/

/-- The worker is as far from its next job as before. -/
structure Stays (config : Config) (s' : Scheduler) (w : Nat) (phase : Phase) : Prop where
  same : ∃ phase', s'.workers[w]? = some phase' ∧ phase'.idle = phase.idle ∧
    phase'.provider = phase.provider ∧ phase'.rank config = phase.rank config

theorem Elsewhere.stays {v : Nat} (h : Elsewhere v s s') (hne : w ≠ v) : Stays config s' w phase :=
  ⟨phase, (h w hne).trans hw, rfl, rfl, rfl⟩

theorem stays_refl : Stays config s w phase := ⟨phase, hw, rfl, rfl, rfl⟩

theorem stays_setWorkAvailable : Stays config s.setWorkAvailable w phase := by
  unfold setWorkAvailable
  split
  · exact stays_refl hw
  refine ⟨if phase = .waiting false then .waiting true else phase, ?_, ?_, ?_, ?_⟩
  · rw [getElem?_map, hw]
    rfl
  all_goals
    split
    · rename_i hwaiting
      rw [hwaiting]
      rfl
    · rfl

theorem stays_transcribe (hstarted : s.started = true) (request : Request) (now : Int) :
    Stays config (s.transcribe config request now).2 w phase := by
  have hstart : s.start config = s := by rw [start, if_pos hstarted]
  unfold transcribe
  rw [hstart]
  split
  · exact stays_refl hw
  obtain ⟨records, scopes, heq | ⟨fingerprint, -, -, -, heq⟩⟩ :=
    admit_cases config s request now
  · rw [heq]
    exact stays_refl (s := { s with idempotency := records, scopeStates := scopes }) hw
  rw [heq]
  unfold enqueueAdmittedJob
  refine stays_setWorkAvailable ?_
  exact hw

theorem stays_cancel (job : Nat) : Stays config (s.cancel job) w phase := by
  cases phase with
  | calling j attempt name requested =>
    refine ⟨.calling j attempt name (if j = job then true else requested), ?_, rfl, rfl, rfl⟩
    simp only [cancel, getElem?_map, hw, map_some]
    split
    · rfl
    · rfl
  | _ =>
    refine ⟨_, ?_, rfl, rfl, rfl⟩
    simp only [cancel, getElem?_map, hw, map_some]

/-- A step that is not the worker's leaves it where it is. -/
theorem stays_step (hstarted : s.started = true) (hruns : ¬ Runs s l w) :
    Stays config (step config s l) w phase := by
  cases hcurrent : s.current with
  | some v =>
    cases l with
    | resume now selectedAt =>
      simp only [step, hcurrent]
      by_cases hne : w = v
      · subst hne
        have hidle : phase.running = false := by
          apply Bool.eq_false_iff.2
          intro hrunning
          exact hruns ⟨hcurrent, phase, hw, hrunning⟩
        unfold resume
        rw [hw]
        cases phase with
        | next | taken job | executing job attempt => cases hidle
        | _ => exact stays_refl hw
      · exact (elsewhere_resume s v now selectedAt).stays hw hne
    | _ =>
      simp only [step, hcurrent]
      exact stays_refl hw
  | none =>
    simp only [step, hcurrent]
    cases l with
    | start =>
      simp only [idleStep, start, if_pos hstarted]
      exact stays_refl hw
    | transcribe request now => exact stays_transcribe hw hstarted request now
    | cancel job => exact stays_cancel hw job
    | resume now selectedAt => exact stays_refl hw
    | wake v =>
      dsimp only [idleStep]
      by_cases hne : w = v
      · subst hne
        split
        · rename_i hphase
          exact absurd ⟨rfl, hcurrent, .inl hphase⟩ hruns
        · rename_i hphase
          exact absurd ⟨rfl, hcurrent, .inr hphase⟩ hruns
        · exact stays_refl hw
      · split
        · exact Elsewhere.stays hw ((workerKeeps_elsewhere s v).awaitWork fun _ _ => rfl) hne
        · exact Elsewhere.stays hw (elsewhere_set s.workers v _) hne
        · exact stays_refl hw
    | acquired v =>
      dsimp only [idleStep]
      split
      · rename_i job attempt name hphase
        split
        · rename_i hfree
          by_cases hne : w = v
          · subst hne
            exact absurd ⟨rfl, hcurrent, job, attempt, name, hphase, hfree⟩ hruns
          · exact Elsewhere.stays hw (elsewhere_set s.workers v _) hne
        · exact stays_refl hw
      · exact stays_refl hw
    | acquireTimeout v now =>
      dsimp only [idleStep]
      split
      · rename_i job attempt name hphase
        by_cases hne : w = v
        · subst hne
          exact absurd ⟨rfl, hcurrent, job, attempt, name, hphase⟩ hruns
        · exact Elsewhere.stays hw ((workerKeeps_elsewhere s v).callEnds (fun _ _ => rfl) _ _ _ _ _) hne
      · exact stays_refl hw
    | callEnds v outcome now =>
      dsimp only [idleStep]
      split
      · rename_i job attempt name requested hphase
        split
        · exact stays_refl hw
        rename_i hends
        by_cases hne : w = v
        · subst hne
          exact absurd ⟨rfl, hcurrent, job, attempt, name, requested, hphase, hends⟩ hruns
        · exact Elsewhere.stays hw ((workerKeeps_elsewhere s v).callEnds (fun _ _ => rfl) _ _ _ _ _) hne
      · exact stays_refl hw

end

/-! ## Runs without a cancelled end -/

/-- The invariant of a run in which no call ends by the cancellation of its caller. -/
structure Healthy (config : Config) (s : Scheduler) : Prop where
  working : Working config s
  alive : AllAlive s
  ready : Ready config s

/-- A job that waits is one of the jobs. -/
theorem Healthy.known (h : Healthy config s) (hjob : job ∈ s.line) : job < s.jobs.length := by
  have hlt := h.working.kept.accounted.known job (mem_append_left _ hjob)
  simpa [account] using hlt

/-- While a job waits, all the workers there may be are there. -/
theorem Healthy.staffed (h : Healthy config s) (hjobs : 0 < s.jobs.length) :
    s.started = true ∧ s.workers.length = config.maxConcurrency := by
  obtain ⟨hstarted, hcrew⟩ := h.ready.begun hjobs
  have hstaffed := h.working.kept.staffed
  rw [Staffed, if_pos hstarted, hcrew] at hstaffed
  exact ⟨hstarted, hstaffed⟩

/-- When every worker has its job, the slots are used up. -/
theorem Healthy.full (h : Healthy config s) (hcurrent : s.current = none)
    (hbusy : ∀ phase ∈ s.workers, phase.idle = false) : s.activeJobs = s.workers.length := by
  have hactive : s.activeJobs = s.held.length := h.working.kept.accounted.active
  rw [hactive, held, length_filterMap_eq_countP, countP_eq_length]
  intro phase hphase
  have hidle := hbusy phase hphase
  have halive := h.alive phase hphase
  have hrunning : phase.running = false := by
    obtain ⟨w, hw⟩ := mem_iff_getElem?.1 hphase
    apply Bool.eq_false_iff.2
    intro hrunning
    have hholder := h.ready.holder w phase hw hrunning
    rw [hcurrent] at hholder
    cases hholder
  cases phase with
  | created | waiting notified => cases hidle
  | next => cases hrunning
  | dead => exact absurd rfl halive
  | _ => rfl

theorem Healthy.able (h : Healthy config s) (hline : s.line ≠ [])
    (hw : s.workers[w]? = some phase) : phase.able :=
  ⟨h.ready.notified (h.ready.available hline) phase (mem_of_getElem? hw),
    h.alive phase (mem_of_getElem? hw)⟩

section Run

variable {labels : Nat → Label}

theorem healthy_reached (hl : ∀ n, ¬ EndsCancelled (reached config labels n) (labels n)) (n : Nat) :
    Healthy config (reached config labels n) := by
  have hstep : ∀ s l, ¬ EndsCancelled s l → Healthy config s → Healthy config (step config s l) :=
    fun _ l hl h => ⟨working_step h.working l, h.working.alive_step h.alive hl, ready_step h.ready l⟩
  exact stateAt_invariant hstep hl ⟨working_init config, fun _ => nofun, ready_init config⟩ n

variable {n w : Nat}

/-- Until its next step, a worker is as far from its next job as before. -/
theorem stays_until (hstarted : ∀ m ≥ n, (reached config labels m).started = true)
    (hw : (reached config labels n).workers[w]? = some phase) (m : Nat) (hm : n ≤ m)
    (hruns : ∀ k, n ≤ k → k < m → ¬ Runs (reached config labels k) (labels k) w) :
    Stays config (reached config labels m) w phase := by
  induction m, hm using Nat.le_induction with
  | base => exact stays_refl hw
  | succ m hm ih =>
    obtain ⟨phase', hw', hidle, hprovider, hrank⟩ :=
      (ih fun k hk hlt => hruns k hk (Nat.lt_succ_of_lt hlt)).same
    obtain ⟨phase'', hw'', hidle', hprovider', hrank'⟩ :=
      (stays_step hw' (hstarted m hm) (hruns m hm (Nat.lt_succ_self m))).same
    exact ⟨phase'', hw'', hidle'.trans hidle, hprovider'.trans hprovider, hrank'.trans hrank⟩

variable (hfair : Fair config labels)
  (hl : ∀ n, ¬ EndsCancelled (reached config labels n) (labels n))

include hfair hl

/-- The worker comes to its next step, as far from its next job as it was. -/
theorem Fair.runs (hline : ∀ m ≥ n, (reached config labels m).line ≠ [])
    (hstarted : ∀ m ≥ n, (reached config labels m).started = true)
    (hw : (reached config labels n).workers[w]? = some phase) :
    ∃ m ≥ n, Runs (reached config labels m) (labels m) w ∧
      ∃ phase', (reached config labels m).workers[w]? = some phase' ∧
        phase'.rank config = phase.rank config ∧
        Advances config (reached config labels m) (reached config labels (m + 1)) w phase' := by
  have hable : phase.able := (healthy_reached hl n).able (hline n (Nat.le_refl n)) hw
  obtain ⟨m, hm, hruns, hfirst⟩ := exists_first (hfair n w phase hw hable)
  obtain ⟨phase', hw', -, -, hrank⟩ := (stays_until hstarted hw m hm hfirst).same
  have hhealthy := healthy_reached hl m
  have hadvances := hhealthy.working.advances hw' hhealthy.ready (hline m hm) (hl m) hruns
  exact ⟨m, hm, hruns, phase', hw', hrank, hadvances⟩

section

variable {start : Nat} (hline : ∀ m ≥ start, (reached config labels m).line ≠ [])
  (hstarted : ∀ m ≥ start, (reached config labels m).started = true)

include hline hstarted

/-- While jobs wait, a worker takes the first of the line again and again. -/
theorem Fair.takesFirst (hworker : ∀ m ≥ start, 0 < (reached config labels m).workers.length) :
    ∀ n ≥ start, ∃ m ≥ n, TakesFirst (reached config labels m) (reached config labels (m + 1)) := by
  let rank : Nat → Nat := fun n =>
    (((reached config labels n).workers[0]?).map (rank config)).getD 0
  suffices hrank : ∀ n ≥ start, ∃ m ≥ n,
      TakesFirst (reached config labels m) (reached config labels (m + 1)) ∨
        rank (m + 1) < rank n from exists_of_rank hrank
  intro n hn
  obtain ⟨phase, hw⟩ : ∃ phase, (reached config labels n).workers[0]? = some phase :=
    ⟨_, getElem?_eq_getElem (hworker n hn)⟩
  obtain ⟨m, hm, hruns, phase', hw', hrank, hadvances⟩ :=
    hfair.runs hl (fun m hm => hline m (by omega)) (fun m hm => hstarted m (by omega)) hw
  obtain ⟨phase'', hw'', -, hnext | hlt⟩ := hadvances.after
  · refine ⟨m, hm, .inl ?_⟩
    subst hnext
    have hresumes : reached config labels (m + 1) = (reached config labels m).nextJob 0 := by
      show step config (reached config labels m) (labels m) = _
      generalize labels m = l at hruns
      cases l with
      | resume now selectedAt =>
        simp only [step, hruns.1, resume, hw']
      | wake v =>
        obtain ⟨-, -, hphase⟩ := hruns
        rw [hw'] at hphase
        simp at hphase
      | acquired v =>
        obtain ⟨-, -, job, attempt, name, hphase, -⟩ := hruns
        rw [hw'] at hphase
        cases hphase
      | acquireTimeout v now =>
        obtain ⟨-, -, job, attempt, name, hphase⟩ := hruns
        rw [hw'] at hphase
        cases hphase
      | callEnds v outcome now =>
        obtain ⟨-, -, job, attempt, name, requested, hphase, -⟩ := hruns
        rw [hw'] at hphase
        cases hphase
      | _ => cases hruns
    rw [hresumes]
    exact takesFirst_nextJob (hline m (by omega)) hw'
  · refine ⟨m, hm, .inr ?_⟩
    simp only [rank, hw, hw'', map_some, getD_some]
    omega

/-- While jobs wait, every worker is busy from some time on. -/
theorem Fair.busy (hworker : w < (reached config labels start).workers.length) :
    ∃ n, ∀ m ≥ n, ∃ phase, (reached config labels m).workers[w]? = some phase ∧
      phase.idle = false := by
  obtain ⟨n, hn, -, phase, -, -, hadvances⟩ :=
    hfair.runs hl hline hstarted (getElem?_eq_getElem hworker)
  refine ⟨n + 1, ?_⟩
  intro m hm
  induction m, hm using Nat.le_induction with
  | base =>
    obtain ⟨phase', hw', hidle, -⟩ := hadvances.after
    exact ⟨phase', hw', hidle⟩
  | succ m hm ih =>
    obtain ⟨phase', hw', hidle⟩ := ih
    have hhealthy := healthy_reached hl m
    by_cases hruns : Runs (reached config labels m) (labels m) w
    · have hnext := hhealthy.working.advances hw' hhealthy.ready (hline m (by omega)) (hl m) hruns
      obtain ⟨phase'', hw'', hidle', -⟩ := hnext.after
      exact ⟨phase'', hw'', hidle'⟩
    · obtain ⟨phase'', hw'', hidle', -⟩ := (stays_step hw' (hstarted m (by omega)) hruns).same
      exact ⟨phase'', hw'', hidle'.trans hidle⟩

end

/-- The event loop being fair, a job that waits is taken. -/
theorem Fair.taken (hjob : job ∈ (reached config labels n).line) :
    ∃ m ≥ n, job ∈ (reached config labels m).held := by
  by_contra hnever
  have hnot : ∀ m ≥ n, job ∉ (reached config labels m).held :=
    fun m hm hheld => hnever ⟨m, hm, hheld⟩
  have hstep : ∀ m, LineStep config (reached config labels m) (reached config labels (m + 1)) :=
    fun m => lineStep_step config (reached config labels m) (labels m)
  have hwaits : ∀ m ≥ n, job ∈ (reached config labels m).line := by
    intro m hm
    induction m, hm using Nat.le_induction with
    | base => exact hjob
    | succ m hm ih => exact (hstep m).stays ih (hnot (m + 1) (by omega))
  have hline : ∀ m ≥ n, (reached config labels m).line ≠ [] :=
    fun m hm => ne_nil_of_mem (hwaits m hm)
  have hstaffed : ∀ m ≥ n, (reached config labels m).started = true ∧
      (reached config labels m).workers.length = config.maxConcurrency := by
    intro m hm
    have hhealthy := healthy_reached hl m
    exact hhealthy.staffed (by have := hhealthy.known (hwaits m hm); omega)
  -- from some time on no worker is idle, so that no job is put before this one
  obtain ⟨start, hbusy⟩ : ∃ start, ∀ w < config.maxConcurrency, ∀ m ≥ start,
      ∃ phase, (reached config labels m).workers[w]? = some phase ∧ phase.idle = false := by
    apply exists_common
    intro w hw
    refine hfair.busy hl hline (fun m hm => (hstaffed m hm).1) ?_
    rw [(hstaffed n (Nat.le_refl n)).2]
    exact hw
  have hfull : ∀ m ≥ max n start, (reached config labels m).current = none →
      config.maxConcurrency ≤ (reached config labels m).activeJobs +
        (reached config labels m).dispatchReserved := by
    intro m hm hcurrent
    have hlength := (hstaffed m (by omega)).2
    have hactive := (healthy_reached hl m).full hcurrent fun phase hphase => by
      obtain ⟨w, hw⟩ := mem_iff_getElem?.1 hphase
      have hlt := (List.getElem?_eq_some_iff.1 hw).1
      obtain ⟨phase', hw', hidle⟩ := hbusy w (by omega) m (by omega)
      rw [hw] at hw'
      cases hw'
      exact hidle
    omega
  -- its place in the line never grows, and drops whenever a worker takes the first
  have htakes : ∀ m ≥ max n start, ∃ k ≥ m,
      TakesFirst (reached config labels k) (reached config labels (k + 1)) := by
    refine hfair.takesFirst hl (fun m hm => hline m (by omega))
      (fun m hm => (hstaffed m (by omega)).1) ?_
    intro m hm
    rw [(hstaffed m (by omega)).2]
    exact config.maxConcurrency_pos
  let place : Nat → Nat := fun m => (reached config labels m).line.idxOf job
  have hle : ∀ m ≥ max n start, place (m + 1) ≤ place m := fun m hm =>
    (hstep m).idxOf_le (hwaits m (by omega)) (hnot (m + 1) (by omega)) (hfull m hm)
  refine not_decreasing hle ?_
  intro m hm
  obtain ⟨k, hk, hfirst⟩ := htakes m hm
  exact ⟨k, hk, hfirst.idxOf_lt (hnot (k + 1) (by omega)) (hwaits k (by omega))⟩

end Run

/-! ## The workers survive their callers -/

/-- The workers of a run survive, and take every job. -/
structure Survives (config : Config) (labels : Nat → Label) : Prop where
  live : ∀ n, (reached config labels n).liveWorkers =
    if (reached config labels n).started then config.crew else 0
  manned : ∀ n, 0 < (reached config labels n).jobs.length →
    (reached config labels n).liveWorkers = config.maxConcurrency
  taken : Fair config labels → ∀ n, ∀ job ∈ (reached config labels n).line,
    ∃ m ≥ n, job ∈ (reached config labels m).held

/-- The workers survive just when no call that was cancelled for its caller ends by that. -/
theorem survives_iff (config : Config) (labels : Nat → Label) :
    Survives config labels ↔ ∀ n, ¬ EndsCancelled (reached config labels n) (labels n) := by
  constructor
  · intro h n hends
    have hstep : ∀ s l, True → Staffed config s → Staffed config (step config s l) :=
      fun _ l _ hs => staffed_step hs l
    have hstaffed : Staffed config (reached config labels (n + 1)) :=
      stateAt_invariant hstep (fun _ => trivial) (kept_init config).staffed (n + 1)
    have hlive := h.live (n + 1)
    rw [Staffed] at hstaffed
    rw [← hstaffed, liveWorkers_eq_length] at hlive
    exact dead_of_endsCancelled hends hlive
  intro hl
  have hall : ∀ n, (reached config labels n).liveWorkers =
      (reached config labels n).workers.length :=
    fun n => liveWorkers_eq_length.2 (healthy_reached hl n).alive
  constructor
  · intro n
    rw [hall n]
    exact (healthy_reached hl n).working.kept.staffed
  · intro n hjobs
    rw [hall n]
    exact ((healthy_reached hl n).staffed hjobs).2
  · intro hfair n job hjob
    exact hfair.taken hl hjob

/-! A caller is cancelled while the provider works on its job, and its worker is gone. -/

theorem minute_pos : 0 < minute := by decide

/-- One worker and one provider. -/
def oneWorker : Config where
  enabled := true
  eligibleProviders := ["xfyun"]
  providers := [("xfyun", ⟨1, 1, true, true, Nat.one_pos, Nat.one_pos⟩)]
  maxConcurrency := 1
  queueSize := 4
  jobDeadline := minute
  maxAttempts := 2
  circuitFailureThreshold := 1
  circuitCooldown := minute
  scopeMaxConcurrency := 2
  scopeRateLimitPerMinute := 0
  eligibleProviders_nodup := by simp
  maxConcurrency_pos := Nat.one_pos
  jobDeadline_pos := minute_pos
  maxAttempts_pos := Nat.two_pos
  circuitFailureThreshold_pos := Nat.one_pos
  circuitCooldown_pos := minute_pos
  scopeMaxConcurrency_pos := Nat.two_pos

/-- The labels of the run, and then the caller of a second job. -/
def callerLeaves : List Label :=
  [.transcribe ⟨true, ⟨"t", "p", "d"⟩, none, none, some "f"⟩ 0, .wake 0, .resume 0 0, .resume 0 0,
    .resume 0 0, .acquired 0, .cancel 0, .callEnds 0 .cancelled 0,
    .transcribe ⟨true, ⟨"t", "p", "d"⟩, none, none, some "f"⟩ 1]

theorem callerLeaves_breaks : ¬ Survives oneWorker fun n => callerLeaves.getD n (.resume 0 0) := by
  intro h
  have hlive := h.manned 9 (by decide +kernel)
  revert hlive
  decide +kernel

end Stt
