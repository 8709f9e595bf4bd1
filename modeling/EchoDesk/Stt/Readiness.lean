import EchoDesk.Stt.Workers

/-! # Who is told of work

The event of work is set while a job waits, no worker that waits was left out of it,
and only the worker the event loop runs has code to run.
-/

namespace Stt

open Transition Fairness List Option

variable {config : Config} {s : Scheduler}
variable {w : Nat}

/-- The jobs that wait, in the order they are taken. -/
def Scheduler.line (s : Scheduler) : List Nat := s.dispatchQueue ++ s.queue

/-- The worker has code to run. -/
def Phase.running : Phase → Bool
  | .next | .taken _ | .executing _ _ => true
  | _ => false

/-- The worker waits for work. -/
def Phase.idle : Phase → Bool
  | .created | .waiting _ => true
  | _ => false

/-- The provider that a worker calls, from the wait for its semaphore on. -/
def Phase.provider : Phase → Option String
  | .acquiring _ _ name | .calling _ _ name _ => some name
  | _ => none

/-- The invariant of the event of work and of the worker that runs. -/
structure Ready (config : Config) (s : Scheduler) : Prop where
  available : s.line ≠ [] → s.workAvailable = true
  notified : s.workAvailable = true → ∀ phase ∈ s.workers, phase ≠ .waiting false
  holder : ∀ w phase, s.workers[w]? = some phase → phase.running = true → s.current = some w
  begun : 0 < s.jobs.length → s.started = true ∧ config.crew = config.maxConcurrency

/-- The workers but `w` are where they were. -/
def Elsewhere (w : Nat) (s s' : Scheduler) : Prop :=
  ∀ v, v ≠ w → s'.workers[v]? = s.workers[v]?

theorem elsewhere_set (workers : List Phase) (w : Nat) (phase : Phase) :
    ∀ v, v ≠ w → (workers.set w phase)[v]? = workers[v]? := by
  intro v hne
  rw [getElem?_set_ne (Ne.symm hne)]

theorem workerKeeps_elsewhere (s₀ : Scheduler) (w : Nat) : WorkerKeeps w (Elsewhere w s₀) where
  goes s phase _ _ h v hne := (elsewhere_set s.workers w phase v hne).trans (h v hne)
  provider _ _ _ h := h
  ended _ _ _ _ h := h

theorem elsewhere_resume (s : Scheduler) (w : Nat) (now selectedAt : Int) :
    Elsewhere w s (s.resume config w now selectedAt) :=
  (workerKeeps_elsewhere s w).resume id
    (fun h v hne => (elsewhere_set _ w _ v hne).trans (h v hne)) (fun _ _ => rfl) now selectedAt

/-- No worker but `w` has code to run. -/
def Alone (w : Nat) (s : Scheduler) : Prop :=
  ∀ v phase, v ≠ w → s.workers[v]? = some phase → phase.running = false

section

variable (h : Ready config s)

include h

theorem Ready.alone (hcurrent : ∀ v, s.current = some v → v = w) :
    Alone w s := by
  intro v phase hne hv
  apply Bool.eq_false_iff.2
  intro hrunning
  exact hne (hcurrent v (h.holder v phase hv hrunning))

/-- One worker moves on. -/
theorem Ready.of_set {s' : Scheduler} (halone : Alone w s) {phase : Phase}
    (hworkers : s'.workers = s.workers.set w phase)
    (hcurrent : phase.running = true → s'.current = some w)
    (havailable : s'.line ≠ [] → s'.workAvailable = true)
    (hnotified : s'.workAvailable = true → phase ≠ .waiting false ∧ s.workAvailable = true)
    (hjobs : s'.jobs.length = s.jobs.length) (hstarted : s'.started = s.started) :
    Ready config s' := by
  constructor
  · exact havailable
  · intro hset p hp
    rw [hworkers] at hp
    rcases mem_or_eq_of_mem_set hp with hp | rfl
    · exact h.notified (hnotified hset).2 p hp
    · exact (hnotified hset).1
  · intro v p hv hrunning
    rw [hworkers] at hv
    by_cases hne : v = w
    · subst hne
      have hlt := (List.getElem?_eq_some_iff.1 hv).1
      rw [length_set] at hlt
      rw [getElem?_set_self hlt] at hv
      cases hv
      exact hcurrent hrunning
    · rw [elsewhere_set s.workers w phase v hne] at hv
      rw [halone v p hne hv] at hrunning
      cases hrunning
  · rw [hjobs, hstarted]
    exact h.begun

theorem Ready.awaitWork (halone : Alone w s) :
    Ready config (s.awaitWork w) := by
  unfold Scheduler.awaitWork
  split
  · rename_i hset
    exact h.of_set halone rfl (fun _ => rfl) h.available (fun _ => ⟨by simp, hset⟩) rfl rfl
  · rename_i hunset
    exact h.of_set halone rfl (by simp [Phase.running]) h.available
      (fun hset => absurd hset hunset) rfl rfl

theorem Ready.nextJob (hcurrent : s.current = some w) :
    Ready config (s.nextJob w) := by
  have halone : Alone w s := h.alone fun v hv => by
    rw [hcurrent] at hv
    exact (some.inj hv).symm
  rcases nextJob_cases s w with ⟨job, rest, hdispatch, heq⟩ | ⟨job, rest, hdispatch, hqueue, heq⟩ |
    ⟨hdispatch, hqueue, heq⟩
  · have hset : s.workAvailable = true := h.available (by simp [Scheduler.line, hdispatch])
    rw [heq]
    exact h.of_set halone rfl (fun _ => hcurrent) (fun _ => hset) (fun _ => ⟨by simp, hset⟩) rfl rfl
  · have hset : s.workAvailable = true := h.available (by simp [Scheduler.line, hqueue])
    rw [heq]
    exact h.of_set halone rfl (fun _ => hcurrent) (fun _ => hset) (fun _ => ⟨by simp, hset⟩) rfl rfl
  · rw [heq]
    refine h.of_set halone rfl (by simp [Phase.running]) ?_ (fun hset => by cases hset) rfl rfl
    intro hline
    exact absurd (by simp [Scheduler.line, Scheduler.setPhase, hdispatch, hqueue]) hline

theorem Ready.endJob (halone : Alone w s) (job : Nat) (result : JobEnd) :
    Ready config (s.endJob w job result) := by
  have hended : Ready config (s.ended job result) := by
    refine ⟨h.available, h.notified, h.holder, ?_⟩
    show 0 < (s.jobs.modify job (Job.ended result)).length → _
    rw [length_modify]
    exact h.begun
  rcases endJob_cases s w job result with ⟨heq, -, -⟩ | ⟨heq, -⟩
  · rw [heq]
    exact hended.awaitWork halone
  · rw [heq]
    exact hended.of_set halone rfl (by simp [Phase.running]) hended.available
      (fun hset => ⟨by simp, hset⟩) rfl rfl

theorem Ready.resume (hcurrent : s.current = some w) (now selectedAt : Int) :
    Ready config (s.resume config w now selectedAt) := by
  have halone : Alone w s := h.alone fun v hv => by
    rw [hcurrent] at hv
    exact (some.inj hv).symm
  unfold Scheduler.resume
  split
  · exact h.nextJob hcurrent
  · split
    · exact h.endJob halone _ _
    · exact h.of_set halone rfl (fun _ => hcurrent) h.available (fun hset => ⟨by simp, hset⟩) rfl rfl
  · rename_i job attempt _
    rcases execute_cases config s w job attempt now selectedAt with
      ⟨error, heq⟩ | ⟨name, -, -, heq⟩
    · rw [heq]
      exact h.endJob halone job _
    · rw [heq]
      exact h.of_set halone rfl (by simp [Phase.running]) h.available
        (fun hset => ⟨by simp, hset⟩) rfl rfl
  · exact h

theorem Ready.callEnds (hcurrent : s.current = none) (w job : Nat)
    (attempt : Attempt) (name : String) (acquired : Bool) (outcome : CallOutcome) (now : Int) :
    Ready config (s.callEnds config w job attempt name acquired outcome now) := by
  have halone : Alone w s := h.alone fun v hv => by
    rw [hcurrent] at hv
    cases hv
  have hleft : Ready config (s.left config w name acquired outcome now) := by
    refine ⟨h.available, h.notified, ?_, h.begun⟩
    intro v phase hv hrunning
    have hholder := h.holder v phase hv hrunning
    rw [hcurrent] at hholder
    cases hholder
  rcases callEnds_cases config s w job attempt name acquired outcome now with
    ⟨result, -, -, -, heq⟩ | ⟨attempt', -, -, -, heq⟩
  · rw [heq]
    exact hleft.endJob halone job result
  · rw [heq]
    exact hleft.of_set halone rfl (fun _ => rfl) hleft.available (fun hset => ⟨by simp, hset⟩) rfl rfl

end

/-- What is set in `setWorkAvailable` notifies the workers that wait. -/
theorem Ready.setWorkAvailable (hholder : ∀ w phase, s.workers[w]? = some phase →
      phase.running = true → s.current = some w)
    (hnotified : s.workAvailable = true → ∀ phase ∈ s.workers, phase ≠ .waiting false)
    (hbegun : 0 < s.jobs.length → s.started = true ∧ config.crew = config.maxConcurrency) :
    Ready config s.setWorkAvailable := by
  unfold Scheduler.setWorkAvailable
  split
  · rename_i hset
    exact ⟨fun _ => hset, hnotified, hholder, hbegun⟩
  refine ⟨fun _ => rfl, ?_, ?_, hbegun⟩
  · intro _ phase hphase
    obtain ⟨phase₀, -, rfl⟩ := mem_map.1 hphase
    split
    · simp
    · assumption
  intro w phase hw hrunning
  rw [getElem?_map, map_eq_some_iff] at hw
  obtain ⟨phase₀, hw, rfl⟩ := hw
  refine hholder w phase₀ hw ?_
  split at hrunning
  · cases hrunning
  · exact hrunning

/-- An eligible provider is a configured one. -/
theorem crew_of_eligible {now : Int} (henabled : config.enabled = true)
    (heligible : s.hasEligibleCandidate config now = true) :
    config.crew = config.maxConcurrency := by
  have hconfigured : hasConfiguredCandidate config = true := by
    obtain ⟨name, hname, hstate⟩ := any_eq_true.1 heligible
    refine any_eq_true.2 ⟨name, hname, ?_⟩
    simp only [Scheduler.isStateEligible, Bool.and_eq_true] at hstate
    exact hstate.1.1
  rw [Config.crew, if_pos (by simp [henabled, hconfigured])]

theorem started_start (config : Config) (s : Scheduler) : (s.start config).started = true := by
  unfold Scheduler.start
  split
  · assumption
  split
  · rfl
  · rfl

theorem Ready.start (h : Ready config s) : Ready config (s.start config) := by
  unfold Scheduler.start
  split
  · exact h
  have hbegun : ∀ s' : Scheduler, s'.jobs = s.jobs → s'.started = true →
      0 < s'.jobs.length → s'.started = true ∧ config.crew = config.maxConcurrency := by
    intro s' hjobs hs' hlt
    rw [hjobs] at hlt
    exact ⟨hs', (h.begun hlt).2⟩
  split
  · exact ⟨h.available, h.notified, h.holder, hbegun _ rfl rfl⟩
  refine ⟨h.available, ?_, ?_, hbegun _ rfl rfl⟩
  · intro _ phase hphase
    rw [(mem_replicate.1 hphase).2]
    simp
  · intro w phase hw hrunning
    rw [(mem_replicate.1 (mem_of_getElem? hw)).2] at hrunning
    cases hrunning

theorem Ready.transcribe (h : Ready config s) (request : Request) (now : Int) :
    Ready config (s.transcribe config request now).2 := by
  unfold Scheduler.transcribe
  split
  · exact h
  have hstart := h.start
  have hstarted := started_start config s
  generalize s.start config = s' at hstart hstarted
  obtain ⟨records, scopes, heq | ⟨fingerprint, henabled, heligible, -, heq⟩⟩ :=
    admit_cases config s' request now
  · rw [heq]
    exact ⟨hstart.available, hstart.notified, hstart.holder, hstart.begun⟩
  rw [heq]
  unfold Scheduler.enqueueAdmittedJob
  refine Ready.setWorkAvailable hstart.holder hstart.notified ?_
  intro _
  exact ⟨hstarted, crew_of_eligible henabled heligible⟩

theorem Ready.cancel (h : Ready config s) (job : Nat) : Ready config (s.cancel job) := by
  have hphase : ∀ (w : Nat) (phase' : Phase), (s.cancel job).workers[w]? = some phase' →
      ∃ phase : Phase, s.workers[w]? = some phase ∧
        (phase' = .waiting false → phase = .waiting false) ∧
        (phase'.running = true → phase.running = true) := by
    intro w phase' hw
    simp only [Scheduler.cancel, getElem?_map, map_eq_some_iff] at hw
    obtain ⟨phase, hget, rfl⟩ := hw
    refine ⟨phase, hget, ?_, ?_⟩
    · cases phase with
      | calling j attempt name requested =>
        dsimp only
        split
        · simp
        · simp
      | _ => exact id
    cases phase with
    | calling j attempt name requested =>
      dsimp only
      split
      · simp [Phase.running]
      · simp [Phase.running]
    | _ => exact id
  constructor
  · exact h.available
  · intro hset phase' hmem
    obtain ⟨w, hw⟩ := mem_iff_getElem?.1 hmem
    obtain ⟨phase, hget, hwaiting, -⟩ := hphase w phase' hw
    intro heq
    exact h.notified hset phase (mem_of_getElem? hget) (hwaiting heq)
  · intro w phase' hw hrunning
    obtain ⟨phase, hget, -, hruns⟩ := hphase w phase' hw
    exact h.holder w phase hget (hruns hrunning)
  · show 0 < (s.jobs.modify job _).length → _
    rw [length_modify]
    exact h.begun

theorem Ready.idleStep (h : Ready config s) (hcurrent : s.current = none) (l : Label) :
    Ready config (s.idleStep config l) := by
  have halone : ∀ w, Alone w s := fun w => h.alone fun v hv => by
    rw [hcurrent] at hv
    cases hv
  cases l with
  | start => exact h.start
  | transcribe request now => exact h.transcribe request now
  | cancel job => exact h.cancel job
  | wake w =>
    dsimp only [Scheduler.idleStep]
    split
    · exact h.awaitWork (halone w)
    · exact h.of_set (halone w) rfl (fun _ => rfl) h.available (fun hset => ⟨by simp, hset⟩) rfl rfl
    · exact h
  | resume now selectedAt => exact h
  | acquired w =>
    dsimp only [Scheduler.idleStep]
    split
    · split
      · exact h.of_set (halone w) rfl (by simp [Phase.running]) h.available
          (fun hset => ⟨by simp, hset⟩) rfl rfl
      · exact h
    · exact h
  | acquireTimeout w now =>
    dsimp only [Scheduler.idleStep]
    split
    · exact h.callEnds hcurrent _ _ _ _ _ _ _
    · exact h
  | callEnds w outcome now =>
    dsimp only [Scheduler.idleStep]
    split
    · split
      · exact h
      · exact h.callEnds hcurrent _ _ _ _ _ _ _
    · exact h

theorem ready_step (h : Ready config s) (l : Label) : Ready config (step config s l) := by
  unfold step
  split
  · rename_i hcurrent
    exact h.resume hcurrent _ _
  · exact h
  · rename_i hcurrent
    exact h.idleStep hcurrent _

theorem ready_init (config : Config) : Ready config (.init config) := by
  refine ⟨?_, ?_, ?_, ?_⟩
  · intro hline
    exact absurd rfl hline
  · intro hset
    cases hset
  · intro w phase hw
    cases hw
  · intro hlt
    cases hlt

end Stt
