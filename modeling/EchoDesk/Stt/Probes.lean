import EchoDesk.Stt.Pickup

/-! # Half-open probes

A selection reserves the probe of every candidate whose circuit is not closed, and the
end of a call gives the probe of its provider back. So a probe is given back when the
reserved provider is the selected one, and nothing else calls it; a candidate that was
not selected keeps its reservation with nobody to end it.
-/

namespace Stt

open Transition Fairness Tally List Option Function Scheduler Phase ProviderState

variable {config : Config} {s : Scheduler}
variable {candidates : List String}
variable {phase : Phase} {outcome : CallOutcome} {attempt : Attempt} {name' : String}

/-- The providers of the calls that have not ended. -/
def Scheduler.calls (s : Scheduler) : List String := s.workers.filterMap Phase.provider

/-- The outstanding calls to the provider. -/
def Scheduler.outstanding (s : Scheduler) (name : String) : Nat := s.calls.count name

/-- `half_open_probe_reserved`. -/
def Scheduler.flagged (s : Scheduler) (name : String) : Bool :=
  (s.states name).halfOpenProbeReserved

/-- The worker that runs selects a provider. -/
def Selects (config : Config) (s : Scheduler) : Label → List String → String → Prop
  | .resume now selectedAt, candidates, name => ∃ w job attempt, s.current = some w ∧
      s.workers[w]? = some (.executing job attempt) ∧ attempt.attempt < config.maxAttempts ∧
      (s.jobs[job]?.any fun j => j.deadlineAt ≤ now) = false ∧
      candidates = s.candidates config attempt.tried selectedAt ∧
      s.selected config candidates = some name
  | _, _, _ => False

/-- A call to the provider ends. -/
def EndsCall (s : Scheduler) : Label → String → Prop
  | .acquireTimeout w _, name => s.current = none ∧ ∃ job attempt,
      s.workers[w]? = some (.acquiring job attempt name)
  | .callEnds w outcome _, name => s.current = none ∧ ∃ job attempt requested,
      s.workers[w]? = some (.calling job attempt name requested) ∧
        ¬ (outcome = .cancelled ∧ requested = false)
  | _, _ => False

/-- A call to the provider ends by the cancellation of its caller. -/
def CancelsCall (s : Scheduler) (l : Label) (name : String) : Prop :=
  EndsCall s l name ∧ ∃ w now, l = .callEnds w .cancelled now

/-! ## One step -/

/-- What circuit and flag say of the probe of a provider. -/
def ProviderState.probe (state : ProviderState) : CircuitState × Bool :=
  (state.circuitState, state.halfOpenProbeReserved)

/-- What a step does to the probes and the calls. -/
inductive ProbeStep (config : Config) (s : Scheduler) (l : Label) (s' : Scheduler) : Prop where
  | selects (candidates : List String) (name : String)
      (hselects : Selects config s l candidates name)
      (hprobes : ∀ c, (s'.states c).probe =
        if c ∈ candidates ∧ (s.states c).circuitState ≠ .closed then (.halfOpen, true)
        else (s.states c).probe)
      (hcalls : s'.calls.Perm (name :: s.calls))
  | ends (name : String) (hends : EndsCall s l name)
      (hothers : ∀ c, c ≠ name → (s'.states c).probe = (s.states c).probe)
      (hprobe : ∃ acquired outcome now, (outcome = .cancelled ↔ CancelsCall s l name) ∧
        s'.states name = (s.states name).after config acquired outcome now)
      (hcalls : (name :: s'.calls).Perm s.calls)
  | same (hselects : ∀ candidates name, ¬ Selects config s l candidates name)
      (hends : ∀ name, ¬ EndsCall s l name)
      (hprobes : ∀ c, (s'.states c).probe = (s.states c).probe) (hcalls : s'.calls = s.calls)

variable {w : Nat} {name : String} {l : Label}

/-- A worker that calls no provider before and after keeps the calls. -/
theorem calls_set {phase' : Phase} (hw : s.workers[w]? = some phase)
    (hprovider : phase'.provider = phase.provider) :
    (s.workers.set w phase').filterMap provider = s.calls :=
  filterMap_set_of_eq provider hw hprovider

/-- What the end of a job leaves: its worker calls nothing, and the providers are the same. -/
theorem endJob_calls (s : Scheduler) (w job : Nat) (result : JobEnd) :
    ∃ phase, phase.provider = none ∧ (s.endJob w job result).workers = s.workers.set w phase ∧
      (s.endJob w job result).states = s.states := by
  rcases endJob_cases s w job result with ⟨heq, -, -⟩ | ⟨heq, -⟩
  · rw [heq]
    unfold awaitWork
    split
    · exact ⟨.next, rfl, rfl, rfl⟩
    · exact ⟨.waiting false, rfl, rfl, rfl⟩
  · rw [heq]
    exact ⟨.dead, rfl, rfl, rfl⟩

theorem callEnds_calls (config : Config) (s : Scheduler) (w job : Nat) (attempt : Attempt) (name : String)
    (acquired : Bool) (outcome : CallOutcome) (now : Int) :
    ∃ phase, phase.provider = none ∧
      (s.callEnds config w job attempt name acquired outcome now).workers = s.workers.set w phase ∧
      (s.callEnds config w job attempt name acquired outcome now).states =
        Function.update s.states name ((s.states name).after config acquired outcome now) := by
  rcases callEnds_cases config s w job attempt name acquired outcome now with
    ⟨result, -, -, -, heq⟩ | ⟨attempt', -, -, -, heq⟩
  · obtain ⟨phase, hphase, hworkers, hstates⟩ :=
      endJob_calls (s.left config w name acquired outcome now) w job result
    rw [heq]
    exact ⟨phase, hphase, hworkers, hstates⟩
  · rw [heq]
    exact ⟨.executing job attempt', rfl, rfl, rfl⟩

/-- A call that ended is no longer one of the calls. -/
theorem probeStep_callEnds {job : Nat} (hw : s.workers[w]? = some phase)
    (hprovider : phase.provider = some name) (hends : EndsCall s l name)
    (hcancel : outcome = .cancelled ↔ CancelsCall s l name) (acquired : Bool) (now : Int) :
    ProbeStep config s l (s.callEnds config w job attempt name acquired outcome now) := by
  obtain ⟨phase', hphase', hworkers, hstates⟩ :=
    callEnds_calls config s w job attempt name acquired outcome now
  refine .ends name hends ?_ ⟨acquired, outcome, now, hcancel, ?_⟩ ?_
  · intro c hne
    rw [hstates, update_of_ne hne]
  · rw [hstates, update_self]
  · have hperm := filterMap_set_perm provider hw phase'
    rw [hprovider, hphase', ← hworkers] at hperm
    exact hperm

theorem probe_setState {f : ProviderState → ProviderState}
    (hf : ∀ state, (f state).probe = state.probe) (name c : String) :
    ((s.setState name f).states c).probe = (s.states c).probe := by
  simp only [setState, update_apply]
  split
  · rename_i heq
    rw [heq, hf]
  · rfl

theorem probe_reserveProbes (candidates : List String) (c : String) :
    ((s.reserveProbes candidates).states c).probe =
      if c ∈ candidates ∧ (s.states c).circuitState ≠ .closed then (.halfOpen, true)
      else (s.states c).probe := by
  simp only [reserveProbes]
  split
  · rfl
  · rfl

/-- A worker that selects has its call from then on. -/
theorem probeStep_selects {job : Nat} {now selectedAt : Int} (hcurrent : s.current = some w)
    (hw : s.workers[w]? = some (.executing job attempt))
    (hattempt : attempt.attempt < config.maxAttempts)
    (hdeadline : (s.jobs[job]?.any fun j => j.deadlineAt ≤ now) = false)
    (hselected : s.selected config (s.candidates config attempt.tried selectedAt) = some name) :
    ProbeStep config s (.resume now selectedAt) (s.execute config w job attempt now selectedAt) := by
  have hexecute : s.execute config w job attempt now selectedAt =
      { (s.reserved config attempt.tried selectedAt name).setPhase w
          (.acquiring job { attempt with tried := attempt.tried ++ [name] } name) with
        current := none } := by
    simp only [execute, if_neg (Nat.not_le_of_lt hattempt), hdeadline, hselected]
    rfl
  rw [hexecute]
  refine .selects (s.candidates config attempt.tried selectedAt) name
    ⟨w, job, attempt, hcurrent, hw, hattempt, hdeadline, rfl, hselected⟩ ?_ ?_
  · intro c
    rw [← probe_reserveProbes]
    exact probe_setState (s := s.reserveProbes _)
      (f := fun state => { state with waiting := state.waiting + 1 }) (fun _ => rfl) name c
  · exact filterMap_set_perm provider hw _

/-- A worker that does not select calls nothing. -/
theorem probeStep_resume (hcurrent : s.current = some w) (now selectedAt : Int) :
    ProbeStep config s (.resume now selectedAt) (s.resume config w now selectedAt) := by
  have hends : ∀ name, ¬ EndsCall s (.resume now selectedAt) name := fun _ h => h
  -- the worker stays without a call, and the providers as they are
  have hquiet : ∀ (phase phase' : Phase) (s' : Scheduler), s.workers[w]? = some phase →
      (∀ candidates name, ¬ Selects config s (.resume now selectedAt) candidates name) →
      phase.provider = none → phase'.provider = none → s'.workers = s.workers.set w phase' →
      s'.states = s.states → ProbeStep config s (.resume now selectedAt) s' := by
    intro phase phase' s' hw hselects hphase hphase' hworkers hstates
    refine .same hselects hends (fun c => by rw [hstates]) ?_
    rw [calls, hworkers]
    exact calls_set hw (hphase'.trans hphase.symm)
  have hother : ∀ phase, s.workers[w]? = some phase → (∀ job attempt, phase ≠ .executing job attempt) →
      ∀ candidates name, ¬ Selects config s (.resume now selectedAt) candidates name := by
    rintro phase hw hne candidates name ⟨v, job, attempt, hv, hexecuting, -⟩
    rw [hcurrent] at hv
    cases hv
    rw [hw] at hexecuting
    exact hne job attempt (some.inj hexecuting)
  unfold resume
  cases hw : s.workers[w]? with
  | none =>
    refine .same ?_ hends (fun _ => rfl) rfl
    rintro candidates name ⟨v, job, attempt, hv, hexecuting, -⟩
    rw [hcurrent] at hv
    cases hv
    rw [hw] at hexecuting
    cases hexecuting
  | some phase =>
    cases phase with
    | next =>
      have hselects := hother .next hw (by simp)
      rcases nextJob_cases s w with ⟨job, _, -, heq⟩ | ⟨job, _, -, -, heq⟩ | ⟨-, -, heq⟩
      · rw [heq]
        exact hquiet .next (.taken job) _ hw hselects rfl rfl rfl rfl
      · rw [heq]
        exact hquiet .next (.taken job) _ hw hselects rfl rfl rfl rfl
      · rw [heq]
        exact hquiet .next (.waiting false) _ hw hselects rfl rfl rfl rfl
    | taken job =>
      dsimp only
      have hselects := hother (.taken job) hw (by simp)
      split
      · obtain ⟨phase', hphase', hworkers, hstates⟩ := endJob_calls s w job .skipped
        exact hquiet (.taken job) phase' _ hw hselects rfl hphase' hworkers hstates
      · exact hquiet (.taken job) (.executing job ⟨0, [], none⟩) _ hw hselects rfl rfl rfl rfl
    | executing job attempt =>
      dsimp only
      by_cases hselects : ∃ candidates name,
          Selects config s (.resume now selectedAt) candidates name
      · obtain ⟨candidates, name, v, job', attempt', hv, hexecuting, hattempt, hdeadline, rfl,
          hselected⟩ := hselects
        rw [hcurrent] at hv
        cases hv
        rw [hw] at hexecuting
        cases hexecuting
        exact probeStep_selects hcurrent hw hattempt hdeadline hselected
      have hnone : ∀ candidates name, ¬ Selects config s (.resume now selectedAt) candidates name :=
        fun candidates name h => hselects ⟨candidates, name, h⟩
      have hended : ∃ error, s.execute config w job attempt now selectedAt =
          s.endJob w job (.value (.exception error)) := by
        unfold execute
        split
        · exact ⟨_, rfl⟩
        rename_i hattempt
        split
        · exact ⟨_, rfl⟩
        rename_i hdeadline
        dsimp only
        split
        · exact ⟨_, rfl⟩
        rename_i name hselected
        exact absurd ⟨w, job, attempt, hcurrent, hw, Nat.lt_of_not_le hattempt,
          by simpa using hdeadline, rfl, hselected⟩ (hnone _ name)
      obtain ⟨error, heq⟩ := hended
      obtain ⟨phase', hphase', hworkers, hstates⟩ :=
        endJob_calls s w job (.value (.exception error))
      rw [heq]
      exact hquiet (.executing job attempt) phase' _ hw hnone rfl hphase' hworkers hstates
    | created => exact .same (hother .created hw (by simp)) hends (fun _ => rfl) rfl
    | waiting notified =>
      exact .same (hother (.waiting notified) hw (by simp)) hends (fun _ => rfl) rfl
    | acquiring job attempt name =>
      exact .same (hother (.acquiring job attempt name) hw (by simp)) hends (fun _ => rfl) rfl
    | calling job attempt name requested =>
      exact .same (hother (.calling job attempt name requested) hw (by simp)) hends (fun _ => rfl)
        rfl
    | dead => exact .same (hother .dead hw (by simp)) hends (fun _ => rfl) rfl

theorem calls_start (h : Staffed config s) : (s.start config).calls = s.calls := by
  unfold start
  split
  · rfl
  split
  · rfl
  rename_i hstarted _
  rw [Staffed, if_neg hstarted] at h
  have hnone : s.workers = [] := length_eq_zero_iff.1 h
  have hcreated : (List.replicate config.maxConcurrency created).filterMap provider = [] := by
    rw [filterMap_replicate]
    rfl
  show (List.replicate config.maxConcurrency created).filterMap provider = _
  rw [hcreated, calls, hnone]
  rfl

theorem calls_setWorkAvailable (s : Scheduler) : s.setWorkAvailable.calls = s.calls := by
  unfold setWorkAvailable
  split
  · rfl
  simp only [calls, filterMap_map]
  apply filterMap_congr
  intro phase _
  simp only [comp_apply]
  split
  · rename_i hwaiting
    rw [hwaiting]
    rfl
  · rfl

theorem calls_transcribe (h : Staffed config s) (request : Request) (now : Int) :
    (s.transcribe config request now).2.calls = s.calls := by
  unfold transcribe
  split
  · rfl
  rw [← calls_start h]
  obtain ⟨records, scopes, heq | ⟨fingerprint, -, -, -, heq⟩⟩ :=
    admit_cases config (s.start config) request now
  · rw [heq]
    rfl
  rw [heq]
  unfold enqueueAdmittedJob
  rw [calls_setWorkAvailable]
  rfl

theorem calls_cancel (s : Scheduler) (job : Nat) : (s.cancel job).calls = s.calls := by
  simp only [calls, cancel, filterMap_map]
  apply filterMap_congr
  intro phase _
  simp only [comp_apply]
  cases phase with
  | calling j attempt name requested =>
    dsimp only
    split
    · rfl
    · rfl
  | _ => rfl

theorem states_start (config : Config) (s : Scheduler) : (s.start config).states = s.states := by
  unfold start
  split
  · rfl
  split
  · rfl
  · rfl

theorem states_transcribe (s : Scheduler) (request : Request) (now : Int) :
    (s.transcribe config request now).2.states = s.states := by
  unfold transcribe
  split
  · rfl
  rw [← states_start config s]
  obtain ⟨records, scopes, heq | ⟨fingerprint, -, -, -, heq⟩⟩ :=
    admit_cases config (s.start config) request now
  · rw [heq]
  rw [heq]
  unfold enqueueAdmittedJob setWorkAvailable
  dsimp only
  split
  · rfl
  · rfl

theorem probeStep_idleStep (h : Staffed config s) (hcurrent : s.current = none) (l : Label) :
    ProbeStep config s l (s.idleStep config l) := by
  -- only the worker that runs selects a candidate
  have hselects : ∀ candidates name, ¬ Selects config s l candidates name := by
    intro candidates name hselects
    cases l with
    | resume now selectedAt =>
      obtain ⟨w, _, _, hw, -⟩ := hselects
      rw [hcurrent] at hw
      cases hw
    | _ => exact hselects
  cases l with
  | start =>
    refine .same hselects (fun _ h => h) (fun c => ?_) (calls_start h)
    show ((s.start config).states c).probe = _
    rw [states_start]
  | transcribe request now =>
    refine .same hselects (fun _ h => h) (fun c => ?_) (calls_transcribe h request now)
    show ((s.transcribe config request now).2.states c).probe = _
    rw [states_transcribe]
  | cancel job => exact .same hselects (fun _ h => h) (fun _ => rfl) (calls_cancel s job)
  | resume now selectedAt => exact .same hselects (fun _ h => h) (fun _ => rfl) rfl
  | wake w =>
    have hends : ∀ name, ¬ EndsCall s (.wake w) name := fun _ h => h
    dsimp only [idleStep]
    split
    · rename_i hw
      unfold awaitWork
      split
      · exact .same hselects hends (fun _ => rfl) (calls_set hw rfl)
      · exact .same hselects hends (fun _ => rfl) (calls_set hw rfl)
    · rename_i hw
      exact .same hselects hends (fun _ => rfl) (calls_set hw rfl)
    · exact .same hselects hends (fun _ => rfl) rfl
  | acquired w =>
    have hends : ∀ name, ¬ EndsCall s (.acquired w) name := fun _ h => h
    dsimp only [idleStep]
    split
    · rename_i job attempt name hw
      split
      · refine .same hselects hends ?_ (calls_set hw rfl)
        intro c
        exact probe_setState (f := acquire) (fun _ => rfl) name c
      · exact .same hselects hends (fun _ => rfl) rfl
    · exact .same hselects hends (fun _ => rfl) rfl
  | acquireTimeout w now =>
    dsimp only [idleStep]
    split
    · rename_i job attempt name hw
      have hends : EndsCall s (.acquireTimeout w now) name := ⟨hcurrent, job, attempt, hw⟩
      refine probeStep_callEnds hw rfl hends ?_ false now
      constructor
      · intro htimeout
        cases htimeout
      · rintro ⟨-, v, now', heq⟩
        cases heq
    · rename_i hnone
      refine .same hselects ?_ (fun _ => rfl) rfl
      rintro name ⟨-, job, attempt, hw⟩
      exact hnone job attempt name hw
  | callEnds w outcome now =>
    dsimp only [idleStep]
    split
    · rename_i job attempt name requested hw
      split
      · rename_i hidle
        refine .same hselects ?_ (fun _ => rfl) rfl
        rintro name' ⟨-, job', attempt', requested', hw', hnot⟩
        rw [hw] at hw'
        cases hw'
        exact hnot hidle
      rename_i hnot
      have hends : EndsCall s (.callEnds w outcome now) name :=
        ⟨hcurrent, job, attempt, requested, hw, hnot⟩
      refine probeStep_callEnds hw rfl hends ?_ true now
      constructor
      · rintro rfl
        exact ⟨hends, w, now, rfl⟩
      · rintro ⟨-, v, now', heq⟩
        cases heq
        rfl
    · rename_i hnone
      refine .same hselects ?_ (fun _ => rfl) rfl
      rintro name ⟨-, job, attempt, requested, hw, -⟩
      exact hnone job attempt name requested hw

/-- All a step does to the probes and the calls. -/
theorem probeStep_step (h : Staffed config s) (l : Label) :
    ProbeStep config s l (step config s l) := by
  cases hcurrent : s.current with
  | none =>
    have hstep : step config s l = s.idleStep config l := by
      simp only [step, hcurrent]
    rw [hstep]
    exact probeStep_idleStep h hcurrent l
  | some w =>
    cases l with
    | resume now selectedAt =>
      simp only [step, hcurrent]
      exact probeStep_resume hcurrent now selectedAt
    | acquireTimeout v now | callEnds v outcome now =>
      simp only [step, hcurrent]
      refine .same (fun _ _ h => h) ?_ (fun _ => rfl) rfl
      rintro name ⟨hnone, -⟩
      rw [hcurrent] at hnone
      cases hnone
    | _ =>
      simp only [step, hcurrent]
      exact .same (fun _ _ h => h) (fun _ h => h) (fun _ => rfl) rfl

/-! ## Selections and ends -/

theorem lightest_mem {names : List String} (h : s.lightest config names = some name) :
    name ∈ names := by
  have hfold : ∀ (rest : List String) (best : String),
      rest.foldl (fun best other => if s.lighter config other best then other else best) best ∈
        best :: rest := by
    intro rest
    induction rest with
    | nil =>
      intro best
      exact mem_singleton.2 rfl
    | cons other rest ih =>
      intro best
      rw [foldl_cons]
      have hmem := ih (if s.lighter config other best then other else best)
      rcases mem_cons.1 hmem with heq | hmem
      · rw [heq]
        split
        · exact mem_cons_of_mem _ mem_cons_self
        · exact mem_cons_self
      · exact mem_cons_of_mem _ (mem_cons_of_mem _ hmem)
  cases names with
  | nil => cases h
  | cons best rest =>
    cases h
    exact hfold rest best

/-- The selected provider is one of the candidates. -/
theorem selected_mem (h : s.selected config candidates = some name) : name ∈ candidates := by
  have hmem := lightest_mem h
  split at hmem
  · exact hmem
  · exact (mem_filter.1 hmem).1

theorem Selects.mem (h : Selects config s l candidates name) : name ∈ candidates := by
  cases l with
  | resume now selectedAt =>
    obtain ⟨_, _, _, -, -, -, -, -, hselected⟩ := h
    exact selected_mem hselected
  | _ => cases h

theorem Selects.unique {candidates' : List String} (h : Selects config s l candidates name)
    (h' : Selects config s l candidates' name') : candidates = candidates' ∧ name = name' := by
  cases l with
  | resume now selectedAt =>
    obtain ⟨w, job, attempt, hcurrent, hw, -, -, rfl, hselected⟩ := h
    obtain ⟨w', job', attempt', hcurrent', hw', -, -, rfl, hselected'⟩ := h'
    rw [hcurrent] at hcurrent'
    cases hcurrent'
    rw [hw] at hw'
    cases hw'
    rw [hselected] at hselected'
    exact ⟨rfl, some.inj hselected'⟩
  | _ => cases h

theorem EndsCall.unique (h : EndsCall s l name) (h' : EndsCall s l name') : name = name' := by
  cases l with
  | acquireTimeout w now =>
    obtain ⟨-, job, attempt, hw⟩ := h
    obtain ⟨-, job', attempt', hw'⟩ := h'
    rw [hw] at hw'
    cases hw'
    rfl
  | callEnds w outcome now =>
    obtain ⟨-, job, attempt, requested, hw, -⟩ := h
    obtain ⟨-, job', attempt', requested', hw', -⟩ := h'
    rw [hw] at hw'
    cases hw'
    rfl
  | _ => cases h

/-- No step selects and ends a call. -/
theorem Selects.not_endsCall (h : Selects config s l candidates name) (name' : String) :
    ¬ EndsCall s l name' := by
  cases l with
  | resume now selectedAt => exact fun h => h
  | _ => cases h

/-! ## What keeps the probes -/

/-- Only a half-open circuit has its probe reserved. -/
def FlagsHalfOpen (s : Scheduler) : Prop :=
  ∀ name, s.flagged name = true → (s.states name).circuitState = .halfOpen

/-- A probe that is reserved has one outstanding call. -/
def ProbesSole (s : Scheduler) : Prop := ∀ name, s.flagged name = true → s.outstanding name = 1

/-- What a step must meet to keep the probes: each candidate whose circuit is not closed has
one outstanding call then, and no call to a reserved provider ends by a cancellation. -/
structure KeepsProbes (config : Config) (s : Scheduler) (l : Label) : Prop where
  selects : ∀ candidates name, Selects config s l candidates name → ∀ c ∈ candidates,
    (s.states c).circuitState ≠ .closed → s.outstanding c + (if c = name then 1 else 0) = 1
  ends : ∀ name, CancelsCall s l name → s.flagged name = false

/-- An end that is no cancellation clears the flag. -/
theorem after_flag {state : ProviderState}
    (h : state.halfOpenProbeReserved = true → state.circuitState = .halfOpen) (acquired : Bool)
    (hne : outcome ≠ .cancelled) (now : Int) :
    (state.after config acquired outcome now).halfOpenProbeReserved = false := by
  have hfailure : ((state.leave acquired).recordFailure config now).halfOpenProbeReserved =
      false := by
    have hprobe : (state.leave acquired).circuitState = state.circuitState ∧
        (state.leave acquired).halfOpenProbeReserved = state.halfOpenProbeReserved := by
      unfold leave
      split
      · exact ⟨rfl, rfl⟩
      · exact ⟨rfl, rfl⟩
    unfold recordFailure
    dsimp only
    split
    · rfl
    rename_i hnot
    rw [hprobe.1] at hnot
    rw [hprobe.2]
    apply Bool.eq_false_iff.2
    intro hflag
    exact hnot (.inl (h hflag))
  cases outcome with
  | cancelled => exact absurd rfl hne
  | result => rfl
  | _ => exact hfailure

theorem after_cancelled (state : ProviderState) (acquired : Bool) (now : Int) :
    (state.after config acquired .cancelled now).probe = state.probe := by
  show (state.leave acquired).probe = state.probe
  unfold leave
  split
  · rfl
  · rfl

theorem flagged_eq_of_probe {s' : Scheduler} (h : (s'.states name).probe = (s.states name).probe) :
    s'.flagged name = s.flagged name ∧
      (s'.states name).circuitState = (s.states name).circuitState :=
  ⟨congrArg Prod.snd h, congrArg Prod.fst h⟩

theorem flagsHalfOpen_step (hstaffed : Staffed config s) (h : FlagsHalfOpen s) (l : Label) :
    FlagsHalfOpen (step config s l) := by
  have hkeeps : ∀ c, ((step config s l).states c).probe = (s.states c).probe →
      (step config s l).flagged c = true →
      ((step config s l).states c).circuitState = .halfOpen := by
    intro c hprobe hflag
    obtain ⟨hflagged, hcircuit⟩ := flagged_eq_of_probe hprobe
    rw [hflagged] at hflag
    rw [hcircuit]
    exact h c hflag
  intro c hflag
  cases probeStep_step hstaffed l with
  | selects candidates name hselects hprobes hcalls =>
    have hprobe := hprobes c
    split at hprobe
    · exact congrArg Prod.fst hprobe
    · exact hkeeps c hprobe hflag
  | ends name hends hothers hprobe hcalls =>
    by_cases hne : c = name
    · subst hne
      obtain ⟨acquired, outcome, now, -, heq⟩ := hprobe
      by_cases hcancelled : outcome = .cancelled
      · subst hcancelled
        apply hkeeps c _ hflag
        rw [heq, after_cancelled]
      · rw [flagged, heq, after_flag (h c) acquired hcancelled now] at hflag
        cases hflag
    · exact hkeeps c (hothers c hne) hflag
  | same hselects hends hprobes hcalls => exact hkeeps c (hprobes c) hflag

/-- The end of a call clears the flag, unless it is a cancellation. -/
theorem flagged_ends (hstaffed : Staffed config s) (h : FlagsHalfOpen s)
    (hends : EndsCall s l name) :
    (CancelsCall s l name → (step config s l).flagged name = s.flagged name) ∧
      (¬ CancelsCall s l name → (step config s l).flagged name = false) := by
  cases probeStep_step hstaffed l with
  | selects candidates name' hselects => exact absurd hends (hselects.not_endsCall name)
  | ends name' hends' hothers hprobe hcalls =>
    obtain rfl := hends.unique hends'
    obtain ⟨acquired, outcome, now, hcancels, heq⟩ := hprobe
    constructor
    · intro hcancel
      obtain rfl := hcancels.2 hcancel
      have hprobe : ((step config s l).states name).probe = (s.states name).probe := by
        rw [heq, after_cancelled]
      exact (flagged_eq_of_probe hprobe).1
    · intro hcancel
      rw [flagged, heq]
      exact after_flag (h name) acquired (fun hc => hcancel (hcancels.1 hc)) now
  | same hselects hnone => exact absurd hends (hnone name)

theorem count_cons_calls (calls : List String) (name c : String) :
    (name :: calls).count c = calls.count c + (if c = name then 1 else 0) := by
  rw [count_cons]
  congr 1
  by_cases h : name = c
  · subst h
    simp
  · rw [if_neg (by simpa using h), if_neg (Ne.symm h)]

/-- After a selection, a reserved candidate has the calls it had, and the one that was selected
one more. -/
theorem Selects.step (hstaffed : Staffed config s) (h : Selects config s l candidates name)
    (c : String) :
    (step config s l).outstanding c = s.outstanding c + (if c = name then 1 else 0) ∧
      ((step config s l).states c).probe =
        if c ∈ candidates ∧ (s.states c).circuitState ≠ .closed then (.halfOpen, true)
        else (s.states c).probe := by
  cases probeStep_step hstaffed l with
  | selects candidates' name' hselects hprobes hcalls =>
    obtain ⟨rfl, rfl⟩ := h.unique hselects
    refine ⟨?_, hprobes c⟩
    rw [outstanding, hcalls.count_eq, count_cons_calls]
    rfl
  | ends name' hends => exact absurd hends (h.not_endsCall name')
  | same hnone => exact absurd h (hnone candidates name)

/-- A step that meets the condition keeps one call for each reserved probe. -/
theorem probesSole_step (hstaffed : Staffed config s) (hhalf : FlagsHalfOpen s) (h : ProbesSole s)
    (hl : KeepsProbes config s l) : ProbesSole (step config s l) := by
  intro c hflag
  cases probeStep_step hstaffed l with
  | selects candidates name hselects hprobes hcalls =>
    obtain ⟨hcount, hprobe⟩ := hselects.step hstaffed c
    rw [hcount]
    split at hprobe
    · rename_i hcandidate
      exact hl.selects candidates name hselects c hcandidate.1 hcandidate.2
    rename_i hcandidate
    obtain ⟨hflagged, -⟩ := flagged_eq_of_probe hprobe
    rw [hflagged] at hflag
    have hne : c ≠ name := by
      rintro rfl
      apply hcandidate
      refine ⟨hselects.mem, ?_⟩
      rw [hhalf c hflag]
      decide
    rw [if_neg hne]
    exact h c hflag
  | ends name hends hothers hprobe hcalls =>
    by_cases hne : c = name
    · subst hne
      obtain ⟨hcancelled, hcleared⟩ := flagged_ends hstaffed hhalf hends
      by_cases hcancels : CancelsCall s l c
      · rw [hcancelled hcancels, hl.ends c hcancels] at hflag
        cases hflag
      · rw [hcleared hcancels] at hflag
        cases hflag
    · rw [(flagged_eq_of_probe (hothers c hne)).1] at hflag
      have hcount := hcalls.count_eq c
      rw [count_cons_calls, if_neg hne] at hcount
      have hsole := h c hflag
      rw [outstanding] at hsole ⊢
      omega
  | same hselects hends hprobes hcalls =>
    rw [(flagged_eq_of_probe (hprobes c)).1] at hflag
    rw [outstanding, hcalls]
    exact h c hflag

/-! ## A call on its way to its end -/

/-- Until it ends, a call is on its way to its end. -/
theorem calling_step (config : Config) (hstarted : s.started = true)
    (hw : s.workers[w]? = some phase) (hprovider : phase.provider = some name)
    (hends : ¬ EndsCall s l name) :
    ∃ phase', (step config s l).workers[w]? = some phase' ∧ phase'.provider = some name ∧
      phase'.rank config ≤ phase.rank config ∧
      (Runs s l w → phase'.rank config < phase.rank config) := by
  by_cases hruns : Runs s l w
  · cases l with
    | wake v =>
      obtain ⟨rfl, -, hphase⟩ := hruns
      rcases hphase with hphase | hphase
      · rw [hphase] at hw
        cases hw
        cases hprovider
      · rw [hphase] at hw
        cases hw
        cases hprovider
    | resume now selectedAt =>
      obtain ⟨-, phase', hphase, hrunning⟩ := hruns
      rw [mem_def, hw] at hphase
      cases hphase
      cases phase with
      | acquiring job attempt name' | calling job attempt name' requested => cases hrunning
      | _ => cases hprovider
    | acquired v =>
      obtain ⟨rfl, hcurrent, job, attempt, name', hphase, hfree⟩ := hruns
      rw [hphase] at hw
      cases hw
      refine ⟨.calling job attempt name' false, ?_, hprovider, ?_, fun _ => ?_⟩
      · simp only [step, hcurrent, idleStep, hphase, if_pos hfree]
        exact getElem?_set_self (List.getElem?_eq_some_iff.1 hphase).1
      · simp only [rank]
        omega
      · simp only [rank]
        omega
    | acquireTimeout v now =>
      obtain ⟨rfl, hcurrent, job, attempt, name', hphase⟩ := hruns
      rw [hphase] at hw
      cases hw
      cases hprovider
      exact absurd ⟨hcurrent, job, attempt, hphase⟩ hends
    | callEnds v outcome now =>
      obtain ⟨rfl, hcurrent, job, attempt, name', requested, hphase, hnot⟩ := hruns
      rw [hphase] at hw
      cases hw
      cases hprovider
      exact absurd ⟨hcurrent, job, attempt, requested, hphase, hnot⟩ hends
    | _ => cases hruns
  · have hstays : Stays config (step config s l) w phase := stays_step hw hstarted hruns
    obtain ⟨phase', hw', -, hprovider', hrank⟩ := hstays.same
    exact ⟨phase', hw', hprovider'.trans hprovider, by omega, fun h => absurd h hruns⟩

/-! ## Runs -/

section Run

variable {labels : Nat → Label}

theorem staffed_reached (config : Config) (labels : Nat → Label) (n : Nat) :
    Staffed config (reached config labels n) := by
  have hstep : ∀ s l, True → Staffed config s → Staffed config (step config s l) :=
    fun _ l _ hs => staffed_step hs l
  exact stateAt_invariant hstep (fun _ => trivial) (kept_init config).staffed n

theorem flagsHalfOpen_reached (config : Config) (labels : Nat → Label) (n : Nat) :
    FlagsHalfOpen (reached config labels n) := by
  induction n with
  | zero =>
    intro name hflag
    cases hflag
  | succ n ih => exact flagsHalfOpen_step (staffed_reached config labels n) ih (labels n)

/-- The probes of a run are given back. -/
structure ProbesReturned (config : Config) (labels : Nat → Label) : Prop where
  sole : ∀ n, ProbesSole (reached config labels n)
  cleared : ∀ n name, EndsCall (reached config labels n) (labels n) name →
    (reached config labels (n + 1)).flagged name = false
  released : Fair config labels → ∀ n name, ∃ m ≥ n, (reached config labels m).flagged name = false

/-- A reserved probe is given back once its call came to its end. -/
theorem Fair.released (hfair : Fair config labels)
    (hsole : ∀ n, ProbesSole (reached config labels n))
    (hcleared : ∀ n name, EndsCall (reached config labels n) (labels n) name →
      (reached config labels (n + 1)).flagged name = false) (n : Nat) (name : String) :
    ∃ m ≥ n, (reached config labels m).flagged name = false := by
  by_contra hnever
  have hflag : ∀ m ≥ n, (reached config labels m).flagged name = true := by
    intro m hm
    rw [← Bool.not_eq_false]
    exact fun hfalse => hnever ⟨m, hm, hfalse⟩
  have hends : ∀ m ≥ n, ¬ EndsCall (reached config labels m) (labels m) name := by
    intro m hm hends
    have hfalse := hcleared m name hends
    rw [hflag (m + 1) (by omega)] at hfalse
    cases hfalse
  -- the call that is outstanding stays, with its worker
  have hcount := hsole n name (hflag n (Nat.le_refl n))
  have hmem : name ∈ (reached config labels n).calls := by
    apply count_pos_iff.1
    rw [outstanding] at hcount
    omega
  obtain ⟨phase, hphase, hprovider⟩ := mem_filterMap.1 hmem
  obtain ⟨w, hw⟩ := mem_iff_getElem?.1 hphase
  have hcalling : ∀ m ≥ n, (reached config labels m).started = true ∧ ∃ phase,
      (reached config labels m).workers[w]? = some phase ∧ phase.provider = some name := by
    have hstarted : ∀ m phase, (reached config labels m).workers[w]? = some phase →
        (reached config labels m).started = true := by
      intro m phase hw
      by_contra hnot
      have hstaffed := staffed_reached config labels m
      rw [Staffed, if_neg hnot] at hstaffed
      have hlt := (List.getElem?_eq_some_iff.1 hw).1
      omega
    intro m hm
    induction m, hm using Nat.le_induction with
    | base => exact ⟨hstarted n phase hw, phase, hw, hprovider⟩
    | succ m hm ih =>
      obtain ⟨hm', phase', hw', hprovider'⟩ := ih
      obtain ⟨phase'', hw'', hprovider'', -⟩ :=
        calling_step config hm' hw' hprovider' (hends m hm)
      exact ⟨hstarted (m + 1) phase'' hw'', phase'', hw'', hprovider''⟩
  let rank : Nat → Nat := fun m =>
    (((reached config labels m).workers[w]?).map (rank config)).getD 0
  have hrank : ∀ m ≥ n, rank (m + 1) ≤ rank m ∧
      (Runs (reached config labels m) (labels m) w → rank (m + 1) < rank m) := by
    intro m hm
    obtain ⟨hm', phase', hw', hprovider'⟩ := hcalling m hm
    obtain ⟨phase'', hw'', -, hle, hlt⟩ :=
      calling_step config hm' hw' hprovider' (hends m hm)
    have hafter : (reached config labels (m + 1)).workers[w]? = some phase'' := hw''
    simp only [rank, hw', hafter, map_some, getD_some]
    exact ⟨hle, hlt⟩
  refine not_decreasing (fun m hm => (hrank m hm).1) ?_
  intro m hm
  obtain ⟨-, phase', hw', hprovider'⟩ := hcalling m hm
  have hable : phase'.able := by
    constructor
    · rintro rfl
      cases hprovider'
    · rintro rfl
      cases hprovider'
  obtain ⟨k, hk, hruns⟩ := hfair m w phase' hw' hable
  exact ⟨k, hk, (hrank k (by omega)).2 hruns⟩

end Run

/-- The probes are given back just when each step meets the condition. -/
theorem probesReturned_iff (config : Config) (labels : Nat → Label) : ProbesReturned config labels ↔
      ∀ n, KeepsProbes config (reached config labels n) (labels n) := by
  have hstaffed := staffed_reached config labels
  have hhalf := flagsHalfOpen_reached config labels
  constructor
  · intro h n
    constructor
    · intro candidates name hselects c hc hopen
      obtain ⟨hcount, hprobe⟩ := hselects.step (hstaffed n) c
      rw [if_pos ⟨hc, hopen⟩] at hprobe
      rw [← hcount]
      exact h.sole (n + 1) c (congrArg Prod.snd hprobe)
    · intro name hcancels
      rw [← (flagged_ends (hstaffed n) (hhalf n) hcancels.1).1 hcancels]
      exact h.cleared n name hcancels.1
  intro h
  have hsole : ∀ n, ProbesSole (reached config labels n) := by
    intro n
    induction n with
    | zero =>
      intro name hflag
      cases hflag
    | succ n ih => exact probesSole_step (hstaffed n) (hhalf n) ih (h n)
  have hcleared : ∀ n name, EndsCall (reached config labels n) (labels n) name →
      (reached config labels (n + 1)).flagged name = false := by
    intro n name hends
    obtain ⟨hcancelled, hcleared⟩ := flagged_ends (hstaffed n) (hhalf n) hends
    by_cases hcancels : CancelsCall (reached config labels n) (labels n) name
    · exact (hcancelled hcancels).trans ((h n).ends name hcancels)
    · exact hcleared hcancels
  exact ⟨hsole, hcleared, fun hfair => hfair.released hsole hcleared⟩

/-! Two providers fail, and are due for a probe at the same time: only one of them is called. -/

/-- One worker and two providers, whose circuits open at the first failure. -/
def twoProviders : Config where
  enabled := true
  eligibleProviders := ["xfyun", "local"]
  providers := [("xfyun", ⟨1, 1, true, true, Nat.one_pos, Nat.one_pos⟩),
    ("local", ⟨1, 1, true, true, Nat.one_pos, Nat.one_pos⟩)]
  maxConcurrency := 1
  queueSize := 4
  jobDeadline := minute
  maxAttempts := 2
  circuitFailureThreshold := 1
  circuitCooldown := minute
  scopeMaxConcurrency := 2
  scopeRateLimitPerMinute := 0
  eligibleProviders_nodup := by simp
  maxConcurrency_pos := Nat.one_pos
  jobDeadline_pos := minute_pos
  maxAttempts_pos := Nat.two_pos
  circuitFailureThreshold_pos := Nat.one_pos
  circuitCooldown_pos := minute_pos
  scopeMaxConcurrency_pos := Nat.two_pos

/-- A job fails with both providers, and the next one is made after the cooldown. -/
def bothDue : List Label :=
  [.transcribe ⟨true, ⟨"t", "p", "d"⟩, none, none, some "f"⟩ 0, .wake 0, .resume 0 0, .resume 0 0,
    .resume 0 0, .acquired 0, .callEnds 0 (.raises .providerTransient) 0,
    .resume 0 0, .acquired 0, .callEnds 0 (.raises .providerTransient) 0, .resume 0 0,
    .transcribe ⟨true, ⟨"t", "p", "d"⟩, none, none, some "f"⟩ 70000000, .wake 0,
    .resume 70000000 70000000, .resume 70000000 70000000, .resume 70000000 70000000]

theorem bothDue_breaks : ¬ ProbesReturned twoProviders fun n => bothDue.getD n (.resume 0 0) := by
  intro h
  have hsole := h.sole 16 "local" (by decide +kernel)
  revert hsole
  decide +kernel

end Stt
