import EchoDesk.Stt.Readiness

/-! # The line of jobs

The jobs that wait are taken from the front of one line: the dispatch queue, and the
backlog after it. A new job joins it at the end, but for one: while a worker is free,
it joins before the backlog.
-/

namespace Stt

open List Scheduler

variable {config : Config} {s : Scheduler}
variable {s' : Scheduler} {job : Nat}

theorem workerKeeps_line (s₀ : Scheduler) (w : Nat) : WorkerKeeps w (·.line = s₀.line) where
  goes _ _ _ _ h := h
  provider _ _ _ h := h
  ended _ _ _ _ h := h

theorem line_start (config : Config) (s : Scheduler) : (s.start config).line = s.line := by
  unfold start
  split
  · rfl
  split
  · rfl
  · rfl

theorem line_setWorkAvailable (s : Scheduler) : s.setWorkAvailable.line = s.line := by
  unfold setWorkAvailable
  split
  · rfl
  · rfl

/-- The worker takes the first job of the line. -/
def TakesFirst (s s' : Scheduler) : Prop := ∃ job, s.line = job :: s'.line ∧ job ∈ s'.held

theorem takesFirst_nextJob (hline : s.line ≠ []) {w : Nat} (hw : s.workers[w]? = some .next) :
    TakesFirst s (s.nextJob w) := by
  have htaken : ∀ job, job ∈ (s.setPhase w (.taken job)).held := by
    intro job
    have hperm := held_take hw rfl (rfl : (Phase.taken job).job = some job)
    rw [hperm.mem_iff]
    exact mem_cons_self
  rcases nextJob_cases s w with ⟨job, rest, hdispatch, heq⟩ | ⟨job, rest, hdispatch, hqueue, heq⟩ |
    ⟨hdispatch, hqueue, -⟩
  · rw [heq]
    refine ⟨job, ?_, htaken job⟩
    simp only [line, hdispatch]
    rfl
  · rw [heq]
    refine ⟨job, ?_, htaken job⟩
    simp only [line, setPhase, hdispatch, hqueue]
    rfl
  · exact absurd (by simp [line, hdispatch, hqueue]) hline

/-- What a step does to the line. -/
inductive LineStep (config : Config) (s s' : Scheduler) : Prop where
  | same (hline : s'.line = s.line)
  | taken (htaken : TakesFirst s s')
  | joins (front back : List Nat) (hline : s.line = front ++ back)
      (hjoined : s'.line = front ++ s.jobs.length :: back)
      (hfree : back = [] ∨
        s.current = none ∧ s.activeJobs + s.dispatchReserved < config.maxConcurrency)

theorem lineStep_enqueue (hcurrent : s.current = none) (request : Request) (fingerprint : String)
    (now : Int) : LineStep config s (s.enqueueAdmittedJob config request fingerprint now) := by
  by_cases hreserves : s.activeJobs + s.dispatchReserved < config.maxConcurrency
  · refine .joins s.dispatchQueue s.queue rfl ?_ (.inr ⟨hcurrent, hreserves⟩)
    unfold enqueueAdmittedJob
    rw [line_setWorkAvailable]
    simp only [line, if_pos hreserves]
    rw [append_assoc]
    rfl
  · refine .joins s.line [] (append_nil _).symm ?_ (.inl rfl)
    unfold enqueueAdmittedJob
    rw [line_setWorkAvailable]
    simp only [line, if_neg hreserves]
    rw [append_assoc]

theorem lineStep_transcribe (hcurrent : s.current = none) (request : Request) (now : Int) :
    LineStep config s (s.transcribe config request now).2 := by
  unfold transcribe
  split
  · exact .same rfl
  have hline := line_start config s
  have hsame : (s.start config).jobs = s.jobs ∧ (s.start config).current = s.current ∧
      (s.start config).activeJobs = s.activeJobs ∧
      (s.start config).dispatchReserved = s.dispatchReserved := by
    unfold start
    split
    · exact ⟨rfl, rfl, rfl, rfl⟩
    split
    · exact ⟨rfl, rfl, rfl, rfl⟩
    · exact ⟨rfl, rfl, rfl, rfl⟩
  obtain ⟨hjobs, hnone, hactive, hreserved⟩ := hsame
  generalize s.start config = s₁ at hline hjobs hnone hactive hreserved
  rw [hcurrent] at hnone
  obtain ⟨records, scopes, heq | ⟨fingerprint, -, -, -, heq⟩⟩ :=
    admit_cases config s₁ request now
  · rw [heq]
    exact .same hline
  let s₂ : Scheduler := { s₁ with idempotency := records, scopeStates := scopes }
  have hstep : LineStep config s₂ (s₂.enqueueAdmittedJob config request fingerprint now) :=
    lineStep_enqueue (s := s₂) hnone request fingerprint now
  rw [heq]
  cases hstep with
  | same h => exact .same (h.trans hline)
  | taken h =>
    obtain ⟨job, hfirst, hheld⟩ := h
    exact .taken ⟨job, hline.symm.trans hfirst, hheld⟩
  | joins front back h hjoined hfree =>
    refine .joins front back (hline.symm.trans h) (hjoined.trans ?_) ?_
    · rw [← hjobs]
    · rw [← hactive, ← hreserved]
      exact hfree.imp id fun h => ⟨hcurrent, h.2⟩

theorem lineStep_resume (w : Nat) (now selectedAt : Int) :
    LineStep config s (s.resume config w now selectedAt) := by
  unfold resume
  split
  · rename_i hw
    by_cases hline : s.line = []
    · refine .same ?_
      rcases nextJob_cases s w with ⟨job, rest, hdispatch, -⟩ | ⟨job, rest, -, hqueue, -⟩ |
        ⟨-, -, heq⟩
      · simp [line, hdispatch] at hline
      · simp [line, hqueue] at hline
      · rw [heq]
        rfl
    · exact .taken (takesFirst_nextJob hline hw)
  · split
    · exact .same ((workerKeeps_line s w).endJob (by simp [JobEnd.future]) rfl)
    · exact .same rfl
  · exact .same ((workerKeeps_line s w).execute id rfl _ _ _)
  · exact .same rfl

theorem lineStep_idleStep (hcurrent : s.current = none) (l : Label) :
    LineStep config s (s.idleStep config l) := by
  by_cases hcall : ∃ request now, l = .transcribe request now
  · obtain ⟨request, now, rfl⟩ := hcall
    exact lineStep_transcribe hcurrent request now
  · refine .same (WorkerKeeps.idleStep (workerKeeps_line s) rfl (line_start config s) ?_ ?_)
    · exact fun request now hl => absurd ⟨request, now, hl⟩ hcall
    · exact fun _ _ => rfl

/-- All a step does to the line. -/
theorem lineStep_step (config : Config) (s : Scheduler) (l : Label) :
    LineStep config s (step config s l) := by
  unfold step
  split
  · exact lineStep_resume _ _ _
  · exact .same rfl
  · rename_i hcurrent
    exact lineStep_idleStep hcurrent _

/-! ## One job in the line -/

/-- A job leaves the line only into the hands of a worker. -/
theorem LineStep.stays (h : LineStep config s s') (hjob : job ∈ s.line) (hnot : job ∉ s'.held) :
    job ∈ s'.line := by
  cases h with
  | same hline => rwa [hline]
  | taken htaken =>
    obtain ⟨first, hline, hheld⟩ := htaken
    rw [hline] at hjob
    rcases mem_cons.1 hjob with rfl | hjob
    · exact absurd hheld hnot
    · exact hjob
  | joins front back hline hjoined hfree =>
    rw [hline, mem_append] at hjob
    rw [hjoined, mem_append, mem_cons]
    rcases hjob with hjob | hjob
    · exact .inl hjob
    · exact .inr (.inr hjob)

/-- The worker that takes the first of the line brings the others forward. -/
theorem TakesFirst.idxOf_lt (h : TakesFirst s s') (hnot : job ∉ s'.held) (hjob : job ∈ s.line) :
    s'.line.idxOf job < s.line.idxOf job := by
  obtain ⟨first, hline, hheld⟩ := h
  have hne : first ≠ job := by
    rintro rfl
    exact hnot hheld
  rw [hline, idxOf_cons_ne _ hne]
  exact Nat.lt_succ_self _

/-- While no worker is free, no job is put back. -/
theorem LineStep.idxOf_le (h : LineStep config s s') (hjob : job ∈ s.line) (hnot : job ∉ s'.held)
    (hfull : s.current = none → config.maxConcurrency ≤ s.activeJobs + s.dispatchReserved) :
    s'.line.idxOf job ≤ s.line.idxOf job := by
  cases h with
  | same hline => rw [hline]
  | taken htaken => exact Nat.le_of_lt (htaken.idxOf_lt hnot hjob)
  | joins front back hline hjoined hfree =>
    rcases hfree with rfl | ⟨hcurrent, hlt⟩
    · rw [append_nil] at hline
      rw [hline] at hjob ⊢
      rw [hjoined, idxOf_append_of_mem hjob]
    · have := hfull hcurrent
      omega

end Stt
