import EchoDesk.Stt.Deadlines

/-! # The turns of the jobs

A job that waits behind another in the line is not taken before it, whatever is admitted, cancelled
or failed over meanwhile. A job that joins before the backlog goes ahead of what waits there, but
it changes the order of no two that wait.
-/

namespace Stt

open Transition List

variable {config : Config} {s s' s'' : Scheduler}

/-- While the first of two jobs in the line waits, the other waits behind it. -/
def KeepsTurns (s s' : Scheduler) : Prop :=
  ∀ a b, [a, b].Sublist s.line → a ∈ s'.line → [a, b].Sublist s'.line

/-- No job is ever forgotten, so the number of a new one is not that of a job before. -/
theorem length_step (s : Scheduler) (l : Label) :
    s.jobs.length ≤ (step config s l).jobs.length := by
  have hstays : ∀ (i : Nat) j, s.jobs[i]? = some j →
      ((step config s l).jobs[i]?).map Job.deadlineAt = some j.deadlineAt := by
    unfold step
    split
    · rcases @resume_waits config s _ _ _ with hkeeps | ⟨_, _, _, _, -, hkeeps⟩
      · exact hkeeps.deadline
      · exact hkeeps.deadline
    · exact (Keeps.refl s).deadline
    · exact (keeps_idleStep s _).deadline
  by_contra hlt
  have hthere := hstays _ _ (getElem?_eq_getElem (Nat.lt_of_not_le hlt))
  rw [getElem?_eq_none (le_rfl)] at hthere
  cases hthere

theorem LineStep.turns (h : LineStep config s' s'') (hnodup : s'.line.Nodup)
    (hknown : ∀ job ∈ s.line, job < s'.jobs.length) (hturns : KeepsTurns s s') :
    KeepsTurns s s'' := by
  intro a b hab ha
  cases h with
  | same hline =>
    rw [hline] at ha ⊢
    exact hturns a b hab ha
  | taken htaken =>
    obtain ⟨job, hline, -⟩ := htaken
    have hwaits := hturns a b hab (hline ▸ mem_cons_of_mem job ha)
    rw [hline] at hwaits hnodup
    cases hwaits with
    | cons _ hwaits => exact hwaits
    | cons_cons _ _ => exact absurd ha (nodup_cons.1 hnodup).1
  | joins front back hline hjoined hfree =>
    have hne : a ≠ s'.jobs.length := Nat.ne_of_lt (hknown a (hab.subset mem_cons_self))
    have hwaits : a ∈ s'.line := by
      rw [hjoined, mem_append, mem_cons] at ha
      rw [hline, mem_append]
      tauto
    rw [hjoined]
    refine (hturns a b hab hwaits).trans ?_
    rw [hline]
    exact (sublist_cons_self _ back).append_left front

/-- From any state of a run on, the jobs are taken in the order they have in the line. -/
theorem turns_kept (config : Config) (before after : List Label) :
    KeepsTurns (run (step config) (.init config) before)
      (run (step config) (.init config) (before ++ after)) := by
  have hline : ∀ {s}, Kept config s → s.line.Nodup ∧ ∀ job ∈ s.line, job < s.jobs.length := by
    intro s h
    refine ⟨(List.nodup_append.1 h.accounted.nodup).1, fun job hjob => ?_⟩
    simpa [Scheduler.account] using h.accounted.known job (List.mem_append_left _ hjob)
  have hstep : ∀ s l, Kept config s → Kept config (step config s l) := fun _ l h => kept_step h l
  have hkept : Kept config (run (step config) (.init config) before) :=
    run_invariant hstep (kept_init config) before
  rw [run_append]
  generalize run (step config) (.init config) before = s at hkept
  have hinv : ∀ s' l, Kept config s' ∧ s.jobs.length ≤ s'.jobs.length ∧ KeepsTurns s s' →
      Kept config (step config s' l) ∧ s.jobs.length ≤ (step config s' l).jobs.length ∧
        KeepsTurns s (step config s' l) := by
    rintro s' l ⟨hkept', hlength, hturns⟩
    have hknown : ∀ job ∈ s.line, job < s'.jobs.length :=
      fun job hjob => Nat.lt_of_lt_of_le ((hline hkept).2 job hjob) hlength
    exact ⟨kept_step hkept' l, Nat.le_trans hlength (length_step s' l),
      (lineStep_step config s' l).turns (hline hkept').1 hknown hturns⟩
  exact (run_invariant hinv ⟨hkept, le_rfl, fun _ _ hab _ => hab⟩ after).2.2

end Stt
