import EchoDesk.Foundations.Transition
import Mathlib.Data.Nat.Find

/-! # Infinite runs

The states of a run that never ends, and the two rules its liveness rests on: what
decreases again and again is impossible, and what a rank leads to is reached.
-/

namespace Fairness

open Transition

universe u v

variable {σ : Type u} {α : Type v} {step : σ → α → σ}

/-- The state after the first `n` labels. -/
def stateAt (step : σ → α → σ) (s : σ) (labels : Nat → α) : Nat → σ
  | 0 => s
  | n + 1 => step (stateAt step s labels n) (labels n)

/-- What a step that meets the condition keeps, holds at every time. -/
theorem stateAt_invariant {G : σ → α → Prop} {Inv : StatePred σ}
    (hstep : ∀ s a, G s a → Inv s → Inv (step s a)) {s : σ} {labels : Nat → α}
    (hG : ∀ n, G (stateAt step s labels n) (labels n)) (hs : Inv s) (n : Nat) :
    Inv (stateAt step s labels n) := by
  induction n with
  | zero => exact hs
  | succ n ih => exact hstep _ _ (hG n) ih

/-- A number that never grows can not decrease again and again. -/
theorem not_decreasing {f : Nat → Nat} {start : Nat} (hle : ∀ n ≥ start, f (n + 1) ≤ f n) :
    ¬ ∀ n ≥ start, ∃ m ≥ n, f (m + 1) < f m := by
  intro hlt
  have hmono : ∀ n ≥ start, ∀ d, f (n + d) ≤ f n := by
    intro n hn d
    induction d with
    | zero => exact le_rfl
    | succ d ih => exact Nat.le_trans (hle (n + d) (by omega)) ih
  have hdescend : ∀ k n, start ≤ n → f n ≤ k → False := by
    intro k
    induction k with
    | zero =>
      intro n hn hk
      obtain ⟨m, hm, hdrop⟩ := hlt n hn
      have := hmono n hn (m - n)
      rw [Nat.add_sub_cancel' hm] at this
      omega
    | succ k ih =>
      intro n hn hk
      obtain ⟨m, hm, hdrop⟩ := hlt n hn
      have := hmono n hn (m - n)
      rw [Nat.add_sub_cancel' hm] at this
      exact ih (m + 1) (by omega) (by omega)
  exact hdescend (f start) start (le_rfl) (le_rfl)

/-- A goal is reached that every time comes closer to by a rank. -/
theorem exists_of_rank {goal : Nat → Prop} {rank : Nat → Nat} {start : Nat}
    (h : ∀ n ≥ start, ∃ m ≥ n, goal m ∨ rank (m + 1) < rank n) :
    ∀ n ≥ start, ∃ m ≥ n, goal m := by
  have hrank : ∀ k n, start ≤ n → rank n ≤ k → ∃ m ≥ n, goal m := by
    intro k
    induction k with
    | zero =>
      intro n hn hk
      obtain ⟨m, hm, hgoal | hlt⟩ := h n hn
      · exact ⟨m, hm, hgoal⟩
      · omega
    | succ k ih =>
      intro n hn hk
      obtain ⟨m, hm, hgoal | hlt⟩ := h n hn
      · exact ⟨m, hm, hgoal⟩
      · obtain ⟨m', hm', hgoal⟩ := ih (m + 1) (by omega) (by omega)
        exact ⟨m', by omega, hgoal⟩
  intro n hn
  exact hrank (rank n) n hn (le_rfl)

/-- Of the times something happens at, from some time on, there is a first. -/
theorem exists_first {p : Nat → Prop} {n : Nat} (h : ∃ m ≥ n, p m) :
    ∃ m ≥ n, p m ∧ ∀ k, n ≤ k → k < m → ¬ p k := by
  classical
  have hex : ∃ d, p (n + d) := by
    obtain ⟨m, hm, hp⟩ := h
    exact ⟨m - n, by rwa [Nat.add_sub_cancel' hm]⟩
  refine ⟨n + Nat.find hex, Nat.le_add_right _ _, Nat.find_spec hex, ?_⟩
  intro k hk hlt hp
  exact Nat.find_min hex (m := k - n) (by omega) (by rwa [Nat.add_sub_cancel' hk])

/-- What holds from some time on of each of finitely many, holds from some time on of all. -/
theorem exists_common {p : Nat → Nat → Prop} {count : Nat}
    (h : ∀ i < count, ∃ start, ∀ n ≥ start, p i n) : ∃ start, ∀ i < count, ∀ n ≥ start, p i n := by
  induction count with
  | zero => exact ⟨0, fun i hi => absurd hi (Nat.not_lt_zero i)⟩
  | succ count ih =>
    obtain ⟨start₁, h₁⟩ := ih fun i hi => h i (Nat.lt_succ_of_lt hi)
    obtain ⟨start₂, h₂⟩ := h count (Nat.lt_succ_self count)
    refine ⟨max start₁ start₂, ?_⟩
    intro i hi n hn
    have hstart₁ : start₁ ≤ n := by omega
    have hstart₂ : start₂ ≤ n := by omega
    rcases Nat.lt_succ_iff_lt_or_eq.1 hi with hi | rfl
    · exact h₁ i hi n hstart₁
    · exact h₂ n hstart₂

end Fairness
