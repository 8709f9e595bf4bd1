import Mathlib.Algebra.Order.Group.Defs
import Mathlib.Data.List.Basic

/-! # Sliding windows

A list of times, of which at most a number may lie in any window of a period. A time is
added when less than that number lie in the period before it; the times of an earlier
period need not be kept for that.
-/

namespace SlidingWindow

open List

universe u

variable {T : Type u} [AddCommGroup T] [LinearOrder T]

/-- The times in the period after `w`. -/
def within (period w : T) (times : List T) : List T := times.filter fun t => w < t ∧ t ≤ w + period

/-- The times in the period before `now`, and later ones. -/
def recent (period now : T) (times : List T) : List T := times.filter fun t => now - period < t

/-- At most `limit` of the times lie in each window. -/
def Limited (period : T) (limit : Nat) (times : List T) : Prop :=
  ∀ w, (within period w times).length ≤ limit

variable {period now : T} {limit : Nat} {times : List T}

theorem limited_nil : Limited period limit [] := fun _ => Nat.zero_le _

theorem recent_append (l₁ l₂ : List T) :
    recent period now (l₁ ++ l₂) = recent period now l₁ ++ recent period now l₂ :=
  filter_append l₁ l₂

/-- What is recent later is recent now. -/
theorem recent_recent [IsOrderedAddMonoid T] {now' : T} (h : now ≤ now') (times : List T) :
    recent period now' (recent period now times) = recent period now' times := by
  unfold recent
  rw [filter_filter]
  apply filter_congr
  intro t _
  have hle : now - period ≤ now' - period := sub_le_sub_right h period
  by_cases ht : now' - period < t
  · simp [ht, hle.trans_lt ht]
  · simp [ht]

/-- The times before the period are at the front. -/
theorem dropWhile_eq_recent (h : times.Pairwise (· ≤ ·)) :
    times.dropWhile (fun t => t ≤ now - period) = recent period now times := by
  induction times with
  | nil => rfl
  | cons t times ih =>
    obtain ⟨hfirst, hrest⟩ := pairwise_cons.1 h
    by_cases ht : t ≤ now - period
    · rw [dropWhile_cons_of_pos (by simpa using ht), ih hrest, recent, recent,
        filter_cons_of_neg (by simpa using ht)]
    rw [dropWhile_cons_of_neg (by simpa using ht), recent, filter_eq_self.2]
    intro a ha
    rw [not_le] at ht
    rcases mem_cons.1 ha with rfl | ha
    · simpa using ht
    · simpa using ht.trans_le (hfirst a ha)

/-- With less than the limit in the period before it, a time may be added. -/
theorem Limited.append [IsOrderedAddMonoid T] (h : Limited period limit times)
    (hroom : (recent period now times).length < limit) : Limited period limit (times ++ [now]) := by
  intro w
  rw [within, filter_append, length_append]
  by_cases hnow : w < now ∧ now ≤ w + period
  · -- the window ends after `now`, so what it held began in the period before `now`
    have hstart : now - period ≤ w := sub_le_iff_le_add.2 hnow.2
    have hsub : (within period w times).length ≤ (recent period now times).length := by
      apply List.Sublist.length_le
      apply monotone_filter_right
      intro t ht
      rw [decide_eq_true_eq] at ht ⊢
      exact hstart.trans_lt ht.1
    have hone := length_filter_le (fun t => decide (w < t ∧ t ≤ w + period)) [now]
    rw [length_singleton] at hone
    unfold within at hsub
    omega
  · rw [filter_cons_of_neg (by simpa using hnow), filter_nil, length_nil]
    exact h w

end SlidingWindow
