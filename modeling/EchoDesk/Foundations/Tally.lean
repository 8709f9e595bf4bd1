import Mathlib.Algebra.BigOperators.Group.List.Basic
import Mathlib.Algebra.Order.Ring.Nat

/-! # Totals over a list of entries

Accounts kept next to a list: the sum of what each entry weighs, and how it moves
when one entry is added or replaced.
-/

namespace Tally

open List

universe u

variable {α : Type u}

/-- What the entries weigh together. -/
def total (weight : α → Nat) (l : List α) : Nat := (l.map weight).sum

@[simp] theorem total_nil (weight : α → Nat) : total weight [] = 0 := rfl

@[simp] theorem total_cons (weight : α → Nat) (a : α) (l : List α) :
    total weight (a :: l) = weight a + total weight l := by
  simp [total]

@[simp] theorem total_append (weight : α → Nat) (l₁ l₂ : List α) :
    total weight (l₁ ++ l₂) = total weight l₁ + total weight l₂ := by
  simp [total]

variable {l : List α} {i : Nat} {a : α} (f : α → Option β)

/-- A replaced entry moves the total by the difference of the two weights. -/
theorem total_set (weight : α → Nat) (h : l[i]? = some a) (b : α) :
    total weight (l.set i b) + weight a = total weight l + weight b := by
  induction l generalizing i with
  | nil => cases h
  | cons c l ih =>
    cases i with
    | zero =>
      have hc : c = a := Option.some.inj h
      simp only [set_cons_zero, total_cons, hc]
      omega
    | succ i =>
      have hset := ih h
      simp only [set_cons_succ, total_cons]
      omega

/-- An entry of the same weight keeps the total. -/
theorem total_set_of_eq (weight : α → Nat) {b : α} (h : l[i]? = some a) (hw : weight b = weight a) :
    total weight (l.set i b) = total weight l := by
  have hset := total_set weight h b
  omega

/-! ## What the entries hold -/

theorem filterMap_cons_toList (a : α) (l : List α) :
    (a :: l).filterMap f = (f a).toList ++ l.filterMap f := by
  rw [filterMap_cons]
  cases f a with
  | none => rfl
  | some b => rfl

/-- A replaced entry holds its own in place of what the old one held. -/
theorem filterMap_set_perm (h : l[i]? = some a) (b : α) :
    ((f a).toList ++ (l.set i b).filterMap f).Perm ((f b).toList ++ l.filterMap f) := by
  induction l generalizing i with
  | nil => cases h
  | cons c l ih =>
    cases i with
    | zero =>
      obtain rfl : c = a := Option.some.inj h
      rw [set_cons_zero, filterMap_cons_toList, filterMap_cons_toList]
      exact perm_append_comm_assoc _ _ _
    | succ i =>
      rw [set_cons_succ, filterMap_cons_toList, filterMap_cons_toList]
      refine (perm_append_comm_assoc _ _ _).trans ?_
      refine ((ih h).append_left _).trans ?_
      exact perm_append_comm_assoc _ _ _

/-- An entry that holds the same keeps what is held. -/
theorem filterMap_set_of_eq {b : α} (h : l[i]? = some a) (hf : f b = f a) :
    (l.set i b).filterMap f = l.filterMap f := by
  induction l generalizing i with
  | nil => cases h
  | cons c l ih =>
    cases i with
    | zero =>
      obtain rfl : c = a := Option.some.inj h
      rw [set_cons_zero, filterMap_cons, filterMap_cons, hf]
    | succ i => rw [set_cons_succ, filterMap_cons, filterMap_cons, ih h]

end Tally
