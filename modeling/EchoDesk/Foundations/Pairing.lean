import Mathlib.Data.List.Count
import Mathlib.Data.List.Nodup

/-! # Calls and their returns

A transcript of calls and returns that is cut into rounds. It is paired when each call is
returned exactly once within its round and each return answers a call of its round. Rounds do
not speak of each other, so a paired transcript stays paired when a paired round is added.
-/

namespace Pairing

open List

universe u

/-- What one entry of a transcript is to the pairing. -/
inductive Mark (ι : Type u) where
  | round
  | call (i : ι)
  | ret (i : ι)
deriving DecidableEq

variable {ι : Type u}

/-- The rest of the round. -/
def untilRound : List (Mark ι) → List (Mark ι)
  | [] => []
  | .round :: _ => []
  | .call i :: rest => .call i :: untilRound rest
  | .ret i :: rest => .ret i :: untilRound rest

/-- Each return answers one of the calls of its round; `calls` are those made so far. -/
def Called : List ι → List (Mark ι) → Prop
  | _, [] => True
  | _, .round :: rest => Called [] rest
  | calls, .call i :: rest => Called (i :: calls) rest
  | calls, .ret i :: rest => i ∈ calls ∧ Called calls rest

variable (xs ys : List (Mark ι)) (rets : List ι)

theorem untilRound_append_round : untilRound (xs ++ .round :: ys) = untilRound xs := by
  induction xs with
  | nil => rfl
  | cons x xs ih =>
    cases x with
    | round => rfl
    | call i => exact congrArg (Mark.call i :: ·) ih
    | ret i => exact congrArg (Mark.ret i :: ·) ih

theorem called_append_round (calls : List ι) (xs ys : List (Mark ι)) :
    Called calls (xs ++ .round :: ys) ↔ Called calls xs ∧ Called [] ys := by
  induction xs generalizing calls with
  | nil => simp [Called]
  | cons x xs ih =>
    cases x with
    | round => exact ih []
    | call i => exact ih (i :: calls)
    | ret i => rw [cons_append, Called, Called, ih, and_assoc]

theorem called_rets (calls rets : List ι) :
    Called calls (rets.map .ret) ↔ ∀ i ∈ rets, i ∈ calls := by
  induction rets with
  | nil => simp [Called]
  | cons i rets ih => simp [Called, ih]

theorem called_calls_rets (made calls rets : List ι) :
    Called made (calls.map .call ++ rets.map .ret) ↔ ∀ i ∈ rets, i ∈ calls ∨ i ∈ made := by
  induction calls generalizing made with
  | nil => simp [called_rets]
  | cons i calls ih =>
    rw [map_cons, cons_append, Called, ih]
    simp only [mem_cons]
    constructor
    · intro h j hj
      have := h j hj
      tauto
    · intro h j hj
      have := h j hj
      tauto

theorem untilRound_rets : untilRound (rets.map .ret) = rets.map .ret := by
  induction rets with
  | nil => rfl
  | cons i rets ih => exact congrArg (Mark.ret i :: ·) ih

theorem untilRound_calls_rets (calls rets : List ι) :
    untilRound (calls.map .call ++ rets.map .ret) = calls.map .call ++ rets.map .ret := by
  induction calls with
  | nil => exact untilRound_rets rets
  | cons i calls ih => exact congrArg (Mark.call i :: ·) ih

variable [DecidableEq ι]

/-- Each call is returned exactly once before the next round. -/
def Returned : List (Mark ι) → Prop
  | [] => True
  | .call i :: rest => (untilRound rest).count (.ret i) = 1 ∧ Returned rest
  | .round :: rest => Returned rest
  | .ret _ :: rest => Returned rest

instance decidableReturned : ∀ marks : List (Mark ι), Decidable (Returned marks)
  | [] => .isTrue trivial
  | .call _ :: rest =>
    have := decidableReturned rest
    inferInstanceAs (Decidable (_ ∧ _))
  | .round :: rest => decidableReturned rest
  | .ret _ :: rest => decidableReturned rest

instance decidableCalled : ∀ (calls : List ι) (marks : List (Mark ι)), Decidable (Called calls marks)
  | _, [] => .isTrue trivial
  | _, .round :: rest => decidableCalled [] rest
  | calls, .call i :: rest => decidableCalled (i :: calls) rest
  | calls, .ret _ :: rest =>
    have := decidableCalled calls rest
    inferInstanceAs (Decidable (_ ∧ _))

/-- Calls and returns pair up, round by round. -/
structure Paired (marks : List (Mark ι)) : Prop where
  returned : Returned marks
  called : Called [] marks

instance (marks : List (Mark ι)) : Decidable (Paired marks) :=
  decidable_of_iff (Returned marks ∧ Called [] marks) ⟨fun h => ⟨h.1, h.2⟩, fun h => ⟨h.1, h.2⟩⟩

theorem paired_nil : Paired ([] : List (Mark ι)) := ⟨trivial, trivial⟩

/-! ## A round at the end -/

theorem returned_append_round : Returned (xs ++ .round :: ys) ↔ Returned xs ∧ Returned ys := by
  induction xs with
  | nil => simp [Returned]
  | cons x xs ih =>
    cases x with
    | round => exact ih
    | ret i => exact ih
    | call i =>
      rw [cons_append, Returned, Returned, untilRound_append_round, ih, and_assoc]

/-- Rounds pair up on their own. -/
theorem paired_append_round : Paired (xs ++ .round :: ys) ↔ Paired xs ∧ Paired ys := by
  constructor
  · rintro ⟨hret, hcall⟩
    rw [returned_append_round] at hret
    rw [called_append_round] at hcall
    exact ⟨⟨hret.1, hcall.1⟩, ⟨hret.2, hcall.2⟩⟩
  · rintro ⟨hx, hy⟩
    constructor
    · exact (returned_append_round xs ys).2 ⟨hx.returned, hy.returned⟩
    · exact (called_append_round [] xs ys).2 ⟨hx.called, hy.called⟩

/-! ## One round of calls, then their returns -/

theorem count_calls_rets (calls rets : List ι) (i : ι) :
    (calls.map Mark.call ++ rets.map Mark.ret).count (.ret i) = rets.count i := by
  have hcalls : (calls.map (Mark.call : ι → Mark ι)).count (.ret i) = 0 := by
    rw [count_eq_zero]
    simp
  have hinj : Function.Injective (Mark.ret : ι → Mark ι) := fun _ _ h => Mark.ret.inj h
  rw [count_append, hcalls, Nat.zero_add, count_map_of_injective _ _ hinj]

theorem returned_rets : Returned (rets.map Mark.ret) := by
  induction rets with
  | nil => trivial
  | cons i rets ih => exact ih

theorem returned_calls_rets (calls rets : List ι) :
    Returned (calls.map .call ++ rets.map .ret) ↔ ∀ i ∈ calls, rets.count i = 1 := by
  induction calls with
  | nil => simp [returned_rets]
  | cons i calls ih =>
    rw [map_cons, cons_append, Returned, untilRound_calls_rets, count_calls_rets, ih]
    simp

/-- Different calls, each returned in turn. -/
theorem paired_calls_rets {ids : List ι} (hids : ids.Nodup) :
    Paired (ids.map .call ++ ids.map .ret) := by
  constructor
  · rw [returned_calls_rets]
    intro i hi
    exact count_eq_one_of_mem hids hi
  · rw [called_calls_rets]
    intro i hi
    exact Or.inl hi

end Pairing
