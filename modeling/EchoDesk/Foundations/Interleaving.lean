import Mathlib.Logic.Function.Basic

/-! # Processes that share a store

Processes `ι` with local states `Λ` work on one store `Σ` in steps of any order.
What a process knows about the store must survive the steps of the others: `R j`
is what process `j` relies on them for. `Invariant.update` is the rule: a step of
process `i` keeps the whole invariant when it keeps its own part and guarantees
to every other process what that one relies on.
-/

namespace Interleaving

universe u v w

variable {ι : Type u} {S : Type v} {L : Type w}

/-- The store is sound, and every process knows what it should. -/
structure Invariant (sound : S → Prop) (knows : ι → S → L → Prop) (s : S) (locals : ι → L) :
    Prop where
  store : sound s
  process : ∀ i, knows i s (locals i)

/-- What `knows` says about a store stays true when the store changes by `R`. -/
def Stable (sound : S → Prop) (knows : ι → S → L → Prop) (R : ι → S → S → Prop) : Prop :=
  ∀ i s s' l, sound s → R i s s' → knows i s l → knows i s' l

variable {sound : S → Prop} {knows : ι → S → L → Prop} {R : ι → S → S → Prop}

/-- A change of the store that no process made. -/
theorem Invariant.environment (hstable : Stable sound knows R) {s s' : S} {locals : ι → L}
    (hi : Invariant sound knows s locals) (hsound : sound s') (hrely : ∀ j, R j s s') :
    Invariant sound knows s' locals :=
  ⟨hsound, fun j => hstable j s s' _ hi.store (hrely j) (hi.process j)⟩

/-- A step of process `i`. -/
theorem Invariant.update [DecidableEq ι] (hstable : Stable sound knows R) {s s' : S}
    {locals : ι → L} (hi : Invariant sound knows s locals) (i : ι) {l' : L} (hsound : sound s')
    (hown : knows i s' l') (hrely : ∀ j, j ≠ i → R j s s') :
    Invariant sound knows s' (Function.update locals i l') := by
  refine ⟨hsound, fun j => ?_⟩
  by_cases h : j = i
  · subst h
    rw [Function.update_self]
    exact hown
  · rw [Function.update_of_ne h]
    exact hstable j s s' _ hi.store (hrely j h) (hi.process j)

end Interleaving
