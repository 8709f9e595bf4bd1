import Mathlib.Logic.Relation

/-! # Fenced registers

What a lease with fencing tokens is for, without clocks and rows: a register
that knows how many terms were granted and, while the newest term runs, who
holds it. A term is granted only when none runs, a running term may lapse, and
nothing else happens. In particular no step starts a lapsed term again.

The rule a lease implementation inherits by simulating this register is
`owns_of_reachable`: an old term that is owned later was owned all along.
-/

namespace Fencing

universe u

/-- A register over the holders `H`. -/
structure Register (H : Type u) where
  /-- The number of terms granted so far, which is the fence of the newest. -/
  generation : Nat
  /-- The holder of the newest term, while the term runs. -/
  live : Option H

variable {H : Type u}

/-- The moves of a register. -/
inductive Step : Register H → Register H → Prop where
  /-- Nothing happens. -/
  | stay (r : Register H) : Step r r
  /-- The running term ends (its time is over, or it is given back). -/
  | lapse (r : Register H) : Step r { r with live := none }
  /-- The next term is granted to `h`; it may be over before anybody looks. -/
  | grant (r : Register H) (h : H) {live : Option H} (free : r.live = none)
      (fresh : live = none ∨ live = some h) : Step r ⟨r.generation + 1, live⟩

/-- `h` holds the running term number `g`. -/
def Owns (r : Register H) (h : H) (g : Nat) : Prop := r.generation = g ∧ r.live = some h

variable {r r' : Register H} {g : Nat}

/-- At most one holder, with one fence, owns the register. -/
theorem Owns.unique {h h' : H} {g' : Nat} (ho : Owns r h g) (ho' : Owns r h' g') :
    h = h' ∧ g = g' :=
  ⟨Option.some.inj (ho.2.symm.trans ho'.2), ho.1.symm.trans ho'.1⟩

theorem Step.generation_le (hs : Step r r') : r.generation ≤ r'.generation := by
  cases hs with
  | stay | lapse => exact Nat.le_refl _
  | grant h free fresh => exact Nat.le_succ _

/-- A term that is not newer than the register and is owned after a step was
owned before it. -/
theorem Step.owns (hs : Step r r') {h : H} (hg : g ≤ r.generation) (ho : Owns r' h g) :
    Owns r h g := by
  cases hs with
  | stay => exact ho
  | lapse => exact absurd ho.2 (by simp)
  | grant h' free fresh =>
    -- the granted term is number `generation + 1`, past every old one
    have : r.generation + 1 = g := ho.1
    omega

/-- Registers some moves lead to. -/
def Reachable (r r' : Register H) : Prop := Relation.ReflTransGen Step r r'

theorem Reachable.refl (r : Register H) : Reachable r r := Relation.ReflTransGen.refl

theorem Reachable.trans {a b c : Register H} (hab : Reachable a b) (hbc : Reachable b c) :
    Reachable a c := Relation.ReflTransGen.trans hab hbc

theorem generation_le_of_reachable (hr : Reachable r r') : r.generation ≤ r'.generation := by
  induction hr with
  | refl => exact Nat.le_refl _
  | tail _ hs ih => exact Nat.le_trans ih hs.generation_le

/-- A lapsed or superseded term is never owned again: an old term owned at the
end of some moves was owned at their start. -/
theorem owns_of_reachable (hr : Reachable r r') {h : H} (hg : g ≤ r.generation) (ho : Owns r' h g) :
    Owns r h g := by
  induction hr with
  | refl => exact ho
  | tail hrb hs ih => exact ih (hs.owns (Nat.le_trans hg (generation_le_of_reachable hrb)) ho)

end Fencing
