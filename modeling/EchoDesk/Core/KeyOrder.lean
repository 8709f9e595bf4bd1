import EchoDesk.Core.Json
import EchoDesk.Foundations.SortedEntries

/-! # Keys in two orders

`Array.prototype.sort` compares texts by their UTF-16 units, Python by their code points. The two
orders differ where an astral character meets one of `U+E000 … U+FFFF`.
-/

namespace EchoDesk

namespace KeyOrder

open SortedEntries List

/-- The lexicographic order. -/
def leNats : List Nat → List Nat → Bool
  | [], _ => true
  | _ :: _, [] => false
  | x :: xs, y :: ys => x < y || (x = y && leNats xs ys)

/-- The UTF-16 units of a character. -/
def charUnits (c : Char) : List Nat :=
  if c.toNat < 0x10000 then [c.toNat]
  else [0xd800 + (c.toNat - 0x10000) / 0x400, 0xdc00 + (c.toNat - 0x10000) % 0x400]

def units (text : String) : List Nat := text.toList.flatMap charUnits

def unitsLe (a b : String) : Prop := leNats (units a) (units b) = true

instance : DecidableRel unitsLe := fun _ _ => inferInstanceAs (Decidable (_ = true))

def pointsLe (a b : String) : Prop := a ≤ b

instance : DecidableRel pointsLe := fun a b => String.decLE a b

/-- Where the texts part, the first has an astral character and the second one of the last
characters of the basic plane. -/
def parts : List Char → List Char → Bool
  | x :: xs, y :: ys =>
    if x = y then parts xs ys
    else 0x10000 ≤ x.toNat ∧ 0xe000 ≤ y.toNat ∧ y.toNat < 0x10000
  | _, _ => false

/-- Two keys that the languages sort differently. -/
def Crossed (a b : String) : Prop := parts a.toList b.toList = true ∨ parts b.toList a.toList = true

instance : DecidableRel Crossed := fun _ _ => inferInstanceAs (Decidable (_ ∨ _))

/-! ## The lexicographic order -/

theorem leNats_total (xs ys : List Nat) : leNats xs ys = true ∨ leNats ys xs = true := by
  induction xs generalizing ys with
  | nil => exact .inl rfl
  | cons x xs ih =>
    cases ys with
    | nil => exact .inr rfl
    | cons y ys =>
      simp only [leNats, Bool.or_eq_true, Bool.and_eq_true, decide_eq_true_eq]
      rcases Nat.lt_trichotomy x y with hlt | rfl | hgt
      · exact .inl (.inl hlt)
      · exact (ih ys).imp (fun h => .inr ⟨rfl, h⟩) fun h => .inr ⟨rfl, h⟩
      · exact .inr (.inl hgt)

theorem leNats_trans {xs ys zs : List Nat} (h : leNats xs ys = true) (h' : leNats ys zs = true) :
    leNats xs zs = true := by
  induction xs generalizing ys zs with
  | nil => rfl
  | cons x xs ih =>
    cases ys with
    | nil => cases h
    | cons y ys =>
      cases zs with
      | nil => cases h'
      | cons z zs =>
        simp only [leNats, Bool.or_eq_true, Bool.and_eq_true, decide_eq_true_eq] at h h' ⊢
        rcases h with hlt | ⟨rfl, h⟩ <;> rcases h' with hlt' | ⟨rfl, h'⟩
        · exact .inl (Nat.lt_trans hlt hlt')
        · exact .inl hlt
        · exact .inl hlt'
        · exact .inr ⟨rfl, ih h h'⟩

theorem leNats_antisymm {xs ys : List Nat} (h : leNats xs ys = true) (h' : leNats ys xs = true) :
    xs = ys := by
  induction xs generalizing ys with
  | nil =>
    cases ys with
    | nil => rfl
    | cons y ys => cases h'
  | cons x xs ih =>
    cases ys with
    | nil => cases h
    | cons y ys =>
      simp only [leNats, Bool.or_eq_true, Bool.and_eq_true, decide_eq_true_eq] at h h'
      rcases h with hlt | ⟨rfl, h⟩ <;> rcases h' with hlt' | ⟨heq, h'⟩
      · omega
      · omega
      · omega
      · rw [ih h h']

/-- An injective numbering of the characters orders texts. -/
theorem linear_of_numbering {f : Char → Nat} (hf : ∀ c d, f c = f d → c = d) :
    Linear fun a b : String => leNats (a.toList.map f) (b.toList.map f) = true where
  total _ _ := leNats_total _ _
  trans _ _ _ := leNats_trans
  antisymm a b h h' := by
    have hmap : Function.Injective f := fun c d => hf c d
    have hlist := map_injective_iff.2 hmap (leNats_antisymm h h')
    exact String.toList_inj.1 hlist

/-! ## Both orders by numberings -/

/-- The place of a character in the order of units: the last of the basic plane come last. -/
def rank (c : Char) : Nat :=
  if 0xe000 ≤ c.toNat ∧ c.toNat < 0x10000 then c.toNat + 0x110000 else c.toNat

theorem toNat_inj {c d : Char} (h : c.toNat = d.toNat) : c = d := by
  have hof : Char.ofNat c.toNat = Char.ofNat d.toNat := congrArg Char.ofNat h
  rwa [Char.ofNat_toNat, Char.ofNat_toNat] at hof

theorem toNat_lt (c : Char) : c.toNat < 0xd800 ∨ 0xe000 ≤ c.toNat ∧ c.toNat < 0x110000 := by
  have hvalid : c.toNat < 0xd800 ∨ 0xdfff < c.toNat ∧ c.toNat < 0x110000 := c.valid
  omega

theorem rank_inj {c d : Char} (h : rank c = rank d) : c = d := by
  apply toNat_inj
  have hc := toNat_lt c
  have hd := toNat_lt d
  unfold rank at h
  split at h <;> split at h <;> omega

theorem leNats_append (xs ys zs : List Nat) : leNats (xs ++ ys) (xs ++ zs) = leNats ys zs := by
  induction xs with
  | nil => rfl
  | cons x xs ih =>
    rw [cons_append, cons_append, leNats, ih]
    simp

/-- Different characters are compared by their ranks, whatever follows. -/
theorem leNats_charUnits {x y : Char} (hne : x ≠ y) (us vs : List Nat) :
    leNats (charUnits x ++ us) (charUnits y ++ vs) = decide (rank x < rank y) := by
  have hx := toNat_lt x
  have hy := toNat_lt y
  have hxy : x.toNat ≠ y.toNat := fun heq => hne (toNat_inj heq)
  rw [Bool.eq_iff_iff]
  unfold charUnits rank
  split <;> split <;> simp only [cons_append, nil_append, leNats, Bool.or_eq_true, Bool.and_eq_true,
      decide_eq_true_eq] <;>
    split <;> split <;> omega

variable {a b : String} (cs ds : List Char)

theorem leNats_units :
    leNats (cs.flatMap charUnits) (ds.flatMap charUnits) = leNats (cs.map rank) (ds.map rank) := by
  induction cs generalizing ds with
  | nil => rfl
  | cons c cs ih =>
    cases ds with
    | nil =>
      have hne : charUnits c ≠ [] := by
        unfold charUnits
        split <;> exact cons_ne_nil _ _
      rw [flatMap_cons]
      cases hunits : charUnits c with
      | nil => exact absurd hunits hne
      | cons u us => rfl
    | cons d ds =>
      rw [flatMap_cons, flatMap_cons, map_cons, map_cons, leNats]
      by_cases heq : c = d
      · subst heq
        rw [leNats_append, ih]
        simp
      · have hrank : rank c ≠ rank d := fun h => heq (rank_inj h)
        rw [leNats_charUnits heq, decide_eq_false hrank, Bool.false_and, Bool.or_false]

theorem unitsLe_iff : unitsLe a b ↔ leNats (a.toList.map rank) (b.toList.map rank) = true := by
  unfold unitsLe units
  rw [leNats_units]

theorem linear_unitsLe : Linear unitsLe := by
  have hlinear := linear_of_numbering fun c d => rank_inj (c := c) (d := d)
  have hsame : unitsLe = fun a b => leNats (a.toList.map rank) (b.toList.map rank) = true := by
    funext a b
    exact propext unitsLe_iff
  rw [hsame]
  exact hlinear

theorem leNats_toNat : leNats (cs.map Char.toNat) (ds.map Char.toNat) = true ↔ ¬ ds < cs := by
  induction cs generalizing ds with
  | nil => exact iff_of_true rfl (not_lt_nil _)
  | cons c cs ih =>
    cases ds with
    | nil => exact iff_of_false Bool.false_ne_true fun h => h (nil_lt_cons _ _)
    | cons d ds =>
      rw [map_cons, map_cons, leNats, cons_lt_cons_iff, Bool.or_eq_true,
        Bool.and_eq_true, decide_eq_true_eq, decide_eq_true_eq, ih]
      have hlt : d < c ↔ d.toNat < c.toNat := Iff.rfl
      have heq : d = c ↔ c.toNat = d.toNat := ⟨fun h => h ▸ rfl, fun h => (toNat_inj h).symm⟩
      rw [hlt, heq]
      by_cases hsame : c.toNat = d.toNat
      · simp [hsame]
      · omega

theorem pointsLe_iff :
    pointsLe a b ↔ leNats (a.toList.map Char.toNat) (b.toList.map Char.toNat) = true :=
  (leNats_toNat _ _).symm

theorem linear_pointsLe : Linear pointsLe := by
  have hlinear := linear_of_numbering fun c d => toNat_inj (c := c) (d := d)
  have hsame : pointsLe =
      fun a b => leNats (a.toList.map Char.toNat) (b.toList.map Char.toNat) = true := by
    funext a b
    exact propext pointsLe_iff
  rw [hsame]
  exact hlinear

/-! ## Where the orders agree -/

/-- The orders differ on crossed texts only. -/
theorem agree_iff :
    (leNats (cs.map rank) (ds.map rank) = leNats (cs.map Char.toNat) (ds.map Char.toNat)) ↔
      parts cs ds = false ∧ parts ds cs = false := by
  induction cs generalizing ds with
  | nil => cases ds <;> exact iff_of_true rfl ⟨rfl, rfl⟩
  | cons c cs ih =>
    cases ds with
    | nil => exact iff_of_true rfl ⟨rfl, rfl⟩
    | cons d ds =>
      rw [map_cons, map_cons, map_cons, map_cons, leNats, leNats, parts, parts]
      by_cases heq : c = d
      · subst heq
        simpa using ih ds
      have hrank : rank c ≠ rank d := fun h => heq (rank_inj h)
      have hnat : c.toNat ≠ d.toNat := fun h => heq (toNat_inj h)
      rw [if_neg heq, if_neg (Ne.symm heq), decide_eq_false hrank, decide_eq_false hnat]
      rw [Bool.false_and, Bool.false_and, Bool.or_false, Bool.or_false, Bool.eq_iff_iff]
      simp only [decide_eq_true_eq, decide_eq_false_iff_not]
      have hc := toNat_lt c
      have hd := toNat_lt d
      unfold rank
      split <;> split <;> omega

theorem orders_agree_iff : (unitsLe a b ↔ pointsLe a b) ↔ ¬ Crossed a b := by
  rw [unitsLe_iff, pointsLe_iff, ← Bool.eq_iff_iff, agree_iff]
  unfold Crossed
  rw [not_or, Bool.not_eq_true, Bool.not_eq_true]

end KeyOrder

end EchoDesk
