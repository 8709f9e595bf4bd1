import EchoDesk.Core.JsonWriter

/-! # Numbers as two languages write them

JavaScript and Python give a double by the shortest digits that are read back as it, and differ in
where they go over to an exponent, in its least width, and in that Python marks a whole float.
-/

namespace EchoDesk

open List

namespace JsonSyntax

/-- A finite double other than zero: `0.digits · 10 ^ point`, with the shortest digits. -/
structure Decimal where
  negative : Bool
  digits : Nat
  point : Int
  trimmed : digits % 10 ≠ 0
  short : (Nat.toDigits 10 digits).length ≤ 17
deriving DecidableEq

inductive JsNumber where
  | zero
  | decimal (d : Decimal)
deriving DecidableEq

namespace Decimal

def chars (d : Decimal) : List Char := Nat.toDigits 10 d.digits

def length (d : Decimal) : Int := d.chars.length

def sign (d : Decimal) : List Char := if d.negative then ['-'] else []

def zeros (n : Nat) : List Char := List.replicate n '0'

def whole (d : Decimal) : List Char := d.chars ++ zeros (d.point - d.length).toNat

/-- The point stands between the digits. -/
def pointed (d : Decimal) : List Char :=
  d.chars.take d.point.toNat ++ '.' :: d.chars.drop d.point.toNat

/-- The point stands before the digits. -/
def fractional (d : Decimal) : List Char := '0' :: '.' :: (zeros (-d.point).toNat ++ d.chars)

/-- One digit before the point, and an exponent. -/
def scientific (d : Decimal) (exponent : List Char) : List Char :=
  d.chars.take 1 ++ ((if d.chars.drop 1 = [] then [] else '.' :: d.chars.drop 1) ++
    'e' :: (if d.point - 1 < 0 then '-' else '+') :: exponent)

def IsWhole (d : Decimal) : Prop := d.length ≤ d.point ∧ d.point ≤ 21

instance (d : Decimal) : Decidable d.IsWhole := inferInstanceAs (Decidable (_ ∧ _))

/-- `Number::toString` without the sign. -/
def unsigned (d : Decimal) : List Char :=
  if d.IsWhole then d.whole
  else if 0 < d.point ∧ d.point ≤ 21 then d.pointed
  else if -6 < d.point ∧ d.point ≤ 0 then d.fractional
  else d.scientific (Nat.toDigits 10 (d.point - 1).natAbs)

def toJs (d : Decimal) : List Char := d.sign ++ d.unsigned

/-- The exponent of Python has two digits at least. -/
def padded (n : Nat) : List Char :=
  if n < 10 then '0' :: Nat.toDigits 10 n else Nat.toDigits 10 n

/-- `repr` without the sign. -/
def unsignedRepr (d : Decimal) : List Char :=
  if -4 < d.point ∧ d.point ≤ 16 then
    if d.length ≤ d.point then d.whole ++ ['.', '0']
    else if 0 < d.point then d.pointed
    else d.fractional
  else d.scientific (padded (d.point - 1).natAbs)

def repr (d : Decimal) : List Char := d.sign ++ d.unsignedRepr

/-- The number that a whole decimal is. -/
def value (d : Decimal) : Int :=
  (if d.negative then -1 else 1) * (d.digits * 10 ^ (d.point - d.length).toNat : Nat)

/-- The kernel's numeral: a whole number stands without a point. -/
def tree (d : Decimal) : Tree :=
  if d.IsWhole then .int d.value (Nat.toDigits 10 d.value.natAbs).length
  else .float (String.ofList d.toJs)

/-! ## The digits -/

variable (d : Decimal)

theorem digits_pos : 0 < d.digits := by
  have := d.trimmed
  omega

variable {c : Char} {n : Nat} {literal : String}

theorem isDigit_of_mem_chars (hc : c ∈ d.chars) : c.isDigit = true :=
  Nat.isDigit_of_mem_toDigits (by decide) (by decide) hc

theorem chars_ne_nil : d.chars ≠ [] := Nat.toDigits_ne_nil

theorem head_chars : d.chars.head? ≠ some '0' := head_toDigits d.digits_pos

theorem length_pos : 0 < d.length := by
  have := length_pos_of_ne_nil d.chars_ne_nil
  unfold length
  omega

theorem length_le : d.length ≤ 17 := by
  have := d.short
  unfold length chars
  omega

theorem toDigits_shift (n : Nat) (hn : 0 < n) (m : Nat) :
    Nat.toDigits 10 (n * 10 ^ m) = Nat.toDigits 10 n ++ zeros m := by
  induction m with
  | zero => simp [zeros]
  | succ m ih =>
    have hpos : 0 < n * 10 ^ m := Nat.mul_pos hn (Nat.pow_pos (by decide))
    have hsplit : n * 10 ^ (m + 1) = 10 * (n * 10 ^ m) + 0 := by
      rw [Nat.pow_succ, ← Nat.mul_assoc, Nat.mul_comm _ 10, Nat.add_zero]
    rw [hsplit, ← Nat.toDigits_append_toDigits (by decide) hpos (by decide), ih]
    show Nat.toDigits 10 n ++ zeros m ++ ['0'] = Nat.toDigits 10 n ++ zeros (m + 1)
    rw [append_assoc, zeros, zeros, replicate_succ']

theorem natAbs_value : d.value.natAbs = d.digits * 10 ^ (d.point - d.length).toNat := by
  unfold value
  split <;> simp [Int.natAbs_mul]

/-- A whole number is written like an integer. -/
theorem writeInt_value : writeInt d.value = d.sign ++ d.whole := by
  have hpos : 0 < d.digits * 10 ^ (d.point - d.length).toNat :=
    Nat.mul_pos d.digits_pos (Nat.pow_pos (by decide))
  have hwhole : Nat.toDigits 10 d.value.natAbs = d.whole := by
    rw [natAbs_value, toDigits_shift _ d.digits_pos]
    rfl
  unfold writeInt sign
  rw [hwhole]
  cases hnegative : d.negative with
  | true =>
    have hneg : d.value < 0 := by
      unfold value
      rw [hnegative, if_pos rfl]
      omega
    rw [if_pos hneg, if_pos rfl]
    rfl
  | false =>
    have hnonneg : ¬ d.value < 0 := by
      unfold value
      rw [hnegative, if_neg (by decide)]
      omega
    rw [if_neg hnonneg, if_neg (by decide)]
    rfl

/-! ## Numerals -/

theorem signs : d.sign = [] ∨ d.sign = ['-'] := by
  unfold sign
  split
  · exact .inr rfl
  · exact .inl rfl

theorem isDigit_of_mem_take (hc : c ∈ d.chars.take n) : c.isDigit = true :=
  d.isDigit_of_mem_chars (mem_of_mem_take hc)

theorem isDigit_of_mem_drop (hc : c ∈ d.chars.drop n) : c.isDigit = true :=
  d.isDigit_of_mem_chars (mem_of_mem_drop hc)

/-- The first digits do not start with a zero. -/
theorem leading_take (hn : 0 < n) (h : (d.chars.take n).head? = some '0') :
    (d.chars.take n).length = 1 := by
  have hhead : (d.chars.take n).head? = d.chars.head? := by
    rw [head?_take, if_neg (Nat.ne_of_gt hn)]
  exact absurd (hhead ▸ h) d.head_chars

theorem take_ne_nil (hn : 0 < n) : d.chars.take n ≠ [] := by
  intro h
  rcases take_eq_nil_iff.1 h with hzero | hnil
  · omega
  · exact d.chars_ne_nil hnil

variable {d}

theorem numeral_pointed (hpos : 0 < d.point) (hlt : d.point < d.length)
    (h : literal.toList = d.sign ++ d.pointed) : Numeral literal := by
  have hparts : NumeralParts (d.chars.take d.point.toNat) ('.' :: d.chars.drop d.point.toNat) [] :=
    { ne := d.take_ne_nil (by omega)
      whole := fun c hc => d.isDigit_of_mem_take hc
      leading := d.leading_take (by omega)
      fraction := by
        refine .inr ⟨d.chars.drop d.point.toNat, ?_, fun c hc => d.isDigit_of_mem_drop hc, rfl⟩
        intro hnil
        have hle := drop_eq_nil_iff.1 hnil
        unfold length at hlt
        omega
      exponent := .inl rfl }
  refine numeral_of_parts hparts d.signs (fun hnil => cons_ne_nil _ _ hnil.1) ?_
  rw [h, append_nil]
  rfl

theorem numeral_fractional (h : literal.toList = d.sign ++ d.fractional) :
    Numeral literal := by
  have hparts : NumeralParts ['0'] ('.' :: (zeros (-d.point).toNat ++ d.chars)) [] :=
    { ne := cons_ne_nil _ _
      whole := fun c hc => by
        rw [mem_singleton.1 hc]
        rfl
      leading := fun _ => rfl
      fraction := by
        refine .inr ⟨_, ?_, ?_, rfl⟩
        · intro hnil
          exact d.chars_ne_nil (append_eq_nil_iff.1 hnil).2
        intro c hc
        rcases mem_append.1 hc with hc | hc
        · rw [eq_of_mem_replicate hc]
          decide
        · exact d.isDigit_of_mem_chars hc
      exponent := .inl rfl }
  refine numeral_of_parts hparts d.signs (fun hnil => cons_ne_nil _ _ hnil.1) ?_
  rw [h, append_nil]
  rfl

theorem numeral_scientific {exponent : List Char} (hne : exponent ≠ [])
    (hdigits : ∀ c ∈ exponent, c.isDigit = true)
    (h : literal.toList = d.sign ++ d.scientific exponent) : Numeral literal := by
  have hparts : NumeralParts (d.chars.take 1)
      (if d.chars.drop 1 = [] then [] else '.' :: d.chars.drop 1)
      ('e' :: (if d.point - 1 < 0 then '-' else '+') :: exponent) :=
    { ne := d.take_ne_nil (by decide)
      whole := fun c hc => d.isDigit_of_mem_take hc
      leading := d.leading_take (by decide)
      fraction := by
        split
        · exact .inl rfl
        · rename_i hnil
          exact .inr ⟨_, hnil, fun c hc => d.isDigit_of_mem_drop hc, rfl⟩
      exponent := by
        refine .inr ⟨_, exponent, ?_, hne, hdigits, rfl⟩
        split
        · exact .inr rfl
        · exact .inl rfl }
  exact numeral_of_parts hparts d.signs (fun hnil => cons_ne_nil _ _ hnil.2) h

theorem isDigit_padded (hc : c ∈ padded n) : c.isDigit = true := by
  have hdigits : ∀ c ∈ Nat.toDigits 10 n, c.isDigit = true := fun c hc =>
    Nat.isDigit_of_mem_toDigits (by decide) (by decide) hc
  unfold padded at hc
  split at hc
  · rcases mem_cons.1 hc with rfl | hc
    · decide
    · exact hdigits c hc
  · exact hdigits c hc

theorem padded_ne_nil (n : Nat) : padded n ≠ [] := by
  unfold padded
  split
  · exact cons_ne_nil _ _
  · exact Nat.toDigits_ne_nil

/-- The kernel's text of a number that is not whole. -/
theorem numeral_toJs (hwhole : ¬ d.IsWhole) : Numeral (String.ofList d.toJs) := by
  have htext : (String.ofList d.toJs).toList = d.sign ++ d.unsigned := String.toList_ofList
  unfold unsigned at htext
  rw [if_neg hwhole] at htext
  split at htext
  · rename_i hpoint
    refine numeral_pointed hpoint.1 ?_ htext
    by_contra hge
    exact hwhole ⟨by omega, hpoint.2⟩
  split at htext
  · exact numeral_fractional htext
  · refine numeral_scientific Nat.toDigits_ne_nil (fun c hc => ?_) htext
    exact Nat.isDigit_of_mem_toDigits (by decide) (by decide) hc

/-- A number that is not whole has no zeros after its digits. -/
theorem point_lt_length (hwhole : ¬ d.IsWhole) (hpoint : d.point ≤ 21) : d.point < d.length := by
  by_contra hge
  exact hwhole ⟨by omega, hpoint⟩

theorem numeral_repr (hwhole : ¬ d.IsWhole) : Numeral (String.ofList d.repr) := by
  have htext : (String.ofList d.repr).toList = d.sign ++ d.unsignedRepr := String.toList_ofList
  unfold unsignedRepr at htext
  split at htext
  · have hlt := point_lt_length hwhole (by omega)
    rw [if_neg (by omega)] at htext
    split at htext
    · rename_i hpos
      exact numeral_pointed hpos hlt htext
    · exact numeral_fractional htext
  · exact numeral_scientific (padded_ne_nil _) (fun c hc => isDigit_padded hc) htext

/-! ## Where the languages differ -/

/-- A number of `[1e-9, 1e-4)`: Python writes an exponent, with two digits. -/
def Small (d : Decimal) : Prop := -8 ≤ d.point ∧ d.point ≤ -4

instance : Decidable d.Small := inferInstanceAs (Decidable (_ ∧ _))

theorem scientific_inj {e e' : List Char} (h : d.scientific e = d.scientific e') : e = e' := by
  have htail := append_cancel_left (append_cancel_left h)
  exact (cons.inj (cons.inj htail).2).2

/-- No scientific text starts with a zero. -/
theorem scientific_ne_fractional (e : List Char) : d.scientific e ≠ d.fractional := by
  intro h
  have hhead : (d.scientific e).head? = d.chars.head? := by
    unfold scientific
    cases hchars : d.chars with
    | nil => exact absurd hchars d.chars_ne_nil
    | cons c cs => rfl
  rw [h] at hhead
  exact d.head_chars hhead.symm

theorem padded_eq_iff : padded n = Nat.toDigits 10 n ↔ 10 ≤ n := by
  unfold padded
  constructor
  · intro h
    by_contra hlt
    rw [if_pos (by omega)] at h
    exact cons_ne_self _ _ h
  · intro h
    rw [if_neg (by omega)]

/-- The two texts of a number that is not whole. -/
theorem toJs_eq_repr_iff (hwhole : ¬ d.IsWhole) : d.toJs = d.repr ↔ ¬ d.Small := by
  unfold toJs repr
  rw [append_cancel_left_eq]
  unfold unsigned unsignedRepr Small
  rw [if_neg hwhole]
  have hlength := d.length_le
  by_cases hlarge : 21 < d.point
  · -- both write an exponent of two digits
    rw [if_neg (by omega), if_neg (by omega), if_neg (by omega)]
    have hpadded : padded (d.point - 1).natAbs = Nat.toDigits 10 (d.point - 1).natAbs :=
      padded_eq_iff.2 (by omega)
    rw [hpadded]
    simp only [true_iff]
    omega
  have hlt := point_lt_length hwhole (by omega)
  by_cases hpos : 0 < d.point
  · rw [if_pos (by omega), if_pos (by omega), if_neg (by omega), if_pos hpos]
    simp only [true_iff]
    omega
  rw [if_neg (by omega)]
  by_cases hfour : -4 < d.point
  · rw [if_pos (by omega), if_pos (by omega), if_neg (by omega), if_neg hpos]
    simp only [true_iff]
    omega
  rw [@if_neg (-4 < d.point ∧ d.point ≤ 16) _ (by omega)]
  by_cases hsix : -6 < d.point
  · rw [if_pos (by omega)]
    constructor
    · intro h
      exact absurd h.symm (scientific_ne_fractional _)
    · intro h
      omega
  rw [if_neg (by omega)]
  constructor
  · intro h
    have hpadded := padded_eq_iff.1 (scientific_inj h).symm
    omega
  · intro h
    have hpadded : padded (d.point - 1).natAbs = Nat.toDigits 10 (d.point - 1).natAbs :=
      padded_eq_iff.2 (by omega)
    rw [hpadded]

/-- Python reads a whole number: it has 21 digits at most. -/
theorem length_value (hwhole : d.IsWhole) : (Nat.toDigits 10 d.value.natAbs).length ≤ 21 := by
  rw [natAbs_value, toDigits_shift _ d.digits_pos, length_append, zeros, length_replicate]
  have hlength : d.length = (Nat.toDigits 10 d.digits).length := rfl
  obtain ⟨hle, hpoint⟩ := hwhole
  omega

end Decimal

namespace JsNumber

def toJs : JsNumber → String
  | zero => "0"
  | decimal d => String.ofList d.toJs

/-- The numeral of a number in a text of the kernel. -/
def tree : JsNumber → Tree
  | zero => .int 0 1
  | decimal d => d.tree

/-- The number that Python makes of it: a whole one is an integer there. -/
def json : JsNumber → Json
  | zero => .int 0
  | decimal d => if d.IsWhole then .int d.value else .float (String.ofList d.repr)

def repr : JsNumber → String
  | zero => "0.0"
  | decimal d => String.ofList d.repr

/-- A number that the two languages write in different ways. -/
def Small : JsNumber → Prop
  | zero => False
  | decimal d => d.Small

instance : (n : JsNumber) → Decidable n.Small
  | zero => inferInstanceAs (Decidable False)
  | decimal d => inferInstanceAs (Decidable d.Small)

theorem written_tree (n : JsNumber) : n.tree.Written := by
  cases n with
  | zero => rfl
  | decimal d =>
    show d.tree.Written
    unfold Decimal.tree
    split
    · rfl
    · rename_i hwhole
      exact Decimal.numeral_toJs hwhole

end JsNumber

end JsonSyntax

end EchoDesk
