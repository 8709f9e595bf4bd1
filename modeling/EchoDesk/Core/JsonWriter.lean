import EchoDesk.Core.JsonSyntax

/-! # JSON texts as they are written

`JSON.stringify` and `json.dumps` with `ensure_ascii=False` and no spaces write the same characters
for the same tree. What is written is read back, so two trees have one text only when they are one
tree.
-/

namespace EchoDesk

open List

namespace JsonSyntax

/-! ## Strings -/

def hexChar (n : Nat) : Char := if n < 10 then Char.ofNat (48 + n) else Char.ofNat (87 + n)

/-- A character inside a string: quotes, backslashes and control characters are escaped. -/
def escapeChar (c : Char) : List Char :=
  if c = '"' then ['\\', '"']
  else if c = '\\' then ['\\', '\\']
  else if c.toNat = 8 then ['\\', 'b']
  else if c.toNat = 12 then ['\\', 'f']
  else if c.toNat = 10 then ['\\', 'n']
  else if c.toNat = 13 then ['\\', 'r']
  else if c.toNat = 9 then ['\\', 't']
  else if c.toNat < 32 then ['\\', 'u', '0', '0', hexChar (c.toNat / 16), hexChar (c.toNat % 16)]
  else [c]

/-- A string after its opening quote. -/
def writeString (s : String) : List Char := s.toList.flatMap escapeChar ++ ['"']

theorem hexDigit_hexChar : ∀ n < 16, hexDigit (hexChar n) = some n := by decide

/-- An escaped character is read as its code point. -/
theorem readUnits_escapeChar (c : Char) (rest : List Char) : readUnits (escapeChar c ++ rest) =
      (readUnits rest).map fun out => (c.toNat :: out.1, out.2) := by
  have hshort : ∀ d unit, d ≠ 'u' → escape d = some unit →
      readUnits ('\\' :: d :: rest) = (readUnits rest).map fun out => (unit :: out.1, out.2) := by
    intro d unit hd hunit
    rw [readUnits.eq_3 d rest (fun _ _ _ _ _ h => absurd h hd), hunit]
    cases readUnits rest <;> rfl
  by_cases hquote : c = '"'
  · subst hquote
    exact hshort '"' 34 (by decide) rfl
  by_cases hback : c = '\\'
  · subst hback
    exact hshort '\\' 92 (by decide) rfl
  unfold escapeChar
  rw [if_neg hquote, if_neg hback]
  by_cases h8 : c.toNat = 8
  · rw [if_pos h8, h8]
    exact hshort 'b' 8 (by decide) rfl
  by_cases h12 : c.toNat = 12
  · rw [if_neg h8, if_pos h12, h12]
    exact hshort 'f' 12 (by decide) rfl
  by_cases h10 : c.toNat = 10
  · rw [if_neg h8, if_neg h12, if_pos h10, h10]
    exact hshort 'n' 10 (by decide) rfl
  by_cases h13 : c.toNat = 13
  · rw [if_neg h8, if_neg h12, if_neg h10, if_pos h13, h13]
    exact hshort 'r' 13 (by decide) rfl
  by_cases h9 : c.toNat = 9
  · rw [if_neg h8, if_neg h12, if_neg h10, if_neg h13, if_pos h9, h9]
    exact hshort 't' 9 (by decide) rfl
  rw [if_neg h8, if_neg h12, if_neg h10, if_neg h13, if_neg h9]
  by_cases hcontrol : c.toNat < 32
  · rw [if_pos hcontrol]
    show readUnits ('\\' :: 'u' :: '0' :: '0' :: hexChar (c.toNat / 16) ::
      hexChar (c.toNat % 16) :: rest) = _
    have hhigh : hexDigit (hexChar (c.toNat / 16)) = some (c.toNat / 16) :=
      hexDigit_hexChar _ (by omega)
    have hlow : hexDigit (hexChar (c.toNat % 16)) = some (c.toNat % 16) :=
      hexDigit_hexChar _ (by omega)
    have hzero : hexDigit '0' = some 0 := rfl
    rw [readUnits, hzero, hhigh, hlow]
    have hvalue : ((0 * 16 + 0) * 16 + c.toNat / 16) * 16 + c.toNat % 16 = c.toNat := by omega
    cases readUnits rest with
    | none => rfl
    | some out =>
      show some (_ :: out.1, out.2) = some (c.toNat :: out.1, out.2)
      rw [hvalue]
  · rw [if_neg hcontrol]
    show readUnits (c :: rest) = _
    have hplain : ¬ (c.toNat < 32 ∨ c = '\\') := by
      rintro (h | h)
      · exact hcontrol h
      · exact hback h
    rw [readUnits.eq_4 c rest hquote (fun _ _ _ _ _ h => absurd h hback)
      (fun _ _ h => absurd h hback), if_neg hplain]

theorem readUnits_escaped (cs rest : List Char) :
    readUnits (cs.flatMap escapeChar ++ '"' :: rest) = some (cs.map Char.toNat, rest) := by
  induction cs with
  | nil => rfl
  | cons c cs ih =>
    rw [flatMap_cons, append_assoc, readUnits_escapeChar, ih]
    rfl

theorem not_surrogate (c : Char) : ¬ (0xd800 ≤ c.toNat ∧ c.toNat < 0xe000) := by
  have hvalid : c.toNat < 0xd800 ∨ 0xdfff < c.toNat ∧ c.toNat < 0x110000 := c.valid
  omega

theorem unitChar_toNat (c : Char) : unitChar c.toNat = c := by
  unfold unitChar isSurrogate
  rw [decide_eq_false (not_surrogate c)]
  exact Char.ofNat_toNat c

theorem joinUnits_map (cs : List Char) : joinUnits (cs.map Char.toNat) = cs := by
  induction cs with
  | nil => rfl
  | cons c cs ih =>
    cases cs with
    | nil => exact congrArg (· :: []) (unitChar_toNat c)
    | cons d cs =>
      have hpair : ¬ (0xd800 ≤ c.toNat ∧ c.toNat < 0xdc00 ∧ 0xdc00 ≤ d.toNat ∧ d.toNat < 0xe000) := by
        have := not_surrogate c
        omega
      rw [map_cons, map_cons, joinUnits, if_neg hpair, unitChar_toNat]
      exact congrArg (c :: ·) ih

theorem readString_write (s : String) (rest : List Char) :
    readString (writeString s ++ rest) = some (s, rest) := by
  unfold readString writeString
  rw [append_assoc]
  show (readUnits (s.toList.flatMap escapeChar ++ '"' :: rest)).map _ = _
  rw [readUnits_escaped, Option.map_some, joinUnits_map, String.ofList_toList]

/-! ## Trees -/

def writeInt (n : Int) : List Char :=
  if n < 0 then '-' :: Nat.toDigits 10 n.natAbs else Nat.toDigits 10 n.natAbs

mutual

/-- The characters of a tree. -/
def Tree.write : Tree → List Char
  | .null => "null".toList
  | .bool true => "true".toList
  | .bool false => "false".toList
  | .int n _ => writeInt n
  | .float literal => literal.toList
  | .constant name => name.toList
  | .str s => '"' :: writeString s
  | .arr [] => "[]".toList
  | .arr (item :: items) => '[' :: (item.write ++ writeItems items)
  | .obj [] => "{}".toList
  | .obj ((key, value) :: fields) =>
    '{' :: '"' :: (writeString key ++ ':' :: (value.write ++ writeFields fields))

/-- What follows an item. -/
def writeItems : List Tree → List Char
  | [] => [']']
  | item :: items => ',' :: (item.write ++ writeItems items)

/-- What follows a field. -/
def writeFields : List (String × Tree) → List Char
  | [] => ['}']
  | (key, value) :: fields =>
    ',' :: '"' :: (writeString key ++ ':' :: (value.write ++ writeFields fields))

end

def Tree.text (tree : Tree) : String := String.ofList tree.write

/-! ## Numerals -/

/-- What can follow a value. -/
def Delimited : List Char → Prop
  | [] => True
  | c :: _ => c = ',' ∨ c = ']' ∨ c = '}'

/-- A digit, or a sign and a digit. -/
def NumericStart (cs : List Char) : Prop :=
  ∃ c rest, cs = c :: rest ∧
    (c.isDigit = true ∨ c = '-' ∧ ∃ d ds, rest = d :: ds ∧ d.isDigit = true)

/-- A literal that is read as a numeral with a fraction or an exponent. -/
def Numeral (literal : String) : Prop :=
  NumericStart literal.toList ∧ ∀ rest, Delimited rest →
      readNumber (literal.toList ++ rest) = some (.float literal, rest)

mutual

/-- A tree that has a text: no constants, and every number as it would be written. -/
def Tree.Written : Tree → Prop
  | .int n digits => digits = (Nat.toDigits 10 n.natAbs).length
  | .float literal => Numeral literal
  | .constant _ => False
  | .arr items => WrittenItems items
  | .obj fields => WrittenFields fields
  | _ => True

def WrittenItems : List Tree → Prop
  | [] => True
  | item :: items => item.Written ∧ WrittenItems items

def WrittenFields : List (String × Tree) → Prop
  | [] => True
  | (_, item) :: fields => item.Written ∧ WrittenFields fields

end

variable {c : Char} {cs : List Char} (n fuel : Nat)
variable {tree value : Tree} {sign : List Char} {key : String}

variable {rest : List Char}

theorem not_isDigit_of_delimited (h : Delimited (c :: rest)) :
    c.isDigit = false ∧ c ≠ '.' ∧ c ≠ 'e' ∧ c ≠ 'E' := by
  rcases h with rfl | rfl | rfl <;> decide

variable {digits : List Char}

theorem takeWhile_digits (hdigits : ∀ c ∈ digits, c.isDigit = true)
    (hrest : ∀ c ∈ rest.head?, c.isDigit = false) :
    (digits ++ rest).takeWhile Char.isDigit = digits ∧
      (digits ++ rest).dropWhile Char.isDigit = rest := by
  rw [takeWhile_append_of_pos hdigits, dropWhile_append_of_pos hdigits]
  cases rest with
  | nil => exact ⟨append_nil _, rfl⟩
  | cons c rest =>
    have hc : c.isDigit = false := hrest c rfl
    rw [takeWhile_cons, dropWhile_cons, hc]
    exact ⟨append_nil _, rfl⟩

/-- Digits are read up to something else. -/
theorem readDigits_append (hne : digits ≠ []) (hdigits : ∀ c ∈ digits, c.isDigit = true)
    (hrest : ∀ c ∈ rest.head?, c.isDigit = false) :
    readDigits (digits ++ rest) = some (digits, rest) := by
  obtain ⟨htake, hdrop⟩ := takeWhile_digits hdigits hrest
  unfold readDigits
  rw [htake, hdrop, if_neg hne]

/-- The three parts of a numeral after its sign. -/
structure NumeralParts (digits fraction exponent : List Char) : Prop where
  ne : digits ≠ []
  whole : ∀ c ∈ digits, c.isDigit = true
  leading : digits.head? = some '0' → digits.length = 1
  fraction : fraction = [] ∨ ∃ ds, ds ≠ [] ∧ (∀ c ∈ ds, c.isDigit = true) ∧ fraction = '.' :: ds
  exponent : exponent = [] ∨ ∃ sign ds, (sign = '+' ∨ sign = '-') ∧ ds ≠ [] ∧
    (∀ c ∈ ds, c.isDigit = true) ∧ exponent = 'e' :: sign :: ds

variable {digits fraction exponent rest : List Char}

theorem Delimited.head (h : Delimited rest) : ∀ c ∈ rest.head?, c.isDigit = false := by
  intro c hc
  cases rest with
  | nil => cases hc
  | cons d rest =>
    cases hc
    exact (not_isDigit_of_delimited h).1

section

variable (h : NumeralParts digits fraction exponent) (hrest : Delimited rest)

include h hrest

theorem readExponent_append : readExponent (exponent ++ rest) = some (exponent, rest) := by
  rcases h.exponent with rfl | ⟨sign, ds, hsign, hne, hds, rfl⟩
  · cases rest with
    | nil => rfl
    | cons c rest =>
      obtain ⟨-, -, hlower, hupper⟩ := not_isDigit_of_delimited hrest
      show readExponent (c :: rest) = _
      rw [readExponent, if_neg (not_or.2 ⟨hlower, hupper⟩)]
  show readExponent ('e' :: sign :: (ds ++ rest)) = _
  have hread : readSign (sign :: (ds ++ rest)) = some ([sign], ds ++ rest) := by
    rcases hsign with rfl | rfl <;> rfl
  rw [readExponent, if_pos (.inl rfl), hread]
  show (readDigits (ds ++ rest)).bind _ = _
  rw [readDigits_append hne hds hrest.head]
  rfl

/-- After the fraction no digit and no point comes. -/
theorem exponent_head : ∀ c ∈ (exponent ++ rest).head?, c.isDigit = false ∧ c ≠ '.' := by
  intro c hc
  rcases h.exponent with rfl | ⟨sign, ds, -, -, -, rfl⟩
  · cases rest with
    | nil => cases hc
    | cons d rest =>
      cases hc
      exact ⟨(not_isDigit_of_delimited hrest).1, (not_isDigit_of_delimited hrest).2.1⟩
  · cases hc
    decide

theorem readFraction_append :
    readFraction (fraction ++ (exponent ++ rest)) = some (fraction, exponent ++ rest) := by
  have hhead := exponent_head h hrest
  rcases h.fraction with rfl | ⟨ds, hne, hds, rfl⟩
  · cases hcs : exponent ++ rest with
    | nil => rfl
    | cons c cs =>
      have hc := hhead c (by rw [hcs]; rfl)
      unfold readFraction
      split
      · rename_i heq
        exact absurd (cons.inj heq).1 hc.2
      · rfl
  · show (readDigits (ds ++ (exponent ++ rest))).map _ = _
    rw [readDigits_append hne hds fun c hc => (hhead c hc).1]
    rfl

/-- A numeral is read up to its end. -/
theorem readNumber_append (hsign : sign = [] ∨ sign = ['-']) :
    readNumber (sign ++ (digits ++ (fraction ++ (exponent ++ rest)))) =
      if fraction = [] ∧ exponent = [] then
        some (.int (if sign = [] then (digitsValue digits : Int) else -(digitsValue digits : Int))
          digits.length, rest)
      else some (.float (String.ofList (sign ++ digits ++ fraction ++ exponent)), rest) := by
  have hstart : (if (sign ++ (digits ++ (fraction ++ (exponent ++ rest)))).head? = some '-'
      then ['-'] else []) = sign := by
    rcases hsign with rfl | rfl
    · cases digits with
      | nil => exact absurd rfl h.ne
      | cons c cs =>
        have hc : c ≠ '-' := by
          rintro rfl
          exact absurd (h.whole '-' (mem_cons_self ..)) (by decide)
        exact if_neg fun heq => hc (Option.some.inj heq)
    · rfl
  have hdigits : readDigits (digits ++ (fraction ++ (exponent ++ rest))) =
      some (digits, fraction ++ (exponent ++ rest)) := by
    refine readDigits_append h.ne h.whole fun c hc => ?_
    rcases h.fraction with rfl | ⟨ds, -, -, rfl⟩
    · exact (exponent_head h hrest c hc).1
    · cases hc
      decide
  have hleading : ¬ (digits.head? = some '0' ∧ digits.length ≠ 1) := by
    rintro ⟨hzero, hlength⟩
    exact hlength (h.leading hzero)
  unfold readNumber
  dsimp only
  rw [hstart, drop_left, hdigits]
  show (if digits.head? = some '0' ∧ digits.length ≠ 1 then none else _) = _
  rw [if_neg hleading]
  rw [readFraction_append h hrest]
  show (readExponent (exponent ++ rest)).bind _ = _
  rw [readExponent_append h hrest]
  rfl

end

/-- A fraction or an exponent makes a literal a numeral. -/
theorem numeral_of_parts (h : NumeralParts digits fraction exponent)
    (hsign : sign = [] ∨ sign = ['-']) (hne : ¬ (fraction = [] ∧ exponent = [])) {literal : String}
    (hliteral : literal.toList = sign ++ (digits ++ (fraction ++ exponent))) : Numeral literal := by
  constructor
  · rw [hliteral]
    cases digits with
    | nil => exact absurd rfl h.ne
    | cons c cs =>
      have hc : c.isDigit = true := h.whole c (mem_cons_self ..)
      rcases hsign with rfl | rfl
      · exact ⟨c, _, rfl, .inl hc⟩
      · exact ⟨'-', _, rfl, .inr ⟨rfl, c, _, rfl, hc⟩⟩
  intro rest hrest
  have hsame : literal.toList ++ rest = sign ++ (digits ++ (fraction ++ (exponent ++ rest))) := by
    rw [hliteral]
    simp only [append_assoc]
  have hback : String.ofList (sign ++ digits ++ fraction ++ exponent) = literal := by
    rw [← String.ofList_toList (s := literal), hliteral]
    simp only [append_assoc]
  rw [hsame, readNumber_append h hrest hsign, if_neg hne, hback]

/-- A number that is not zero has no leading zero. -/
theorem head_toDigits {n : Nat} (hn : 0 < n) : (Nat.toDigits 10 n).head? ≠ some '0' := by
  induction n using Nat.strongRecOn with
  | _ n ih =>
    rw [Nat.toDigits_eq_if (by decide)]
    split
    · rename_i hlt
      intro hzero
      have hchar : Nat.digitChar n = '0' := Option.some.inj hzero
      have hall : ∀ m < 10, 0 < m → Nat.digitChar m ≠ '0' := by decide
      exact hall n hlt hn hchar
    · rw [head?_append_of_ne_nil _ Nat.toDigits_ne_nil]
      exact ih (n / 10) (Nat.div_lt_self hn (by decide)) (Nat.div_pos (by omega) (by decide))

theorem integerParts : NumeralParts (Nat.toDigits 10 n) [] [] where
  ne := Nat.toDigits_ne_nil
  whole _ hc := Nat.isDigit_of_mem_toDigits (by decide) (by decide) hc
  leading hzero := by
    rcases Nat.eq_zero_or_pos n with rfl | hn
    · rfl
    · exact absurd hzero (head_toDigits hn)
  fraction := .inl rfl
  exponent := .inl rfl

theorem readNumber_writeInt (n : Int) (hrest : Delimited rest) : readNumber (writeInt n ++ rest) =
      some (.int n (Nat.toDigits 10 n.natAbs).length, rest) := by
  have hvalue : digitsValue (Nat.toDigits 10 n.natAbs) = n.natAbs := Nat.ofDigitChars_ten_toDigits
  have hparts := integerParts n.natAbs
  unfold writeInt
  split
  · have hread := readNumber_append hparts hrest (.inr rfl)
    rw [if_pos ⟨rfl, rfl⟩, if_neg (by decide), hvalue] at hread
    have hneg : -(n.natAbs : Int) = n := by omega
    rw [hneg] at hread
    exact hread
  · have hread := readNumber_append hparts hrest (.inl rfl)
    rw [if_pos ⟨rfl, rfl⟩, if_pos rfl, hvalue] at hread
    have hpos : (n.natAbs : Int) = n := by omega
    rw [hpos] at hread
    exact hread

/-! ## What was written is read -/

theorem NumericStart.append (h : NumericStart cs) (rest : List Char) :
    NumericStart (cs ++ rest) := by
  obtain ⟨c, ds, rfl, hc⟩ := h
  refine ⟨c, ds ++ rest, rfl, hc.imp id ?_⟩
  rintro ⟨hminus, d, es, rfl, hd⟩
  exact ⟨hminus, d, es ++ rest, rfl, hd⟩

theorem readValue_number (h : NumericStart cs) : readValue (fuel + 1) cs = readNumber cs := by
  obtain ⟨c, cs, rfl, hc⟩ := h
  have hchars : ∀ d ∈ ['{', '[', '"', 'n', 't', 'f', 'N', 'I'], d.isDigit = false ∧ d ≠ '-' := by
    simp only [forall_mem_cons, not_mem_nil, false_implies, implies_true]
    decide
  have hother : ∀ d ∈ ['{', '[', '"', 'n', 't', 'f', 'N', 'I'], c ≠ d := by
    rintro d hd rfl
    obtain ⟨hdigit, hminus⟩ := hchars c hd
    rcases hc with hc | ⟨hc, -⟩
    · rw [hdigit] at hc
      cases hc
    · exact hminus hc
  rw [readValue.eq_def]
  split <;> rename_i heq
  case h_1 => cases heq
  case h_10 =>
    obtain ⟨rfl, rfl⟩ := cons.inj heq
    rcases hc with hc | ⟨-, d, ds, hds, hd⟩
    · exact absurd hc (by decide)
    · obtain ⟨rfl, -⟩ := cons.inj hds
      exact absurd hd (by decide)
  case h_11 => rfl
  all_goals exact absurd (cons.inj heq).1 (hother _ (by decide))

/-- No text of a value starts with a space or a closing bracket. -/
theorem skipSpace_cons (hc : isWhitespace c = false) : skipSpace (c :: cs) = c :: cs := by
  unfold skipSpace
  rw [dropWhile_cons, hc]
  rfl

/-- The first character of a numeral. -/
theorem numeric_head (hc : c.isDigit = true ∨ c = '-') :
    isWhitespace c = false ∧ c ≠ ']' ∧ c ≠ '}' := by
  have hchars : ∀ d ∈ [' ', '\t', '\n', '\r', ']', '}'], d.isDigit = false ∧ d ≠ '-' := by
    simp only [forall_mem_cons, not_mem_nil, false_implies, implies_true]
    decide
  have hnot : c ∉ [' ', '\t', '\n', '\r', ']', '}'] := by
    intro hmem
    obtain ⟨hdigit, hminus⟩ := hchars c hmem
    rcases hc with hc | hc
    · rw [hdigit] at hc
      cases hc
    · exact hminus hc
  unfold isWhitespace
  simp only [mem_cons, not_or] at hnot ⊢
  simp [hnot]

theorem numericStart_toDigits : ∃ c cs, Nat.toDigits 10 n = c :: cs ∧ c.isDigit = true := by
  have hdigits : ∀ d ∈ Nat.toDigits 10 n, d.isDigit = true := fun d hd =>
    Nat.isDigit_of_mem_toDigits (by decide) (by decide) hd
  cases h : Nat.toDigits 10 n with
  | nil => exact absurd h Nat.toDigits_ne_nil
  | cons c cs =>
    rw [h] at hdigits
    exact ⟨c, cs, rfl, hdigits c (mem_cons_self ..)⟩

theorem numericStart_writeInt (n : Int) : NumericStart (writeInt n) := by
  obtain ⟨c, cs, hwrite, hc⟩ := numericStart_toDigits n.natAbs
  unfold writeInt
  rw [hwrite]
  split
  · exact ⟨'-', c :: cs, rfl, .inr ⟨rfl, c, cs, rfl, hc⟩⟩
  · exact ⟨c, cs, rfl, .inl hc⟩

theorem NumericStart.head (h : NumericStart cs) :
    ∃ c rest, cs = c :: rest ∧ isWhitespace c = false ∧ c ≠ ']' ∧ c ≠ '}' := by
  obtain ⟨c, rest, rfl, hc⟩ := h
  exact ⟨c, rest, rfl, numeric_head (hc.imp id And.left)⟩

/-- No text of a value starts with a space or a closing bracket. -/
theorem write_head (h : tree.Written) :
    ∃ c cs, tree.write = c :: cs ∧ isWhitespace c = false ∧ c ≠ ']' ∧ c ≠ '}' := by
  cases tree with
  | null => exact ⟨'n', _, rfl, by decide⟩
  | bool b => cases b <;> exact ⟨_, _, rfl, by decide⟩
  | int n digits => exact (numericStart_writeInt n).head
  | float literal => exact h.1.head
  | constant name => exact h.elim
  | str s => exact ⟨'"', _, rfl, by decide⟩
  | arr items => cases items <;> exact ⟨'[', _, rfl, by decide⟩
  | obj fields => cases fields <;> exact ⟨'\x7b', _, rfl, by decide⟩

theorem readValue_arr (hc : isWhitespace c = false) (hclose : c ≠ ']') :
    readValue (fuel + 1) ('[' :: c :: cs) =
      (readItems fuel (c :: cs)).map fun out => (.arr out.1, out.2) := by
  rw [readValue, skipSpace_cons hc]
  split
  · rename_i heq
    exact absurd (cons.inj heq).1 hclose
  · rfl

theorem readValue_obj (cs : List Char) : readValue (fuel + 1) ('{' :: '"' :: cs) =
    (readFields fuel ('"' :: cs)).map fun out => (.obj out.1, out.2) := by
  rw [readValue, skipSpace_cons (by decide)]
  rfl

/-- The last field of an object. -/
theorem readFields_last {fuel : Nat}
    (h : readValue fuel (skipSpace cs) = some (value, '\x7d' :: rest)) :
    readFields (fuel + 1) ('"' :: (writeString key ++ ':' :: cs)) = some ([(key, value)], rest) := by
  rw [readFields, skipSpace_cons (by decide)]
  simp only [readString_write]
  rw [skipSpace_cons (by decide)]
  simp only [h]
  rfl

/-- A field with others after it. -/
theorem readFields_next {fuel : Nat}
    (h : readValue fuel (skipSpace cs) = some (value, ',' :: rest)) :
    readFields (fuel + 1) ('"' :: (writeString key ++ ':' :: cs)) =
      (readFields fuel rest).map fun out => ((key, value) :: out.1, out.2) := by
  rw [readFields, skipSpace_cons (by decide)]
  simp only [readString_write]
  rw [skipSpace_cons (by decide)]
  simp only [h]
  rfl

theorem delimited_writeItems (items : List Tree) (rest : List Char) :
    Delimited (writeItems items ++ rest) := by
  cases items with
  | nil => exact .inr (.inl rfl)
  | cons item items => exact .inl rfl

theorem delimited_writeFields (fields : List (String × Tree)) (rest : List Char) :
    Delimited (writeFields fields ++ rest) := by
  cases fields with
  | nil => exact .inr (.inr rfl)
  | cons field fields => exact .inl rfl

theorem length_write_pos (h : tree.Written) : 0 < tree.write.length := by
  obtain ⟨c, cs, hwrite, -⟩ := write_head h
  rw [hwrite]
  exact Nat.succ_pos _

theorem skipSpace_write (h : tree.Written) (rest : List Char) :
    skipSpace (tree.write ++ rest) = tree.write ++ rest := by
  obtain ⟨c, cs, hwrite, hc, -⟩ := write_head h
  rw [hwrite]
  exact skipSpace_cons hc

mutual

theorem readValue_write : ∀ (tree : Tree) (fuel : Nat) (rest : List Char), tree.Written →
    tree.write.length ≤ fuel → Delimited rest →
    readValue fuel (tree.write ++ rest) = some (tree, rest)
  | tree, 0, rest, hw, hf, _ => absurd (length_write_pos hw) (Nat.not_lt.2 hf)
  | .null, fuel + 1, rest, _, _, _ => rfl
  | .bool true, fuel + 1, rest, _, _, _ => rfl
  | .bool false, fuel + 1, rest, _, _, _ => rfl
  | .int n digits, fuel + 1, rest, hw, _, hr => by
    have hdigits : digits = (Nat.toDigits 10 n.natAbs).length := hw
    show readValue (fuel + 1) (writeInt n ++ rest) = _
    rw [readValue_number fuel ((numericStart_writeInt n).append rest), readNumber_writeInt n hr,
      hdigits]
  | .float literal, fuel + 1, rest, hw, _, hr => by
    show readValue (fuel + 1) (literal.toList ++ rest) = _
    rw [readValue_number fuel (hw.1.append rest), hw.2 rest hr]
  | .constant _, _ + 1, _, hw, _, _ => hw.elim
  | .str s, fuel + 1, rest, _, _, _ => by
    show (readString (writeString s ++ rest)).map _ = _
    rw [readString_write]
    rfl
  | .arr [], fuel + 1, rest, _, _, _ => rfl
  | .arr (item :: items), fuel + 1, rest, hw, hf, hr => by
    have hlength : item.write.length + (writeItems items).length ≤ fuel := by
      rw [Tree.write, length_cons, length_append] at hf
      omega
    have hread := readItems_write item items fuel rest hw.1 hw.2 hlength
    obtain ⟨c, cs, hwrite, hc, hclose, -⟩ := write_head hw.1
    rw [Tree.write, cons_append, append_assoc]
    rw [hwrite, cons_append] at hread ⊢
    rw [readValue_arr fuel hc hclose, hread]
    rfl
  | .obj [], fuel + 1, rest, _, _, _ => rfl
  | .obj ((key, value) :: fields), fuel + 1, rest, hw, hf, hr => by
    have hlength : value.write.length + (writeFields fields).length ≤ fuel := by
      simp only [Tree.write, length_cons, length_append] at hf
      omega
    have hread := readFields_write key value fields fuel rest hw.1 hw.2 hlength
    rw [Tree.write]
    simp only [cons_append, append_assoc]
    rw [readValue_obj, hread]
    rfl

theorem readItems_write : ∀ (item : Tree) (items : List Tree) (fuel : Nat) (rest : List Char),
    item.Written → WrittenItems items → item.write.length + (writeItems items).length ≤ fuel →
    readItems fuel (item.write ++ (writeItems items ++ rest)) = some (item :: items, rest)
  | item, items, 0, rest, hw, _, hf => by
    have := length_write_pos hw
    omega
  | item, [], fuel + 1, rest, hw, _, hf => by
    have hlength : item.write.length ≤ fuel := by
      have : 0 < (writeItems []).length := Nat.succ_pos _
      omega
    rw [readItems, skipSpace_write hw,
      readValue_write item fuel _ hw hlength (delimited_writeItems [] rest)]
    rfl
  | item, next :: items, fuel + 1, rest, hw, hws, hf => by
    rw [writeItems, length_cons, length_append] at hf
    have hlength : item.write.length ≤ fuel := by omega
    have hread := readItems_write next items fuel rest hws.1 hws.2 (by omega)
    rw [readItems, skipSpace_write hw,
      readValue_write item fuel _ hw hlength (delimited_writeItems (next :: items) rest)]
    simp only [writeItems, cons_append, append_assoc]
    rw [skipSpace_cons (by decide)]
    show (readItems fuel (next.write ++ (writeItems items ++ rest))).map _ = _
    rw [hread]
    rfl

theorem readFields_write : ∀ (key : String) (value : Tree) (fields : List (String × Tree))
    (fuel : Nat) (rest : List Char), value.Written → WrittenFields fields →
    value.write.length + (writeFields fields).length ≤ fuel →
    readFields fuel ('"' :: (writeString key ++ ':' :: (value.write ++
      (writeFields fields ++ rest)))) = some ((key, value) :: fields, rest)
  | key, value, fields, 0, rest, hw, _, hf => by
    have := length_write_pos hw
    omega
  | key, value, [], fuel + 1, rest, hw, _, hf => by
    have hlength : value.write.length ≤ fuel := by
      have : 0 < (writeFields []).length := Nat.succ_pos _
      omega
    have hvalue := readValue_write value fuel _ hw hlength (delimited_writeFields [] rest)
    rw [← skipSpace_write hw] at hvalue
    exact readFields_last hvalue
  | key, value, (next, item) :: fields, fuel + 1, rest, hw, hws, hf => by
    simp only [writeFields, length_cons, length_append] at hf
    have hlength : value.write.length ≤ fuel := by omega
    have hread := readFields_write next item fields fuel rest hws.1 hws.2 (by omega)
    have hvalue := readValue_write value fuel _ hw hlength
      (delimited_writeFields ((next, item) :: fields) rest)
    rw [← skipSpace_write hw] at hvalue
    have hsplit : writeFields ((next, item) :: fields) ++ rest = ',' :: '"' ::
        (writeString next ++ ':' :: (item.write ++ (writeFields fields ++ rest))) := by
      simp only [writeFields, cons_append, append_assoc]
    rw [hsplit] at hvalue ⊢
    rw [readFields_next hvalue, hread]
    rfl

end

theorem readTree_text (h : tree.Written) : readTree tree.text = some tree := by
  have hspace : skipSpace tree.write = tree.write := by
    have hskip := skipSpace_write h []
    rwa [append_nil] at hskip
  have hread : readValue (2 * tree.write.length + 2) tree.write = some (tree, []) := by
    have hvalue := readValue_write tree (2 * tree.write.length + 2) [] h (by omega) trivial
    rwa [append_nil] at hvalue
  unfold readTree Tree.text
  rw [String.toList_ofList, hspace, hread]
  rfl

/-- Two trees with one text are one tree. -/
theorem text_inj {tree' : Tree} (h : tree.Written) (h' : tree'.Written) :
    tree.text = tree'.text ↔ tree = tree' := by
  constructor
  · intro heq
    have hread := readTree_text h
    rw [heq, readTree_text h'] at hread
    exact (Option.some.inj hread).symm
  · rintro rfl
    rfl

end JsonSyntax

end EchoDesk
