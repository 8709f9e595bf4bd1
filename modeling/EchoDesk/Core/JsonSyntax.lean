import EchoDesk.Core.JsonText
import Mathlib.Data.Nat.Size

/-! # JSON texts as two languages read them

`json.loads` of Python and `JSON.parse` of JavaScript share a grammar, read here into a tree, and
differ in three points: Python also takes `NaN`, `Infinity` and `-Infinity`; its integers are
exact, and a numeral of more than 4300 digits is refused; every number of JavaScript is a double.
An object keeps the last value of a key, at the place of the first one.

Both languages read a numeral with a fraction or an exponent as the nearest double, which is a
parameter. A lone surrogate, which both keep, is read as U+FFFD.
-/

namespace EchoDesk

open List Option Bool

namespace JsonSyntax

open JsonText (Reader)

inductive Tree where
  | null
  | bool (b : Bool)
  /-- An integer, and with how many digits it is written. -/
  | int (n : Int) (digits : Nat)
  /-- A numeral with a fraction or an exponent, as it is written. -/
  | float (literal : String)
  /-- One of the three constants of Python. -/
  | constant (name : String)
  | str (s : String)
  | arr (items : List Tree)
  | obj (fields : List (String × Tree))

/-! ## The grammar -/

def isWhitespace (c : Char) : Bool := c ∈ [' ', '\t', '\n', '\r']

def skipSpace (cs : List Char) : List Char := cs.dropWhile isWhitespace

def hexDigit (c : Char) : Option Nat :=
  if c.isDigit then some (c.toNat - 48)
  else if 'a' ≤ c ∧ c ≤ 'f' then some (c.toNat - 87)
  else if 'A' ≤ c ∧ c ≤ 'F' then some (c.toNat - 55)
  else none

def escape : Char → Option Nat
  | '"' => some 34
  | '\\' => some 92
  | '/' => some 47
  | 'b' => some 8
  | 'f' => some 12
  | 'n' => some 10
  | 'r' => some 13
  | 't' => some 9
  | _ => none

/-- The code points and the escaped UTF-16 units of a string, up to its closing quote. -/
def readUnits : Reader (List Nat)
  | '"' :: rest => some ([], rest)
  | '\\' :: 'u' :: a :: b :: c :: d :: rest => do
    let a ← hexDigit a
    let b ← hexDigit b
    let c ← hexDigit c
    let d ← hexDigit d
    let out ← readUnits rest
    return ((((a * 16 + b) * 16 + c) * 16 + d) :: out.1, out.2)
  | '\\' :: c :: rest => do
    let unit ← escape c
    let out ← readUnits rest
    return (unit :: out.1, out.2)
  | c :: rest =>
    if c.toNat < 32 ∨ c = '\\' then none
    else (readUnits rest).map fun out => (c.toNat :: out.1, out.2)
  | [] => none

def isSurrogate (unit : Nat) : Bool := 0xd800 ≤ unit ∧ unit < 0xe000

def unitChar (unit : Nat) : Char := if isSurrogate unit then '\ufffd' else Char.ofNat unit

/-- Two escaped surrogates make one character. -/
def joinUnits : List Nat → List Char
  | high :: low :: rest =>
    if 0xd800 ≤ high ∧ high < 0xdc00 ∧ 0xdc00 ≤ low ∧ low < 0xe000 then
      Char.ofNat (0x10000 + (high - 0xd800) * 0x400 + (low - 0xdc00)) :: joinUnits rest
    else unitChar high :: joinUnits (low :: rest)
  | [unit] => [unitChar unit]
  | [] => []

def readString : Reader String := fun cs =>
  (readUnits cs).map fun out => (String.ofList (joinUnits out.1), out.2)

def digitsValue (digits : List Char) : Nat :=
  digits.foldl (fun n c => 10 * n + (c.toNat - 48)) 0

def readDigits : Reader (List Char) := fun cs =>
  if cs.takeWhile Char.isDigit = [] then none
  else some (cs.takeWhile Char.isDigit, cs.dropWhile Char.isDigit)

def readFraction : Reader (List Char)
  | '.' :: rest => (readDigits rest).map fun out => ('.' :: out.1, out.2)
  | cs => some ([], cs)

def readSign : Reader (List Char)
  | '+' :: rest => some (['+'], rest)
  | '-' :: rest => some (['-'], rest)
  | cs => some ([], cs)

def readExponent : Reader (List Char)
  | c :: rest =>
    if c = 'e' ∨ c = 'E' then do
      let sign ← readSign rest
      let digits ← readDigits sign.2
      return (c :: (sign.1 ++ digits.1), digits.2)
    else some ([], c :: rest)
  | [] => some ([], [])

/-- `-?(0|[1-9]\d*)(\.\d+)?([eE][-+]?\d+)?` -/
def readNumber : Reader Tree := fun cs => do
  let sign : List Char := if cs.head? = some '-' then ['-'] else []
  let digits ← readDigits (cs.drop sign.length)
  if digits.1.head? = some '0' ∧ digits.1.length ≠ 1 then none
  else
    let fraction ← readFraction digits.2
    let exponent ← readExponent fraction.2
    let n : Nat := digitsValue digits.1
    if fraction.1 = [] ∧ exponent.1 = [] then
      return (.int (if sign = [] then (n : Int) else -(n : Int)) digits.1.length, exponent.2)
    else
      return (.float (String.ofList (sign ++ digits.1 ++ fraction.1 ++ exponent.1)), exponent.2)

mutual

/-- A value at the front of a text. -/
def readValue : Nat → Reader Tree
  | 0, _ => none
  | fuel + 1, '{' :: rest =>
    match skipSpace rest with
    | '}' :: rest => some (.obj [], rest)
    | rest => (readFields fuel rest).map fun out => (.obj out.1, out.2)
  | fuel + 1, '[' :: rest =>
    match skipSpace rest with
    | ']' :: rest => some (.arr [], rest)
    | rest => (readItems fuel rest).map fun out => (.arr out.1, out.2)
  | _ + 1, '"' :: rest => (readString rest).map fun out => (.str out.1, out.2)
  | _ + 1, 'n' :: 'u' :: 'l' :: 'l' :: rest => some (.null, rest)
  | _ + 1, 't' :: 'r' :: 'u' :: 'e' :: rest => some (.bool true, rest)
  | _ + 1, 'f' :: 'a' :: 'l' :: 's' :: 'e' :: rest => some (.bool false, rest)
  | _ + 1, 'N' :: 'a' :: 'N' :: rest => some (.constant "nan", rest)
  | _ + 1, 'I' :: 'n' :: 'f' :: 'i' :: 'n' :: 'i' :: 't' :: 'y' :: rest =>
    some (.constant "inf", rest)
  | _ + 1, '-' :: 'I' :: 'n' :: 'f' :: 'i' :: 'n' :: 'i' :: 't' :: 'y' :: rest =>
    some (.constant "-inf", rest)
  | _ + 1, cs => readNumber cs

def readItems : Nat → Reader (List Tree)
  | 0, _ => none
  | fuel + 1, cs =>
    match readValue fuel (skipSpace cs) with
    | none => none
    | some (item, rest) =>
      match skipSpace rest with
      | ']' :: rest => some ([item], rest)
      | ',' :: rest => (readItems fuel rest).map fun out => (item :: out.1, out.2)
      | _ => none

def readFields : Nat → Reader (List (String × Tree))
  | 0, _ => none
  | fuel + 1, cs =>
    match skipSpace cs with
    | '"' :: rest =>
      match readString rest with
      | none => none
      | some (key, rest) =>
        match skipSpace rest with
        | ':' :: rest =>
          match readValue fuel (skipSpace rest) with
          | none => none
          | some (value, rest) =>
            match skipSpace rest with
            | '}' :: rest => some ([(key, value)], rest)
            | ',' :: rest => (readFields fuel rest).map fun out => ((key, value) :: out.1, out.2)
            | _ => none
        | _ => none
    | _ => none

end

/-- A whole text. -/
def readTree (text : String) : Option Tree :=
  match readValue (2 * text.toList.length + 2) (skipSpace text.toList) with
  | some (tree, rest) => if skipSpace rest = [] then some tree else none
  | none => none

/-! ## Doubles -/

/-- The double nearest to an integer, ties to the even significand; `none` when it is infinite. -/
def nearestDouble (n : Int) : Option Int :=
  let step := 2 ^ (n.natAbs.size - 53)
  let below := n.natAbs / step
  let rest := n.natAbs % step
  let significand := if step < 2 * rest ∨ (2 * rest = step ∧ below % 2 = 1) then below + 1 else below
  if significand * step < 2 ^ 1024 then some (n.sign * (significand * step : Nat)) else none

/-- The decimal conversions of a language: the double nearest to a numeral, by its `repr`, and the
number that a `repr` stands for (an integer when it is whole). -/
structure Floats where
  nearest : String → String
  number : String → Json

/-- An integer numeral as JavaScript reads it. -/
def readInt (n : Int) : Json :=
  match nearestDouble n with
  | some m => .int m
  | none => .float (if 0 ≤ n then "inf" else "-inf")

/-! ## The two readings -/

/-- The dictionary of a list of entries. -/
def ofEntries (entries : List (String × Json)) : Dict :=
  entries.foldl (fun d entry => d.set entry.1 entry.2) []

section

variable (floats : Floats)

mutual

/-- What `json.loads` makes of a tree; a float stays its `repr`. -/
def loads : Tree → Option Json
  | .null => some .null
  | .bool b => some (.bool b)
  | .int n digits => if digits ≤ 4300 then some (.int n) else none
  | .float literal => some (.float (floats.nearest literal))
  | .constant name => some (.float name)
  | .str s => some (.str s)
  | .arr items => (loadsList items).map Json.arr
  | .obj fields => (loadsFields fields).map fun entries => .obj (ofEntries entries)

def loadsList : List Tree → Option (List Json)
  | [] => some []
  | item :: items =>
    match loads item, loadsList items with
    | some value, some values => some (value :: values)
    | _, _ => none

def loadsFields : List (String × Tree) → Option (List (String × Json))
  | [] => some []
  | (key, item) :: fields =>
    match loads item, loadsFields fields with
    | some value, some entries => some ((key, value) :: entries)
    | _, _ => none

end

mutual

/-- What `JSON.parse` makes of a tree; a number is an integer when it is whole. -/
def parse : Tree → Option Json
  | .null => some .null
  | .bool b => some (.bool b)
  | .int n _ => some (readInt n)
  | .float literal => some (floats.number (floats.nearest literal))
  | .constant _ => none
  | .str s => some (.str s)
  | .arr items => (parseList items).map Json.arr
  | .obj fields => (parseFields fields).map fun entries => .obj (ofEntries entries)

def parseList : List Tree → Option (List Json)
  | [] => some []
  | item :: items =>
    match parse item, parseList items with
    | some value, some values => some (value :: values)
    | _, _ => none

def parseFields : List (String × Tree) → Option (List (String × Json))
  | [] => some []
  | (key, item) :: fields =>
    match parse item, parseFields fields with
    | some value, some entries => some ((key, value) :: entries)
    | _, _ => none

end

/-- `json.loads`. -/
def jsonLoads (text : String) : Option Json := (readTree text).bind (loads floats)

/-- `JSON.parse`. -/
def jsonParse (text : String) : Option Json := (readTree text).bind (parse floats)

end

/-! ## Where the readings differ -/

mutual

/-- Some constant stands in the text. -/
def Tree.hasConstant : Tree → Bool
  | .constant _ => true
  | .arr items => hasConstantList items
  | .obj fields => hasConstantFields fields
  | _ => false

def hasConstantList : List Tree → Bool
  | [] => false
  | item :: items => item.hasConstant || hasConstantList items

def hasConstantFields : List (String × Tree) → Bool
  | [] => false
  | (_, item) :: fields => item.hasConstant || hasConstantFields fields

end

end JsonSyntax

namespace Json

section

variable (onInt : Int → Json) (onFloat : String → Json)

mutual

/-- Every number of a value, read anew. -/
def mapNumbers : Json → Json
  | .int n => onInt n
  | .float text => onFloat text
  | .arr xs => .arr (mapNumbersList xs)
  | .obj fields => .obj (mapNumbersFields fields)
  | j => j

def mapNumbersList : List Json → List Json
  | [] => []
  | x :: xs => mapNumbers x :: mapNumbersList xs

def mapNumbersFields : List (String × Json) → List (String × Json)
  | [] => []
  | (k, v) :: fields => (k, mapNumbers v) :: mapNumbersFields fields

end

end

mutual

/-- The integers of a value. -/
def ints : Json → List Int
  | .int n => [n]
  | .arr xs => intsList xs
  | .obj fields => intsFields fields
  | _ => []

def intsList : List Json → List Int
  | [] => []
  | x :: xs => ints x ++ intsList xs

def intsFields : List (String × Json) → List Int
  | [] => []
  | (_, v) :: fields => ints v ++ intsFields fields

end

section

variable {onInt : Int → Json} {onFloat : String → Json}

mutual

/-- Two ways to read the integers agree on a value when they agree on its integers. -/
theorem mapNumbers_eq_iff : ∀ j : Json,
    j.mapNumbers onInt onFloat = j.mapNumbers Json.int onFloat ↔ ∀ n ∈ j.ints, onInt n = .int n
  | .null => by simp [mapNumbers, ints]
  | .bool _ => by simp [mapNumbers, ints]
  | .int n => by simp [mapNumbers, ints]
  | .float _ => by simp [mapNumbers, ints]
  | .str _ => by simp [mapNumbers, ints]
  | .arr xs => by simpa [mapNumbers, ints] using mapNumbersList_eq_iff xs
  | .obj fields => by simpa [mapNumbers, ints] using mapNumbersFields_eq_iff fields

theorem mapNumbersList_eq_iff : ∀ xs : List Json,
    mapNumbersList onInt onFloat xs = mapNumbersList Json.int onFloat xs ↔
      ∀ n ∈ intsList xs, onInt n = .int n
  | [] => by simp [mapNumbersList, intsList]
  | x :: xs => by
    rw [mapNumbersList, mapNumbersList, cons.injEq, mapNumbers_eq_iff x,
      mapNumbersList_eq_iff xs, intsList, forall_mem_append]

theorem mapNumbersFields_eq_iff : ∀ fields : List (String × Json),
    mapNumbersFields onInt onFloat fields = mapNumbersFields Json.int onFloat fields ↔
      ∀ n ∈ intsFields fields, onInt n = .int n
  | [] => by simp [mapNumbersFields, intsFields]
  | (k, v) :: fields => by
    rw [mapNumbersFields, mapNumbersFields, cons.injEq, Prod.mk.injEq, mapNumbers_eq_iff v,
      mapNumbersFields_eq_iff fields, intsFields, forall_mem_append]
    simp

end

theorem mapNumbersFields_set (d : Dict) (key : String) (value : Json) :
    mapNumbersFields onInt onFloat (Dict.set d key value) =
      Dict.set (mapNumbersFields onInt onFloat d) key (value.mapNumbers onInt onFloat) := by
  induction d with
  | nil => rfl
  | cons entry d ih =>
    obtain ⟨k, v⟩ := entry
    rw [Dict.set, mapNumbersFields, Dict.set]
    by_cases hk : k = key
    · rw [if_pos hk, if_pos hk, mapNumbersFields]
    · rw [if_neg hk, if_neg hk, mapNumbersFields, ih]

end

end Json

namespace JsonSyntax

open Json (mapNumbers mapNumbersList mapNumbersFields mapNumbersFields_set mapNumbers_eq_iff)

variable {floats : Floats}

theorem mapNumbersFields_ofEntries (onInt : Int → Json) (onFloat : String → Json)
    (entries : List (String × Json)) :
    mapNumbersFields onInt onFloat (ofEntries entries) =
      ofEntries (mapNumbersFields onInt onFloat entries) := by
  have hfold : ∀ d : Dict, mapNumbersFields onInt onFloat
      (entries.foldl (fun d entry => Dict.set d entry.1 entry.2) d) =
      (mapNumbersFields onInt onFloat entries).foldl (fun d entry => Dict.set d entry.1 entry.2)
        (mapNumbersFields onInt onFloat d) := by
    induction entries with
    | nil => exact fun d => rfl
    | cons entry entries ih =>
      intro d
      obtain ⟨k, v⟩ := entry
      rw [foldl_cons, ih, mapNumbersFields_set, mapNumbersFields, foldl_cons]
  exact hfold []

mutual

/-- Without a constant JavaScript reads what Python reads, every number as a double. -/
theorem parse_of_loads : ∀ {tree : Tree} {value : Json}, loads floats tree = some value →
    tree.hasConstant = false → parse floats tree = some (value.mapNumbers readInt floats.number)
  | .null, _, h, _ => by cases h; rfl
  | .bool _, _, h, _ => by cases h; rfl
  | .int n digits, _, h, _ => by
    by_cases hdigits : digits ≤ 4300
    · rw [loads, if_pos hdigits] at h
      cases h
      rw [parse, mapNumbers]
    · rw [loads, if_neg hdigits] at h
      cases h
  | .float _, _, h, _ => by cases h; rfl
  | .constant _, _, _, hconstant => by cases hconstant
  | .str _, _, h, _ => by cases h; rfl
  | .arr items, _, h, hconstant => by
    obtain ⟨values, hvalues, rfl⟩ := map_eq_some_iff.1 h
    rw [parse, parseList_of_loadsList hvalues hconstant]
    rfl
  | .obj fields, _, h, hconstant => by
    obtain ⟨entries, hentries, rfl⟩ := map_eq_some_iff.1 h
    rw [parse, parseFields_of_loadsFields hentries hconstant, map_some,
      ← mapNumbersFields_ofEntries]
    rfl

theorem parseList_of_loadsList : ∀ {items : List Tree} {values : List Json},
    loadsList floats items = some values → hasConstantList items = false →
    parseList floats items = some (mapNumbersList readInt floats.number values)
  | [], _, h, _ => by cases h; rfl
  | item :: items, _, h, hconstant => by
    rw [hasConstantList, or_eq_false_iff] at hconstant
    rw [loadsList] at h
    split at h
    · rename_i value values hvalue hvalues
      cases h
      rw [parseList, parse_of_loads hvalue hconstant.1, parseList_of_loadsList hvalues hconstant.2]
      rfl
    · cases h

theorem parseFields_of_loadsFields : ∀ {fields : List (String × Tree)}
    {entries : List (String × Json)}, loadsFields floats fields = some entries →
    hasConstantFields fields = false →
    parseFields floats fields = some (mapNumbersFields readInt floats.number entries)
  | [], _, h, _ => by cases h; rfl
  | (key, item) :: fields, _, h, hconstant => by
    rw [hasConstantFields, or_eq_false_iff] at hconstant
    rw [loadsFields] at h
    split at h
    · rename_i value entries hvalue hentries
      cases h
      rw [parseFields, parse_of_loads hvalue hconstant.1,
        parseFields_of_loadsFields hentries hconstant.2]
      rfl
    · cases h

end

mutual

/-- JavaScript reads no text with a constant. -/
theorem parse_of_hasConstant : ∀ {tree : Tree}, tree.hasConstant = true → parse floats tree = none
  | .constant _, _ => rfl
  | .arr items, h => by rw [parse, parseList_of_hasConstant h, map_none]
  | .obj fields, h => by rw [parse, parseFields_of_hasConstant h, map_none]

theorem parseList_of_hasConstant : ∀ {items : List Tree}, hasConstantList items = true →
    parseList floats items = none
  | item :: items, h => by
    rw [hasConstantList, or_eq_true_iff] at h
    rw [parseList]
    rcases h with hitem | hitems
    · rw [parse_of_hasConstant hitem]
    · rw [parseList_of_hasConstant hitems]
      cases parse floats item <;> rfl

theorem parseFields_of_hasConstant : ∀ {fields : List (String × Tree)},
    hasConstantFields fields = true → parseFields floats fields = none
  | (key, item) :: fields, h => by
    rw [hasConstantFields, or_eq_true_iff] at h
    rw [parseFields]
    rcases h with hitem | hfields
    · rw [parse_of_hasConstant hitem]
    · rw [parseFields_of_hasConstant hfields]
      cases parse floats item <;> rfl

end

/-- A text means the same in both languages: it holds no constant, and every integer of its value
is a double. -/
def Portable (floats : Floats) (text : String) : Prop :=
  ∃ tree value, readTree text = some tree ∧ loads floats tree = some value ∧
    tree.hasConstant = false ∧ ∀ n ∈ value.ints, readInt n = .int n

/-- A value of Python by its numbers. -/
def Floats.numeric (floats : Floats) (value : Json) : Json := value.mapNumbers .int floats.number

/-- JavaScript reads the value that Python reads exactly when the text is portable. -/
theorem jsonParse_eq_iff {text : String} {value : Json} (h : jsonLoads floats text = some value) :
    jsonParse floats text = some (floats.numeric value) ↔ Portable floats text := by
  obtain ⟨tree, htree, hvalue⟩ := bind_eq_some_iff.1 h
  have hparse : jsonParse floats text = parse floats tree := by
    rw [jsonParse, htree]
    rfl
  rw [hparse]
  constructor
  · intro heq
    cases hconstant : tree.hasConstant with
    | true =>
      rw [parse_of_hasConstant hconstant] at heq
      cases heq
    | false =>
      rw [parse_of_loads hvalue hconstant] at heq
      have hsame : value.mapNumbers readInt floats.number = value.mapNumbers .int floats.number :=
        some.inj heq
      exact ⟨tree, value, htree, hvalue, hconstant, (mapNumbers_eq_iff value).1 hsame⟩
  · rintro ⟨tree', value', htree', hvalue', hconstant, hints⟩
    cases htree.symm.trans htree'
    cases hvalue.symm.trans hvalue'
    have hsame : value.mapNumbers readInt floats.number = value.mapNumbers .int floats.number :=
      (mapNumbers_eq_iff value).2 hints
    rw [parse_of_loads hvalue hconstant, hsame]
    rfl

end JsonSyntax

end EchoDesk
