import EchoDesk.Core.JsonText
import Mathlib.Data.List.TakeWhile

/-! # The Python library the sync codecs call

What the codecs use of `str`, `int`, `float`, the JSON module and the SQLite
driver. Functions that read Unicode tables, floats or whole texts are parameters
with the facts their documentation states; the others are defined. A float is
kept as its `repr`.
-/

namespace EchoDesk

open List Option

/-- The built-in exceptions the codecs meet, by their class. -/
inductive PyError where
  | typeError
  | valueError
  | overflowError
  /-- The driver cannot bind a value of this type. -/
  | bindingError
  /-- A unique index or a check of the table refuses the row. -/
  | integrityError
  /-- The largest row id was given out. -/
  | databaseFull
deriving DecidableEq

/-! ## Texts -/

/-- The characters `str.strip` removes and `\s` matches. -/
def isSpace (c : Char) : Bool :=
  let n := c.toNat
  (9 ≤ n ∧ n ≤ 13) ∨ (28 ≤ n ∧ n ≤ 32) ∨ n = 0x85 ∨ n = 0xa0 ∨ n = 0x1680 ∨
    (0x2000 ≤ n ∧ n ≤ 0x200a) ∨ n = 0x2028 ∨ n = 0x2029 ∨ n = 0x202f ∨ n = 0x205f ∨ n = 0x3000

/-- Drop the characters in `p` at the front, then those at the end. -/
def stripChars (p : Char → Bool) (cs : List Char) : List Char :=
  ((cs.dropWhile p).reverse.dropWhile p).reverse

/-- `text.strip()`. -/
def strip (s : String) : String := String.ofList (stripChars isSpace s.toList)

/-- `text[:limit]`. -/
def slice (limit : Nat) (s : String) : String := String.ofList (s.toList.take limit)

/-- Replace each run of characters in `p` by `c`. -/
def collapse (p : Char → Bool) (c : Char) : List Char → List Char
  | [] => []
  | d :: ds =>
    if p d then
      match ds with
      | [] => [c]
      | e :: _ => if p e then collapse p c ds else c :: collapse p c ds
    else d :: collapse p c ds

/-- There is no space at either end. -/
def Stripped (s : String) : Prop := strip s = s

instance (s : String) : Decidable (Stripped s) := inferInstanceAs (Decidable (_ = _))

@[simp] theorem toList_strip (s : String) : (strip s).toList = stripChars isSpace s.toList := by
  simp [strip]

@[simp] theorem toList_slice (limit : Nat) (s : String) :
    (slice limit s).toList = s.toList.take limit := by
  simp [slice]

theorem stripped_iff (s : String) : Stripped s ↔ stripChars isSpace s.toList = s.toList := by
  rw [Stripped, strip, ← String.toList_inj, String.toList_ofList]

/-- Between two characters that stay there is nothing to strip. -/
theorem stripChars_of_ends {p : Char → Bool} {cs : List Char}
    (hfirst : ∀ c ∈ cs.head?, p c = false) (hlast : ∀ c ∈ cs.getLast?, p c = false) :
    stripChars p cs = cs := by
  have hdrop : ∀ ds : List Char, (∀ c ∈ ds.head?, p c = false) → ds.dropWhile p = ds := by
    intro ds h
    cases ds with
    | nil => rfl
    | cons d ds => rw [dropWhile_cons_of_neg (by simp [h d rfl])]
  rw [stripChars, hdrop _ hfirst, hdrop, reverse_reverse]
  rwa [head?_reverse]

variable {s : String} (p : Char → Bool) (cs : List Char)

/-- What is left begins as the text without its front spaces does. -/
theorem stripChars_front : stripChars p cs <+: cs.dropWhile p := by
  rw [stripChars, ← reverse_suffix, reverse_reverse]
  exact dropWhile_suffix p

/-- What a strip leaves begins with a character that stays. -/
theorem head?_stripChars : ∀ c ∈ (stripChars p cs).head?, p c = false := by
  intro c hc
  obtain ⟨rest, hrest⟩ := stripChars_front p cs
  have hhead := head?_dropWhile_not p cs
  rwa [← hrest, head?_append, mem_def.1 hc] at hhead

/-- What a strip leaves ends with a character that stays. -/
theorem getLast?_stripChars : ∀ c ∈ (stripChars p cs).getLast?, p c = false := by
  intro c hc
  rw [stripChars, getLast?_reverse] at hc
  have hhead := head?_dropWhile_not p (cs.dropWhile p).reverse
  rwa [mem_def.1 hc] at hhead

/-- A strip leaves nothing to strip. -/
theorem stripChars_stripChars : stripChars p (stripChars p cs) = stripChars p cs :=
  stripChars_of_ends (head?_stripChars p cs) (getLast?_stripChars p cs)

theorem stripped_strip (s : String) : Stripped (strip s) := by
  rw [stripped_iff, toList_strip, stripChars_stripChars]

/-- A text between two characters that are no spaces has nothing to strip. -/
theorem stripped_of_ends (hfirst : ∀ c ∈ s.toList.head?, isSpace c = false)
    (hlast : ∀ c ∈ s.toList.getLast?, isSpace c = false) : Stripped s :=
  (stripped_iff s).2 (stripChars_of_ends hfirst hlast)

theorem length_stripChars_le : (stripChars p cs).length ≤ cs.length := by
  rw [stripChars, length_reverse]
  refine Nat.le_trans (dropWhile_sublist _).length_le ?_
  rw [length_reverse]
  exact (dropWhile_sublist _).length_le

/-- A text that is as long after the strip had nothing to strip. -/
theorem stripChars_eq_of_length {p : Char → Bool} {cs : List Char}
    (h : (stripChars p cs).length = cs.length) : stripChars p cs = cs := by
  have hfront : (cs.dropWhile p).length ≤ cs.length := (dropWhile_sublist _).length_le
  have hback := (dropWhile_sublist p (l := (cs.dropWhile p).reverse)).length_le
  rw [stripChars, length_reverse] at h
  rw [length_reverse] at hback
  have h₁ : cs.dropWhile p = cs := (dropWhile_sublist _).eq_of_length (by omega)
  have h₂ : (cs.dropWhile p).reverse.dropWhile p = (cs.dropWhile p).reverse :=
    (dropWhile_sublist _).eq_of_length (by rw [length_reverse]; omega)
  rw [stripChars, h₂, reverse_reverse, h₁]

theorem stripChars_eq_nil {p : Char → Bool} {cs : List Char} (h : stripChars p cs = []) :
    ∀ c ∈ cs, p c = true := by
  rw [stripChars, reverse_eq_nil_iff, dropWhile_eq_nil_iff] at h
  intro c hc
  rw [← takeWhile_append_dropWhile (p := p) (l := cs), mem_append] at hc
  rcases hc with hc | hc
  · exact mem_takeWhile_imp hc
  · exact h c (mem_reverse.2 hc)

/-- There is a character that is no space. -/
def Written (s : String) : Prop := ∃ c ∈ s.toList, isSpace c = false

instance (s : String) : Decidable (Written s) :=
  List.decidableBEx (fun c => isSpace c = false) s.toList

/-- A written text is not blank. -/
theorem Written.strip_ne (h : Written s) : strip s ≠ "" := by
  intro hblank
  obtain ⟨c, hc, hspace⟩ := h
  have hnil : stripChars isSpace s.toList = [] := by rw [← toList_strip, hblank, String.toList_empty]
  rw [stripChars_eq_nil hnil c hc] at hspace
  cases hspace

theorem Written.append_left {t : String} (h : Written s) : Written (s ++ t) := by
  obtain ⟨c, hc, hspace⟩ := h
  exact ⟨c, by rw [String.toList_append]; exact mem_append_left _ hc, hspace⟩

theorem Written.append_right {t : String} (h : Written t) : Written (s ++ t) := by
  obtain ⟨c, hc, hspace⟩ := h
  exact ⟨c, by rw [String.toList_append]; exact mem_append_right _ hc, hspace⟩

theorem slice_of_le {limit : Nat} (h : s.toList.length ≤ limit) : slice limit s = s := by
  rw [slice, take_of_length_le h, String.ofList_toList]

/-- The digits of a numeral. -/
theorem toList_natText (n : Nat) : (toString n).toList = Nat.toDigits 10 n := by
  show (Nat.repr n).toList = _
  rw [Nat.repr_eq_ofList_toDigits, String.toList_ofList]

/-- Two numbers with one numeral are equal. -/
theorem natText_injective : Function.Injective fun n : Nat => toString n := by
  intro n m h
  have hdigits : (toString n).toList = (toString m).toList := congrArg String.toList h
  rw [toList_natText, toList_natText] at hdigits
  rw [← Nat.ofDigitChars_ten_toDigits (n := n), hdigits, Nat.ofDigitChars_ten_toDigits]

/-- A numeral has no space around it. -/
theorem stripped_natText (n : Nat) : Stripped (toString n) := by
  have hspace : ∀ c ∈ (toString n).toList, isSpace c = false := by
    intro c hc
    rw [toList_natText] at hc
    have hdigit := Nat.isDigit_of_mem_toDigits (by decide) (by decide) hc
    simp only [Char.isDigit, Bool.and_eq_true, decide_eq_true_eq] at hdigit
    have hlow : 48 ≤ c.toNat := hdigit.1
    have hhigh : c.toNat ≤ 57 := hdigit.2
    simp [isSpace]
    omega
  refine stripped_of_ends ?_ ?_
  · intro c hc
    exact hspace c (mem_of_mem_head? hc)
  · intro c hc
    exact hspace c (mem_of_getLast? hc)

/-! ## The library -/

/-- The library functions that are not defined here. -/
structure Python where
  /-- `str(value)` of a list or a dictionary. -/
  reprOf : Json → String
  /-- `text.isdigit()`. -/
  isdigit : String → Bool
  /-- `int(text)`, none when it is no numeral. -/
  intOfText : String → Option Int
  /-- `int(value)` of a float. -/
  intOfFloat : String → Except PyError Int
  /-- `float(value)` of an integer. -/
  floatOfInt : Int → Except PyError String
  /-- `float(text)`, none when it is no numeral. -/
  floatOfText : String → Option String
  /-- `0 <= value <= 1` of a float. -/
  inUnit : String → Bool
  /-- The text SQLite stores for a float in a text column. -/
  columnText : String → String
  /-- `unicodedata.normalize("NFKC", text).casefold()`. -/
  nfkcCasefold : String → String
  /-- `sha256(text.encode()).hexdigest()`. -/
  sha256 : String → String
  /-- `json.dumps` of a dictionary, and `json.loads` when it gives one. -/
  dumps : Dict → String
  loads : String → Option Dict
  /-- `datetime.isoformat()`, and `datetime.fromisoformat`. -/
  isoformat : Timestamp → String
  fromisoformat : String → Option Timestamp
  /-- The `n`-th `uuid4().hex` a process draws. -/
  uuid4 : Nat → String
  loads_dumps : ∀ d, loads (dumps d) = some d
  isoformat_written : ∀ t, Written (isoformat t)
  uuid4_injective : Function.Injective uuid4
  uuid4_unspaced : ∀ n, ∀ c ∈ (uuid4 n).toList, isSpace c = false

/-- `str(value or …)` of a nullable text column: the empty text is false. -/
def orText (value : Option String) (default : String) : String := (truthy value).getD default

namespace Python

variable (py : Python)

/-- `str(value)`. -/
def str : Json → String
  | .null => "None"
  | .bool b => if b then "True" else "False"
  | .int n => toString n
  | .float text => text
  | .str s => s
  | j => py.reprOf j

/-- `int(value)`. -/
def int : Json → Except PyError Int
  | .bool b => .ok (if b then 1 else 0)
  | .int n => .ok n
  | .float text => py.intOfFloat text
  | .str s =>
    match py.intOfText s with
    | some n => .ok n
    | none => .error .valueError
  | _ => .error .typeError

/-- `float(value)`. -/
def float : Json → Except PyError String
  | .bool b => .ok (if b then "1.0" else "0.0")
  | .int n => py.floatOfInt n
  | .float text => .ok text
  | .str s =>
    match py.floatOfText s with
    | some text => .ok text
    | none => .error .valueError
  | _ => .error .typeError

/-- An integer as the driver binds it. -/
def bindInt (n : Int) : Except PyError Int :=
  if -2 ^ 63 ≤ n ∧ n < 2 ^ 63 then .ok n else .error .overflowError

/-- A value of any type, bound to a nullable text column. -/
def bindText : Json → Except PyError (Option String)
  | .null => .ok none
  | .bool b => .ok (some (if b then "1" else "0"))
  | .int n => do
    let n ← bindInt n
    return some (toString n)
  | .float text => .ok (some (py.columnText text))
  | .str s => .ok (some s)
  | _ => .error .bindingError

/-- `normalize_text` of the memory repository. -/
def normalizeText (value : String) : String :=
  strip (String.ofList (collapse isSpace ' ' (py.nfkcCasefold value).toList))

/-- The characters `_KEY_RE` leaves. -/
def isKeyChar (c : Char) : Bool :=
  c.isDigit ∨ c.isAlpha ∨ (0x3400 ≤ c.toNat ∧ c.toNat ≤ 0x9fff) ∨ c ∈ [':', '_', '.', '/', '-']

/-- `normalize_key` of the memory repository. -/
def normalizeKey (value : String) : String :=
  let replaced := collapse (fun c => !isKeyChar c) '-' (py.normalizeText value).toList
  let normalized := stripChars (fun c => c ∈ ['-', ':', '.', '/']) replaced
  if normalized = [] then py.sha256 value else String.ofList (normalized.take 256)

variable {py}

@[simp] theorem str_str (s : String) : py.str (.str s) = s := rfl

@[simp] theorem int_int (n : Int) : py.int (.int n) = .ok n := rfl

/-- The value of a decimal numeral. -/
def decimal? (s : String) : Option Int :=
  match s.toList with
  | [] => none
  | '-' :: digits =>
    if digits ≠ [] ∧ digits.all Char.isDigit then some (-(value digits : Int)) else none
  | digits => if digits.all Char.isDigit then some (value digits : Int) else none
where
  value (digits : List Char) : Nat := digits.foldl (fun n c => 10 * n + (c.toNat - 48)) 0

/-- The library as it works on ASCII texts, and on floats that are written as a
decimal fraction. -/
def ascii : Python where
  reprOf _ := "[…]"
  isdigit s := s ≠ "" ∧ s.toList.all Char.isDigit
  intOfText s := decimal? (strip s)
  intOfFloat text :=
    match decimal? (String.ofList (text.toList.takeWhile fun c => c ≠ '.')) with
    | some n => .ok n
    | none => .error .valueError
  floatOfInt n := .ok (toString n ++ ".0")
  floatOfText s := if (decimal? (strip s)).isSome then some (strip s ++ ".0") else some (strip s)
  inUnit text := text = "1.0" ∨ "0.".toList.isPrefixOf text.toList
  columnText text := text
  nfkcCasefold s := s.map Char.toLower
  sha256 s := s
  dumps := JsonText.dumps
  loads := JsonText.loads
  isoformat t := "1970-01-01T00:00:" ++ toString t ++ "+00:00"
  fromisoformat _ := some 0
  uuid4 n := String.ofList (List.replicate n '0')
  loads_dumps := JsonText.loads_dumps
  isoformat_written _ := .append_right ⟨'0', by decide, by decide⟩
  uuid4_injective n m h := by
    have h := congrArg (·.toList.length) h
    simpa using h
  uuid4_unspaced n c h := by
    rw [String.toList_ofList] at h
    rw [List.eq_of_mem_replicate h]
    decide

/-- The value of a numeral is its number. -/
theorem decimal?_natText (n : Nat) : decimal? (toString n) = some (n : Int) := by
  have hdigits : ∀ c ∈ Nat.toDigits 10 n, c.isDigit = true :=
    fun c hc => Nat.isDigit_of_mem_toDigits (by decide) (by decide) hc
  have hvalue : decimal?.value (Nat.toDigits 10 n) = n := by
    have h := Nat.ofDigitChars_ten_toDigits (n := n)
    rw [Nat.ofDigitChars_eq_foldl] at h
    exact h
  unfold decimal?
  rw [toList_natText]
  cases hlist : Nat.toDigits 10 n with
  | nil => exact absurd hlist Nat.toDigits_ne_nil
  | cons c cs =>
    rw [hlist] at hdigits hvalue
    have hminus : c ≠ '-' := by
      rintro rfl
      exact absurd (hdigits '-' mem_cons_self) (by decide)
    split
    · rename_i h
      cases h
    · rename_i h
      exact absurd (cons.inj h).1 hminus
    · rw [if_pos (all_eq_true.2 hdigits), hvalue]

theorem ascii_intOfText (s : String) : ascii.intOfText s = decimal? (strip s) := rfl

theorem ascii_intOfText_natText (n : Nat) : ascii.intOfText (toString n) = some (n : Int) := by
  have hstrip : strip (toString n) = toString n := stripped_natText n
  rw [ascii_intOfText, hstrip, decimal?_natText]

theorem bindInt_ok {n m : Int} (h : bindInt n = .ok m) : m = n := by
  unfold bindInt at h
  split at h
  · exact (Except.ok.inj h).symm
  · cases h

end Python

end EchoDesk
