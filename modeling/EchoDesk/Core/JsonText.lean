import EchoDesk.Core.Json

/-! # A text for every JSON value

`write` gives each value a text, and `read` gives the value back from it. No
proof about the backend looks at the form of such a text: where a column holds
`json.dumps(value)`, only that `json.loads` reads the value back matters.
-/

namespace EchoDesk

open List Option

namespace JsonText

/-! ## Writing -/

def writeChars : List Char → List Char
  | [] => ['e']
  | c :: cs => 'c' :: c :: writeChars cs

def writeString (s : String) : List Char := writeChars s.toList

def writeInt : Int → List Char
  | .ofNat n => 'p' :: writeChars (Nat.toDigits 10 n)
  | .negSucc n => 'm' :: writeChars (Nat.toDigits 10 n)

mutual

def write : Json → List Char
  | .null => ['n']
  | .bool true => ['t']
  | .bool false => ['f']
  | .int n => 'i' :: writeInt n
  | .float text => 'r' :: writeString text
  | .str s => 's' :: writeString s
  | .arr xs => 'a' :: writeList xs
  | .obj fields => 'o' :: writeFields fields

def writeList : List Json → List Char
  | [] => ['e']
  | x :: xs => 'c' :: (write x ++ writeList xs)

def writeFields : List (String × Json) → List Char
  | [] => ['e']
  | (k, v) :: fields => 'c' :: (writeString k ++ (write v ++ writeFields fields))

end

/-! ## Reading -/

/-- Read a value of type `α` from the front of a text. -/
abbrev Reader (α : Type) : Type := List Char → Option (α × List Char)

def readChars : Reader (List Char)
  | 'e' :: rest => some ([], rest)
  | 'c' :: c :: rest => (readChars rest).map fun out => (c :: out.1, out.2)
  | _ => none

def readString : Reader String := fun cs =>
  (readChars cs).map fun out => (String.ofList out.1, out.2)

def readInt : Reader Int
  | 'p' :: rest => (readChars rest).map fun out => (.ofNat (Nat.ofDigitChars 10 out.1 0), out.2)
  | 'm' :: rest => (readChars rest).map fun out => (.negSucc (Nat.ofDigitChars 10 out.1 0), out.2)
  | _ => none

mutual

/-- The number bounds how deep and how far the reader goes. -/
def read : Nat → Reader Json
  | 0, _ => none
  | _ + 1, 'n' :: rest => some (.null, rest)
  | _ + 1, 't' :: rest => some (.bool true, rest)
  | _ + 1, 'f' :: rest => some (.bool false, rest)
  | _ + 1, 'i' :: rest => (readInt rest).map fun out => (.int out.1, out.2)
  | _ + 1, 'r' :: rest => (readString rest).map fun out => (.float out.1, out.2)
  | _ + 1, 's' :: rest => (readString rest).map fun out => (.str out.1, out.2)
  | fuel + 1, 'a' :: rest => (readList fuel rest).map fun out => (.arr out.1, out.2)
  | fuel + 1, 'o' :: rest => (readFields fuel rest).map fun out => (.obj out.1, out.2)
  | _ + 1, _ => none

def readList : Nat → Reader (List Json)
  | 0, _ => none
  | _ + 1, 'e' :: rest => some ([], rest)
  | fuel + 1, 'c' :: rest => do
    let (x, rest) ← read fuel rest
    let (xs, rest) ← readList fuel rest
    return (x :: xs, rest)
  | _ + 1, _ => none

def readFields : Nat → Reader (List (String × Json))
  | 0, _ => none
  | _ + 1, 'e' :: rest => some ([], rest)
  | fuel + 1, 'c' :: rest => do
    let (k, rest) ← readString rest
    let (v, rest) ← read fuel rest
    let (fields, rest) ← readFields fuel rest
    return ((k, v) :: fields, rest)
  | _ + 1, _ => none

end

/-! ## Reading what was written -/

theorem readChars_write (cs rest : List Char) :
    readChars (writeChars cs ++ rest) = some (cs, rest) := by
  induction cs with
  | nil => rfl
  | cons c cs ih =>
    rw [writeChars, cons_append, cons_append, readChars, ih]
    rfl

theorem readString_write (s : String) (rest : List Char) :
    readString (writeString s ++ rest) = some (s, rest) := by
  rw [readString, writeString, readChars_write, map_some, String.ofList_toList]

theorem readInt_write (n : Int) (rest : List Char) :
    readInt (writeInt n ++ rest) = some (n, rest) := by
  cases n <;> rw [writeInt, cons_append, readInt, readChars_write, map_some,
      Nat.ofDigitChars_ten_toDigits]

mutual

theorem read_write : ∀ (j : Json) (fuel : Nat) (rest : List Char), (write j).length ≤ fuel →
    read fuel (write j ++ rest) = some (j, rest)
  | .null, fuel + 1, rest, _ => rfl
  | .bool true, fuel + 1, rest, _ => rfl
  | .bool false, fuel + 1, rest, _ => rfl
  | .int n, fuel + 1, rest, _ => by
    rw [write, cons_append, read, readInt_write]
    rfl
  | .float text, fuel + 1, rest, _ => by
    rw [write, cons_append, read, readString_write]
    rfl
  | .str s, fuel + 1, rest, _ => by
    rw [write, cons_append, read, readString_write]
    rfl
  | .arr xs, fuel + 1, rest, h => by
    rw [write, length_cons] at h
    rw [write, cons_append, read, readList_write xs fuel rest (by omega)]
    rfl
  | .obj fields, fuel + 1, rest, h => by
    rw [write, length_cons] at h
    rw [write, cons_append, read, readFields_write fields fuel rest (by omega)]
    rfl
  | .null, 0, _, h | .bool true, 0, _, h | .bool false, 0, _, h | .int _, 0, _, h
  | .float _, 0, _, h | .str _, 0, _, h | .arr _, 0, _, h | .obj _, 0, _, h => by
    simp [write] at h

theorem readList_write : ∀ (xs : List Json) (fuel : Nat) (rest : List Char),
    (writeList xs).length ≤ fuel → readList fuel (writeList xs ++ rest) = some (xs, rest)
  | [], fuel + 1, rest, _ => rfl
  | x :: xs, fuel + 1, rest, h => by
    rw [writeList, length_cons, length_append] at h
    rw [writeList, cons_append, append_assoc, readList, read_write x fuel _ (by omega)]
    simp [readList_write xs fuel rest (by omega)]
  | [], 0, _, h | _ :: _, 0, _, h => by simp [writeList] at h

theorem readFields_write : ∀ (fields : List (String × Json)) (fuel : Nat) (rest : List Char),
    (writeFields fields).length ≤ fuel →
      readFields fuel (writeFields fields ++ rest) = some (fields, rest)
  | [], fuel + 1, rest, _ => rfl
  | (k, v) :: fields, fuel + 1, rest, h => by
    rw [writeFields, length_cons, length_append, length_append] at h
    rw [writeFields, cons_append, append_assoc, append_assoc, readFields, readString_write]
    simp [read_write v fuel _ (by omega), readFields_write fields fuel rest (by omega)]
  | [], 0, _, h | _ :: _, 0, _, h => by simp [writeFields] at h

end

/-! ## Dictionaries -/

def dumps (d : Dict) : String := String.ofList (write (.obj d))

/-- The dictionary a text stands for. -/
def loads (s : String) : Option Dict :=
  match read s.toList.length s.toList with
  | some (.obj d, []) => some d
  | _ => none

theorem loads_dumps (d : Dict) : loads (dumps d) = some d := by
  have h := read_write (.obj d) (write (.obj d)).length [] (Nat.le_refl _)
  rw [append_nil] at h
  rw [loads, dumps, String.toList_ofList, h]

end JsonText

end EchoDesk
