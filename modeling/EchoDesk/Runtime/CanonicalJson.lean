import EchoDesk.Core.JsonNumber
import EchoDesk.Core.KeyOrder

/-! # Canonical JSON in two languages

`canonicalJson` of `agent-kernel/core/checkpoint.ts` and `_canonical_json` of
`app/runtime/session_checkpoint_persistence.py`: both write a value with its keys sorted and
without spaces. A value of JavaScript goes over as text; Python has it as `json`.
-/

namespace EchoDesk

open JsonSyntax SortedEntries KeyOrder

/-- A JSON value of JavaScript; an object is the list of its entries. -/
inductive JsValue where
  | null
  | bool (b : Bool)
  | num (n : JsNumber)
  | str (s : String)
  | arr (items : List JsValue)
  | obj (fields : List (String × JsValue))

/-! ## The kernel -/

namespace JsValue

section

variable (numeral : JsNumber → Tree)

mutual

/-- A value with its keys as they stand. -/
def treeWith : JsValue → Tree
  | .null => .null
  | .bool b => .bool b
  | .num n => numeral n
  | .str s => .str s
  | .arr items => .arr (treeItems items)
  | .obj fields => .obj (treeFields fields)

def treeItems : List JsValue → List Tree
  | [] => []
  | item :: items => treeWith item :: treeItems items

def treeFields : List (String × JsValue) → List (String × Tree)
  | [] => []
  | (key, value) :: fields => (key, treeWith value) :: treeFields fields

end

end

/-- What `JSON.stringify` writes. -/
def tree (value : JsValue) : Tree := value.treeWith JsNumber.tree

def stringify (value : JsValue) : String := value.tree.text

mutual

/-- A value with its keys in the order of `Array.prototype.sort`. -/
def canonical : JsValue → Tree
  | .null => .null
  | .bool b => .bool b
  | .num n => n.tree
  | .str s => .str s
  | .arr items => .arr (canonicalItems items)
  | .obj fields => .obj (canonicalFields fields)

def canonicalItems : List JsValue → List Tree
  | [] => []
  | item :: items => item.canonical :: canonicalItems items

def canonicalFields : List (String × JsValue) → List (String × Tree)
  | [] => []
  | (key, value) :: fields =>
    (canonicalFields fields).orderedInsert (byKey unitsLe) (key, value.canonical)

end

/-- `canonicalJson` of the kernel. -/
def canonicalJson (value : JsValue) : String := value.canonical.text

/-! ## Reading -/

/-- A later entry replaces the value of an earlier one. -/
def assign (entries : List (String × JsValue)) (entry : String × JsValue) :
    List (String × JsValue) :=
  if entry.1 ∈ entries.map Prod.fst then
    entries.map fun other => if other.1 = entry.1 then entry else other
  else entries ++ [entry]

section

variable (number : String → Option JsNumber)

mutual

/-- `JSON.parse`, by the number of a numeral (`none` when it is infinite). -/
def parse : Tree → Option JsValue
  | .null => some .null
  | .bool b => some (.bool b)
  | .int n _ => (number (String.ofList (writeInt n))).map .num
  | .float literal => (number literal).map .num
  | .constant _ => none
  | .str s => some (.str s)
  | .arr items => (parseItems items).map .arr
  | .obj fields => (parseFields fields).map fun entries => .obj (entries.foldl assign [])

def parseItems : List Tree → Option (List JsValue)
  | [] => some []
  | item :: items => do
    let item ← parse item
    let items ← parseItems items
    return item :: items

def parseFields : List (String × Tree) → Option (List (String × JsValue))
  | [] => some []
  | (key, item) :: fields => do
    let item ← parse item
    let fields ← parseFields fields
    return (key, item) :: fields

end

end

/-! ## What the host makes of a value -/

mutual

/-- The value as Python reads it. -/
def json : JsValue → Json
  | .null => .null
  | .bool b => .bool b
  | .num n => n.json
  | .str s => .str s
  | .arr items => .arr (jsonItems items)
  | .obj fields => .obj (jsonFields fields)

def jsonItems : List JsValue → List Json
  | [] => []
  | item :: items => item.json :: jsonItems items

def jsonFields : List (String × JsValue) → List (String × Json)
  | [] => []
  | (key, value) :: fields => (key, value.json) :: jsonFields fields

end

mutual

/-- The value with its keys in the order of Python. -/
def sorted : JsValue → JsValue
  | .arr items => .arr (sortedItems items)
  | .obj fields => .obj (sortedFields fields)
  | value => value

def sortedItems : List JsValue → List JsValue
  | [] => []
  | item :: items => item.sorted :: sortedItems items

def sortedFields : List (String × JsValue) → List (String × JsValue)
  | [] => []
  | (key, value) :: fields =>
    (sortedFields fields).orderedInsert (byKey pointsLe) (key, value.sorted)

end

mutual

/-- Every number and every list of keys of a value has a property. -/
def Each (atom : JsNumber → Prop) (keys : List String → Prop) : JsValue → Prop
  | .num n => atom n
  | .arr items => EachItem atom keys items
  | .obj fields => keys (fields.map Prod.fst) ∧ EachField atom keys fields
  | _ => True

def EachItem (atom : JsNumber → Prop) (keys : List String → Prop) : List JsValue → Prop
  | [] => True
  | item :: items => item.Each atom keys ∧ EachItem atom keys items

def EachField (atom : JsNumber → Prop) (keys : List String → Prop) : List (String × JsValue) → Prop
  | [] => True
  | (_, value) :: fields => value.Each atom keys ∧ EachField atom keys fields

end

/-- No object has a key twice. -/
def Distinct : JsValue → Prop := Each (fun _ => True) List.Nodup

/-- A number that the numeral readers of both languages take as it was written. -/
def NumberReadsBack (floats : Floats) (number : String → Option JsNumber) : JsNumber → Prop
  | .zero => number "0" = some .zero
  | .decimal d =>
    floats.nearest (String.ofList d.toJs) = String.ofList d.repr ∧
      floats.nearest (String.ofList d.repr) = String.ofList d.repr ∧
      number (String.ofList d.toJs) = some (.decimal d) ∧
      number (String.ofList d.repr) = some (.decimal d)

instance (floats : Floats) (number : String → Option JsNumber) :
    (n : JsNumber) → Decidable (NumberReadsBack floats number n)
  | .zero => inferInstanceAs (Decidable (_ = _))
  | .decimal _ => inferInstanceAs (Decidable (_ ∧ _))

/-- The shortest digits of every number are read back as this number, in both languages. -/
def ReadsBack (floats : Floats) (number : String → Option JsNumber) : JsValue → Prop :=
  Each (NumberReadsBack floats number) fun _ => True

/-- No number is written in two ways, and no two keys of an object are sorted in two ways. -/
def Portable : JsValue → Prop :=
  Each (fun n => ¬ n.Small) fun keys => ∀ a ∈ keys, ∀ b ∈ keys, ¬ Crossed a b

end JsValue

/-! ## The host -/

namespace Json

mutual

/-- What `json.dumps` writes. -/
def tree : Json → Tree
  | .null => .null
  | .bool b => .bool b
  | .int n => .int n (Nat.toDigits 10 n.natAbs).length
  | .float text => .float text
  | .str s => .str s
  | .arr items => .arr (treeItems items)
  | .obj fields => .obj (treeFields fields)

def treeItems : List Json → List Tree
  | [] => []
  | item :: items => item.tree :: treeItems items

def treeFields : List (String × Json) → List (String × Tree)
  | [] => []
  | (key, value) :: fields => (key, value.tree) :: treeFields fields

end

/-- `_canonical_json` of the host. -/
def canonicalJson (value : Json) : String := value.sortKeys.tree.text

end Json

end EchoDesk
