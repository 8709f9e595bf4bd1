import Mathlib.Algebra.GroupWithZero.Nat
import Mathlib.Algebra.Group.Int.Defs
import Mathlib.Data.List.Basic

/-! # Values, scopes and principals

The data every subsystem of the backend passes around: JSON values and string
keyed dictionaries, the tenant and owner a row belongs to, and the principal a
call runs for.
-/

namespace EchoDesk

/-- An instant. Clock readings are only compared and moved forward. -/
abbrev Timestamp : Type := Nat

/-- A JSON value. Numbers that are not integers are kept as their text. -/
inductive Json where
  | null
  | bool (b : Bool)
  | int (n : Int)
  | float (text : String)
  | str (s : String)
  | arr (xs : List Json)
  | obj (fields : List (String × Json))
deriving Inhabited

/-- A `dict[str, Any]`, in insertion order. -/
abbrev Dict : Type := List (String × Json)

namespace Dict

/-- `d.get(key)`. -/
def get? (d : Dict) (key : String) : Option Json := d.lookup key

/-- `d[key] = value`: an existing key keeps its place. -/
def set : Dict → String → Json → Dict
  | [], key, value => [(key, value)]
  | (k, v) :: rest, key, value =>
    if k = key then (key, value) :: rest else (k, v) :: set rest key value

/-- `{**d, **patch}`. -/
def merge (d patch : Dict) : Dict := patch.foldl (fun d entry => d.set entry.1 entry.2) d

/-- `d.pop(key, None)`, for the dictionary it leaves. -/
def pop (d : Dict) (key : String) : Dict := d.filter fun entry => entry.1 ≠ key

end Dict

/-- A Python value used as a condition: `None` and the empty string are false. -/
def truthy (value : Option String) : Option String := value.filter fun s => s ≠ ""

/-- The tenant and the owner a row belongs to. -/
structure Scope where
  tenantId : String
  ownerId : String
deriving DecidableEq

/-- The server-verified principal of a call, as far as the stores use it. -/
structure Principal where
  tenantId : String
  deviceId : String
  ownerId : String
deriving DecidableEq

/-- `(principal.tenant_id, principal.owner_id)`. -/
def Principal.scope (principal : Principal) : Scope := ⟨principal.tenantId, principal.ownerId⟩

/-- An event for the bus, before it is numbered there (`EchoEvent`). -/
structure EchoEvent where
  type : String
  ts : Timestamp
  meetingId : Option String
  payload : Dict

end EchoDesk
