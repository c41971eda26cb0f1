import Mathlib
import Autolean.Text.JsonValues

/-! JSON values as the event store writes and reads them. Canonical encoding is
injective up to the order of object keys, so a stored text is represented by the value
it decodes to. -/
namespace Autolean.Contracts

/-- A Python float. Only finite ones have a JSON encoding. -/
inductive PyFloat where
  | finite (q : ℚ)
  | inf
  | negInf
  | nan
  deriving DecidableEq

abbrev Json := Text.JsonTree String PyFloat

/-- A Python `dict` with text keys, in the order the code writes them. -/
abbrev JsonObject := List (String × Json)

namespace Json

mutual
/-- `json.dumps(..., allow_nan=False)` succeeds. -/
def encodable : Json → Bool
  | .float (.finite _) => true
  | .float _ => false
  | .list xs => encodableList xs
  | .dict fields => encodableFields fields
  | _ => true

def encodableList : List Json → Bool
  | [] => true
  | x :: xs => encodable x && encodableList xs

def encodableFields : List (String × Json) → Bool
  | [] => true
  | (_, x) :: fields => encodable x && encodableFields fields
end

end Json

namespace JsonObject

/-- `payload.get(key)`. -/
def get (o : JsonObject) (key : String) : Option Json := List.lookup key o

/-- `isinstance(value, str) and value`, the text under a key when it is a nonempty string. -/
def text (o : JsonObject) (key : String) : Option String :=
  match o.get key with
  | some (.str s) => if s = "" then none else some s
  | _ => none

/-- The integer under a key; a Python `bool` is not taken for one. -/
def int (o : JsonObject) (key : String) : Option Int :=
  match o.get key with
  | some (.int n) => some n
  | _ => none

/-- The object under a key. -/
def obj (o : JsonObject) (key : String) : Option JsonObject :=
  match o.get key with
  | some (.dict fields) => some fields
  | _ => none

/-- The list under a key. -/
def list (o : JsonObject) (key : String) : Option (List Json) :=
  match o.get key with
  | some (.list xs) => some xs
  | _ => none

end JsonObject

end Autolean.Contracts
