import Unroll.Json
import Unroll.Text.Quoted

/-!
# Decoding JSON values

Readers of typed values out of JSON, with the reason of a refusal. A field that an object does not
have takes a given value, and names that are not asked for do not matter.
-/

namespace Unroll.Json

/-- Why a JSON value is not a value of the expected type. -/
inductive Mismatch where
  /-- The value is of another kind. -/
  | kind (found : Json) (expected : String)
  /-- The value is of the right kind, but cannot be accepted. -/
  | value (found : Json) (expected : String)
  /-- The name is none of the expected ones. -/
  | variant (name : String) (expected : List String)
  /-- An array has more items than there are fields. -/
  | length (items : Nat)

/-- A value in a message. -/
def describe : Json → String
  | .null => "null"
  | .bool b => "boolean `" ++ (if b then "true" else "false") ++ "`"
  | .int n => "integer `" ++ String.ofList (intChars n) ++ "`"
  | .float d => "floating point `" ++ String.ofList (floatChars d) ++ "`"
  | .str s => "string " ++ Text.quote s
  | .arr _ => "sequence"
  | .obj _ => "map"

def Mismatch.message : Mismatch → String
  | .kind found expected => "invalid type: " ++ found.describe ++ ", expected " ++ expected
  | .value found expected => "invalid value: " ++ found.describe ++ ", expected " ++ expected
  | .variant name expected =>
    "unknown variant `" ++ name ++ "`, expected " ++
      " or ".intercalate (expected.map fun e => "`" ++ e ++ "`")
  | .length items =>
    "invalid length " ++ toString items ++ ", expected fewer elements in array"

/-- A natural number below `bound`. -/
def decodeNat (expected : String) (bound : Nat) : Json → Except Mismatch Nat
  | .int n => if 0 ≤ n && n < bound then .ok n.toNat else .error (.value (.int n) expected)
  | v => .error (.kind v expected)

def decodeList {α : Type} (decode : Json → Except Mismatch α) : Json → Except Mismatch (List α)
  | .arr items => items.mapM decode
  | v => .error (.kind v "a sequence")

/-- The names of the members of an object, each once. -/
def memberNames (members : List (String × Json)) : List String :=
  (members.map (·.1)).eraseDups

/-- One of several named values: its name, or an object with its name as the only member and nothing
in it. -/
def decodeName {α : Type} (values : List α) (nameOf : α → String) (v : Json) :
    Except Mismatch α :=
  let find (name : String) : Except Mismatch α :=
    match values.find? (nameOf · == name) with
    | some a => .ok a
    | none => .error (.variant name (values.map nameOf))
  match v with
  | .str name => find name
  | .obj members =>
    match memberNames members with
    | [name] => do
      let a ← find name
      match v.get? name with
      | some .null => return a
      | some payload => .error (.kind payload "unit")
      | none => return a
    | _ => .error (.value v "map with a single key")
  | v => .error (.kind v "string or map")

/-- The member of an object with the given name, or a given value if it has none. -/
def field {α : Type} (v : Json) (name : String) (initial : α)
    (decode : Json → Except Mismatch α) : Except Mismatch α :=
  match v.get? name with
  | some member => decode member
  | none => .ok initial

/-- The item of an array at the given position, or a given value if the array is too short. -/
def item {α : Type} (items : List Json) (position : Nat) (initial : α)
    (decode : Json → Except Mismatch α) : Except Mismatch α :=
  match items[position]? with
  | some found => decode found
  | none => .ok initial

/-- Refuses an array that has more items than there are fields. -/
def checkLength (items : List Json) (fields : Nat) : Except Mismatch Unit :=
  if items.length ≤ fields then .ok () else .error (.length items.length)

end Unroll.Json
