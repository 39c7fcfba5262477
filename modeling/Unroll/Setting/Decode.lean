import Unroll.Double.Shortest
import Unroll.Setting
import Unroll.Text.Case
import Unroll.Text.Integer
import Unroll.Text.Quoted

/-!
# Configurations out of settings

`Config.ofSetting` reads a configuration out of a tree of settings. A section is a table of its
fields or an array of them in order; a section or field that is missing has its initial value, and
what is not asked for does not matter.

Numbers are read generously: a truth value counts as one or zero, a number with a fraction is
rounded, and a text may spell either. Names are compared without regard to case.
-/

namespace Unroll

namespace Setting

/-- Why a setting is not a value of the expected type. -/
inductive Fault where
  /-- A number that has to be natural is negative. -/
  | negative (value : Int) (key : String) (origin : Option String)
  /-- A setting does not spell a number. -/
  | notInteger (found : Setting) (key : String)
  /-- A number does not fit thirty-two bits. -/
  | tooLarge (value : Nat) (key : String)
  /-- A setting is neither of the kind expected nor can it be taken for one. -/
  | shape (found : Setting) (expected : String)
  /-- A name is none of the names of its type. -/
  | unknownName (type name : String)
  /-- A setting cannot be a name. -/
  | notName (type : String)

/-- A setting in a message about its shape. -/
def describe : Setting → String
  | .scalar _ .nil => "unit value"
  | .scalar _ (.bool b) => "boolean `" ++ (if b then "true" else "false") ++ "`"
  | .scalar _ (.int n) => "integer `" ++ toString n ++ "`"
  | .scalar _ (.float d) => "floating point `" ++ d.plain ++ "`"
  | .scalar _ (.text s) => "string " ++ Text.quote s
  | .table _ _ => "map"
  | .array _ _ => "sequence"

namespace Fault

/-- Whether the fault is about a number, and so tells the place of it. -/
def isNumeric : Fault → Bool
  | negative .. | notInteger .. | tooLarge .. => true
  | shape .. | unknownName .. | notName .. => false

def atPlace (key : String) (origin : Option String) : String :=
  " for key `" ++ key ++ "`" ++
    match origin with
    | some source => " in " ++ source
    | none => ""

def message : Fault → String
  | negative value key origin =>
    "invalid type: 64-bit integer `" ++ toString value ++
      "`, expected an unsigned 64 bit or less integer" ++ atPlace key origin
  | notInteger found key =>
    "invalid type: " ++ found.describe ++ ", expected an integer" ++ atPlace key found.origin
  | tooLarge value key =>
    "invalid type: 64-bit unsigned integer `" ++ toString value ++
      "`, expected an unsigned 32 bit integer" ++ atPlace key none
  | shape found expected => "invalid type: " ++ found.describe ++ ", expected " ++ expected
  | unknownName type name =>
    "enum " ++ type ++ " does not have variant constructor " ++ name
  | notName type =>
    "value of enum " ++ type ++
      " should be represented by either string or table with exactly one key"

end Fault

/-! ## Numbers and names -/

/-- The number that a text spells: a word for true or false, or digits. -/
def wordOfText? (s : String) : Option UInt64 :=
  match Text.lower s with
  | "true" | "on" | "yes" => some 1
  | "false" | "off" | "no" => some 0
  | _ => (Text.parseNat (UInt64.size - 1) s).toOption.map UInt64.ofNat

/-- A number of sixty-four bits. -/
def toWord (key : String) (v : Setting) : Except Fault UInt64 :=
  match v with
  | .scalar origin (.int n) =>
    if 0 ≤ n then .ok (UInt64.ofNat n.toNat) else .error (.negative n key origin)
  | .scalar _ (.bool b) => .ok (if b then 1 else 0)
  | .scalar _ (.float d) => .ok d.toWord
  | .scalar _ (.text s) =>
    match wordOfText? s with
    | some n => .ok n
    | none => .error (.notInteger v key)
  | .scalar _ .nil | .table _ _ | .array _ _ => .error (.notInteger v key)

/-- A number of thirty-two bits. -/
def toHalfWord (key : String) (v : Setting) : Except Fault UInt32 := do
  let n ← v.toWord key
  if n.toNat < UInt32.size then return UInt32.ofNat n.toNat else .error (.tooLarge n.toNat key)

/-- One of several named values: its name, or a table whose only entry has its name. -/
def toNamed {α : Type} (type : String) (values : List α) (nameOf : α → String) (v : Setting) :
    Except Fault α :=
  let find (name : String) : Except Fault α :=
    match values.find? fun a => Text.lower (nameOf a) == Text.lower name with
    | some a => .ok a
    | none => .error (.unknownName type name)
  match v with
  | .scalar _ (.text name) => find name
  | .table _ [(name, _)] => find name
  | _ => .error (.notName type)

def toMethod (v : Setting) : Except Fault Method :=
  v.toNamed "Method" Method.all Method.name

def toMethods (v : Setting) : Except Fault (List Method) :=
  match v with
  | .array _ items => items.mapM toMethod
  | _ => .error (.shape v "a sequence")

def toFormat (v : Setting) : Except Fault OutputFormat :=
  v.toNamed "OutputFormat" OutputFormat.all OutputFormat.name

/-! ## Sections -/

/-- A field of a section, found by its name in a table and by its position in an array. The reader
is given the key of the field. A field that is missing has its initial value. -/
def field {α : Type} (v : Setting) (parent name : String) (position : Nat) (initial : α)
    (decode : String → Setting → Except Fault α) : Except Fault α :=
  match v with
  | .table _ entries =>
    match lookup name entries with
    | some found => decode (parent ++ "." ++ name) found
    | none => .ok initial
  | .array _ items =>
    match items[position]? with
    | some found => decode (parent ++ "[" ++ toString position ++ "]") found
    | none => .ok initial
  | .scalar _ _ => .ok initial

/-- Refuses what is neither a table nor an array. -/
def checkSection (expected : String) (v : Setting) : Except Fault Unit :=
  match v with
  | .scalar _ _ => .error (.shape v expected)
  | .table _ _ | .array _ _ => .ok ()

end Setting

open Setting (Fault)

def RunConfig.ofSetting (v : Setting) : Except Fault RunConfig := do
  v.checkSection "struct RunConfig"
  let n ← v.field "run" "n" 0 initial.n Setting.toWord
  let methods ← v.field "run" "methods" 1 initial.methods fun _ => Setting.toMethods
  let runs ← v.field "run" "runs" 2 initial.runs Setting.toHalfWord
  return { n, methods, runs }

def OutputConfig.ofSetting (v : Setting) : Except Fault OutputConfig := do
  v.checkSection "struct OutputConfig"
  let format ← v.field "output" "format" 0 initial.format fun _ => Setting.toFormat
  let precision ← v.field "output" "precision" 1 initial.precision Setting.toWord
  return { format, precision }

/-- The configuration that the sections at the root of a tree make up. -/
def Config.ofSetting (v : Setting) : Except Fault Config := do
  let sectionOf {α : Type} (name : String) (initial : α)
      (decode : Setting → Except Fault α) : Except Fault α :=
    match Setting.lookup name v.entries with
    | some found => decode found
    | none => .ok initial
  let run ← sectionOf "run" RunConfig.initial RunConfig.ofSetting
  let output ← sectionOf "output" OutputConfig.initial OutputConfig.ofSetting
  return { run, output }

end Unroll
