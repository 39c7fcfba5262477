import Unroll.Config
import Unroll.Text.Split
import Unroll.Toml

/-!
# Settings

Settings from several sources are gathered in one tree. Each value remembers its origin, the source
that set it; the initial values, and what is only made to hold others, have none.
-/

namespace Unroll

inductive Scalar where
  | nil
  | bool (value : Bool)
  | int (value : Int)
  | float (value : Double)
  | text (value : String)
  deriving DecidableEq, Repr

inductive Setting where
  | scalar (origin : Option String) (value : Scalar)
  | table (origin : Option String) (entries : List (String × Setting))
  | array (origin : Option String) (items : List Setting)

namespace Setting

def origin : Setting → Option String
  | scalar o _ => o
  | table o _ => o
  | array o _ => o

/-- The entry of a name. -/
def lookup (name : String) (entries : List (String × Setting)) : Option Setting :=
  (entries.find? (·.1 == name)).map (·.2)

/-- The entries of a table; anything else has none. -/
def entries : Setting → List (String × Setting)
  | .table _ es => es
  | _ => []

/-- The items of an array; anything else has none. -/
def items : Setting → List Setting
  | .array _ xs => xs
  | _ => []

/-- A place that nothing was set at. -/
def unset : Setting :=
  .scalar none .nil

def emptyTable : Setting :=
  .table none []

mutual

/-- A value of a document, set by the document. -/
def ofToml (origin : Option String) : Toml → Setting
  | .str s => .scalar origin (.text s)
  | .int n => .scalar origin (.int n)
  | .float d => .scalar origin (.float d)
  | .bool b => .scalar origin (.bool b)
  | .date text => .scalar origin (.text text)
  | .arr items => .array origin (ofItems origin items)
  | .table entries => .table origin (ofEntries origin entries)

def ofItems (origin : Option String) : List Toml → List Setting
  | [] => []
  | v :: rest => ofToml origin v :: ofItems origin rest

def ofEntries (origin : Option String) : List (String × Toml) → List (String × Setting)
  | [] => []
  | (name, v) :: rest => (name, ofToml origin v) :: ofEntries origin rest

end

/-- A configuration as settings without an origin. -/
def ofConfig (c : Config) : List (String × Setting) :=
  let int (n : Nat) := Setting.scalar none (.int n)
  let text (s : String) := Setting.scalar none (.text s)
  [("run", .table none [
      ("n", int c.run.n.toNat),
      ("methods", .array none (c.run.methods.map fun m => text m.name)),
      ("runs", int c.run.runs.toNat)]),
    ("output", .table none [
      ("format", text c.output.format.name),
      ("precision", int c.output.precision.toNat)])]

end Setting

end Unroll
