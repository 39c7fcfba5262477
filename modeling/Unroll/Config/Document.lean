import Unroll.Config
import Unroll.SignedWord

/-!
# Configurations as TOML

`Config.toToml` writes a configuration as a TOML document of two tables. Integers of a document are
signed, so a configuration with a larger number has no written form.
-/

namespace Unroll

/-- A number does not fit the signed integers of a document. -/
inductive Unwritable where
  | outOfRange
  deriving DecidableEq, Repr

namespace Unwritable

/-- The cause alone. -/
def cause : Unwritable → String
  | outOfRange => "out-of-range value for u64 type"

def message (e : Unwritable) : String :=
  "Failed to render configuration: " ++ e.cause

end Unwritable

/-- The digits of a number, if it is an integer of a document. -/
def tomlInteger (n : UInt64) : Except Unwritable String :=
  if n.toNat < SignedWord.bound then .ok (toString n.toNat) else .error .outOfRange

/-- A list of names: on one line if there is at most one, else each on a line of its own. -/
def tomlNames : List String → String
  | [] => "[]"
  | [name] => "[\"" ++ name ++ "\"]"
  | names => "[\n" ++ String.join (names.map fun name => "    \"" ++ name ++ "\",\n") ++ "]"

/-- The TOML document of a configuration. -/
def Config.toToml (c : Config) : Except Unwritable String := do
  let n ← tomlInteger c.run.n
  let precision ← tomlInteger c.output.precision
  return "[run]\nn = " ++ n ++
    "\nmethods = " ++ tomlNames (c.run.methods.map Method.name) ++
    "\nruns = " ++ toString c.run.runs.toNat ++
    "\n\n[output]\nformat = \"" ++ c.output.format.name ++
    "\"\nprecision = " ++ precision ++ "\n"

end Unroll
