import Unroll.Double.Parse
import Unroll.Setting
import Unroll.Text.Case
import Unroll.Text.Integer

/-!
# Settings in the environment

A variable whose name starts with `FIBSTACK_`, in any case, is a setting. Two underscores in the
rest of the name separate the steps of its key, as in `FIBSTACK_RUN__N`. The value is a truth value,
an integer, a number or a text, whichever it can be read as first; the list of methods is separated
by commas.
-/

namespace Unroll.Setting

/-- What the name of a setting starts with, in lower case. -/
def variableStart : List Char :=
  "fibstack_".toList

/-- The origin of the settings in the environment. -/
def environmentOrigin : Option String :=
  some "the environment"

/-- Puts a point for every two underscores. -/
def pointed : List Char → List Char
  | '_' :: '_' :: rest => '.' :: pointed rest
  | c :: rest => c :: pointed rest
  | [] => []

/-- The key of a variable, if it is a setting. -/
def variableKey? (name : String) : Option String :=
  let name := (Text.lower name).toList
  if variableStart.isPrefixOf name then
    some (String.ofList (pointed (name.drop variableStart.length)))
  else
    none

/-- The value of a variable that is neither a truth value nor a number. -/
def ofPlainText (key text : String) : Setting :=
  if key = "run.methods" then
    .array environmentOrigin <|
      (Text.split ',' text).map fun s => .scalar environmentOrigin (.text s)
  else
    .scalar environmentOrigin (.text text)

/-- The value of a variable with the given key. -/
def ofVariable (key text : String) : Setting :=
  match Text.lower text with
  | "true" => .scalar environmentOrigin (.bool true)
  | "false" => .scalar environmentOrigin (.bool false)
  | _ =>
    match Text.parseInt64 text, Double.parse? text with
    | .ok n, _ => .scalar environmentOrigin (.int n)
    | .error _, some d => .scalar environmentOrigin (.float d)
    | .error _, none => ofPlainText key text

/-- The settings among the variables. -/
def ofVariables (environment : List (String × String)) : List (String × Setting) :=
  environment.filterMap fun (name, text) =>
    (variableKey? name).map fun key => (key, ofVariable key text)

end Unroll.Setting
