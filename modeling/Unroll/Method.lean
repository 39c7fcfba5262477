import Unroll.Fibonacci.Recursive
import Unroll.Fibonacci.Unrolled
import Unroll.Text.Blank
import Unroll.Text.Case

/-!
# Methods of computing a Fibonacci number

The two ways of computing a Fibonacci number and the names by which a user selects one. A name may
be padded with blanks and written in any ASCII case.
-/

namespace Unroll

/-- A way of computing a Fibonacci number. -/
inductive Method where
  /-- Direct recursion. -/
  | naive
  /-- The recursion unrolled onto an explicit stack. -/
  | stack
  deriving DecidableEq, Repr

/-- The text that was given does not name a method. -/
structure UnknownMethod where
  text : String
  deriving DecidableEq, Repr

def UnknownMethod.message (e : UnknownMethod) : String :=
  "Unknown method '" ++ e.text ++ "' (expected 'naive' or 'stack')"

namespace Method

/-- Every method, in the order in which they are reported. -/
def all : List Method := [naive, stack]

def compute : Method → UInt64 → Checked UInt64
  | naive => fibRecursive
  | stack => fibUnrolled

/-- The canonical name. -/
def name : Method → String
  | naive => "naive"
  | stack => "stack"

/-- The function shown next to a result, as in `fib_stack(30) = 832040`. -/
def label : Method → String
  | naive => "fib"
  | stack => "fib_stack"

/-- The method with the given name, in lower case and without padding. -/
def ofName? : String → Option Method
  | "naive" | "recursive" => some naive
  | "stack" | "iterative" => some stack
  | _ => none

/-- Reads a method from a name that may be padded and in any ASCII case. -/
def parse (s : String) : Except UnknownMethod Method :=
  match ofName? (Text.asciiLower (Text.trim s)) with
  | some m => .ok m
  | none => .error ⟨s⟩

end Method

end Unroll
