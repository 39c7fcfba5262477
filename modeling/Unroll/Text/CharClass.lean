/-!
# Classes of characters

A class is given by the code points at which membership changes: the characters from the first
bound up to, but not including, the second one belong to it, those from the third up to the fourth,
and so on.
-/

namespace Unroll.Text

/-- A set of characters, as the ascending list of code points at which membership changes. -/
structure CharClass where
  bounds : List Nat

namespace CharClass

/-- Whether membership holds at `code`, given whether it holds below the first bound. -/
def holdsAt (code : Nat) : Bool → List Nat → Bool
  | inside, [] => inside
  | inside, bound :: rest => if code < bound then inside else holdsAt code (!inside) rest

def contains (cls : CharClass) (c : Char) : Bool :=
  holdsAt c.toNat false cls.bounds

end CharClass

end Unroll.Text
