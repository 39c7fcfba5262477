/-!
# Signed words

The range of the signed integers of sixty-four bits.
-/

namespace Unroll.SignedWord

/-- One more than the largest signed integer of sixty-four bits. -/
def bound : Nat := 0x8000000000000000

/-- Whether an integer has sixty-four bits with its sign. -/
def contains (n : Int) : Bool :=
  -(bound : Int) ≤ n && n < bound

end Unroll.SignedWord
