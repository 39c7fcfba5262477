import Unroll.Double

/-!
# Decimals with a fixed number of places

The exact value of a double-precision number rounded to a given number of decimal places, a tie to
the even digit.
-/

namespace Unroll.Double

/-- The digits of `value` · 10 ^ -`places`, with a point unless there are no places. -/
def placed (value places : Nat) : List Char :=
  let digits := Nat.toDigits 10 value
  let digits := List.replicate (places + 1 - digits.length) '0' ++ digits
  let whole := digits.length - places
  if places = 0 then digits else digits.take whole ++ '.' :: digits.drop whole

/-- `mantissa` · 2 ^ `exponent` with the given number of places. A negative exponent is the number
of places of the exact value, so that zeros fill the places beyond it. -/
def fixedChars (places mantissa : Nat) (exponent : Int) : List Char :=
  if 0 ≤ exponent then
    let whole := Nat.toDigits 10 (mantissa * Nat.pow 2 exponent.natAbs)
    if places = 0 then whole else whole ++ '.' :: List.replicate places '0'
  else
    let exact := min places exponent.natAbs
    let rounded := roundDiv .toEven (mantissa * Nat.pow 10 exact) (Nat.pow 2 exponent.natAbs)
    placed rounded exact ++ List.replicate (places - exact) '0'

/-- A number with the given number of decimal places. -/
def fixed (places : Nat) : Double → String
  | .finite negative mantissa exponent =>
    String.ofList ((if negative then ['-'] else []) ++ fixedChars places mantissa exponent)
  | .infinite negative => if negative then "-inf" else "inf"
  | .nan => "NaN"

end Unroll.Double
