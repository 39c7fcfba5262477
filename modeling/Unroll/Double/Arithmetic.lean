import Unroll.Double

/-!
# Arithmetic on double-precision numbers

Sums and quotients, rounded once from the exact result, a tie to the even mantissa.
-/

namespace Unroll.Double

/-- The number nearest to ± `magnitude` · 2 ^ `exponent`, divided by `divisor`. -/
def ofScaled (negative : Bool) (magnitude : Nat) (exponent : Int) (divisor : Nat) : Double :=
  if 0 ≤ exponent then ofRatio negative (magnitude * Nat.pow 2 exponent.natAbs) divisor
  else ofRatio negative magnitude (divisor * Nat.pow 2 exponent.natAbs)

/-- ± `mantissa` · 2 ^ `exponent` in units of 2 ^ `unit`, which is not larger. -/
def scaled (negative : Bool) (mantissa : Nat) (exponent unit : Int) : Int :=
  let magnitude := mantissa * Nat.pow 2 (exponent - unit).natAbs
  if negative then -(magnitude : Int) else magnitude

/-- The sum of two numbers. Opposite infinities have none, and zero is negative only as the sum of
negative zeros. -/
def add : Double → Double → Double
  | .nan, _ => .nan
  | _, .nan => .nan
  | .infinite a, .infinite b => if a = b then .infinite a else .nan
  | .infinite a, .finite .. => .infinite a
  | .finite .., .infinite b => .infinite b
  | .finite s m e, .finite t k f =>
    let unit := min e f
    let sum := scaled s m e unit + scaled t k f unit
    if sum = 0 then zero (s && t) else ofScaled (sum < 0) sum.natAbs unit 1

/-- A number divided by a natural number. -/
def divNat (d : Double) (divisor : Nat) : Double :=
  match d with
  | .nan => .nan
  | .infinite s => .infinite s
  | .finite s m e =>
    if divisor = 0 then
      if m = 0 then .nan else .infinite s
    else
      ofScaled s m e divisor

/-- Whether a number is at least zero, with or without a sign. -/
def isNonnegative : Double → Bool
  | .finite s m _ => !s || m = 0
  | .infinite s => !s
  | .nan => false

end Unroll.Double
