/-!
# Double-precision numbers

The numbers of the IEEE 754 binary64 format, in exact integer arithmetic: a finite one is a mantissa
times a power of two. `ofBits` decodes the 64-bit pattern, `ofRatio` rounds a fraction to the
nearest number of the format, a tie to the even mantissa, and `toWord` rounds to an unsigned word.
-/

namespace Unroll

/-- A double-precision number. The finite ones have the value ± `mantissa` · 2 ^ `exponent`, with
the mantissa below 2 ^ 53 and the exponent at least -1074. -/
inductive Double where
  | finite (negative : Bool) (mantissa : Nat) (exponent : Int)
  | infinite (negative : Bool)
  | nan
  deriving DecidableEq, Repr

/-- How a quotient that lies halfway between two integers is rounded. -/
inductive Tie where
  | toEven
  | away
  deriving DecidableEq, Repr

/-- The integer nearest to `num / den`. -/
def roundDiv (tie : Tie) (num den : Nat) : Nat :=
  let quotient := num / den
  let twice := 2 * (num % den)
  if twice < den then quotient
  else if den < twice then quotient + 1
  else
    match tie with
    | .away => quotient + 1
    | .toEven => quotient + quotient % 2

namespace Double

/-- The exponent of the smallest numbers. -/
def minExponent : Int := -1074

/-- The exponent of the largest numbers. -/
def maxExponent : Int := 971

def zero (negative : Bool) : Double :=
  .finite negative 0 minExponent

/-- Decodes a bit pattern: one sign bit, eleven bits of exponent, fifty-two of mantissa. -/
def ofBits (bits : UInt64) : Double :=
  let negative := bits.toNat / Nat.pow 2 63 == 1
  let scale := bits.toNat / Nat.pow 2 52 % Nat.pow 2 11
  let fraction := bits.toNat % Nat.pow 2 52
  if scale = 2047 then
    if fraction = 0 then .infinite negative else .nan
  else if scale = 0 then
    .finite negative fraction minExponent
  else
    .finite negative (Nat.pow 2 52 + fraction) (minExponent + (scale - 1 : Nat))

/-- `num / den` measured in units of 2 ^ `exponent`, as a fraction. -/
def inUnits (num den : Nat) (exponent : Int) : Nat × Nat :=
  if exponent ≤ 0 then
    (num * Nat.pow 2 exponent.natAbs, den)
  else
    (num, den * Nat.pow 2 exponent.natAbs)

/-- The number nearest to ± `num / den`. -/
def ofRatio (negative : Bool) (num den : Nat) : Double :=
  if num = 0 then
    zero negative
  else
    let estimate : Int := max minExponent ((num.log2 : Int) - den.log2 - 53)
    let (scaledNum, scaledDen) := inUnits num den estimate
    let exponent := if scaledNum / scaledDen < Nat.pow 2 53 then estimate else estimate + 1
    let (scaledNum, scaledDen) := inUnits num den exponent
    let mantissa := roundDiv .toEven scaledNum scaledDen
    let (mantissa, exponent) :=
      if mantissa = Nat.pow 2 53 then (Nat.pow 2 52, exponent + 1) else (mantissa, exponent)
    if exponent > maxExponent then .infinite negative else .finite negative mantissa exponent

/-- The number nearest to ± `significand` · 10 ^ `exponent`. Decimal numbers far outside the range
of the format are settled by their number of digits. -/
def ofDecimal (negative : Bool) (significand : Nat) (exponent : Int) : Double :=
  let magnitude : Int := (Nat.toDigits 10 significand).length + exponent
  if significand = 0 || magnitude < -400 then zero negative
  else if 400 < magnitude then .infinite negative
  else if 0 ≤ exponent then ofRatio negative (significand * Nat.pow 10 exponent.natAbs) 1
  else ofRatio negative significand (Nat.pow 10 exponent.natAbs)

/-- The nearest unsigned word, a half rounded away from zero. What lies outside the range goes to
its nearer end, and what is no number to zero. -/
def toWord : Double → UInt64
  | .finite negative mantissa exponent =>
    let magnitude :=
      if 0 ≤ exponent then mantissa * Nat.pow 2 exponent.natAbs
      else roundDiv .away mantissa (Nat.pow 2 exponent.natAbs)
    if negative then 0 else UInt64.ofNat (min magnitude (UInt64.size - 1))
  | .infinite negative => if negative then 0 else UInt64.ofNat (UInt64.size - 1)
  | .nan => 0

end Double

end Unroll
