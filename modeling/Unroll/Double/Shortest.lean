import Unroll.Double

/-!
# The shortest decimal of a double-precision number

A number is written with the fewest significant digits that still read back as the same number, and
among those as the decimal nearest to it. The decimals that read back are the ones between the
midpoints to the two neighbours, the midpoints themselves included when the mantissa is even.

The digits are laid out by one of two rules: `plain` never uses an exponent, `json` uses one outside
1e-5 to 1e16.
-/

namespace Unroll.Double

/-- A positive decimal number: `significand` · 10 ^ `exponent`. -/
structure Decimal where
  significand : Nat
  exponent : Int
  deriving DecidableEq, Repr

/-- The decimals that read back as one number, as multiples of 1 / `den`. -/
structure Interval where
  value : Nat
  low : Nat
  high : Nat
  den : Nat
  closed : Bool

/-- The decimals that read back as `mantissa` · 2 ^ `exponent`. The gap to the number below a power
of two is half the gap above it. -/
def intervalOf (mantissa : Nat) (exponent : Int) : Interval :=
  let unit := if 2 ≤ exponent then Nat.pow 2 (exponent - 2).natAbs else 1
  let den := if 2 ≤ exponent then 1 else Nat.pow 2 (exponent - 2).natAbs
  let below := if mantissa = Nat.pow 2 52 && exponent ≠ minExponent then 1 else 2
  { value := 4 * mantissa * unit
    low := (4 * mantissa - below) * unit
    high := (4 * mantissa + 2) * unit
    den
    closed := mantissa % 2 == 0 }

namespace Interval

/-- `k` · 10 ^ `grid` as a multiple of 1 / `den`, up to the common factor of `scale`. -/
def gridPoint (i : Interval) (k : Nat) (grid : Int) : Nat :=
  if 0 ≤ grid then k * Nat.pow 10 grid.natAbs * i.den else k * i.den

/-- The factor that makes multiples of 1 / `den` comparable with grid points. -/
def scale (grid : Int) : Nat :=
  if 0 ≤ grid then 1 else Nat.pow 10 grid.natAbs

/-- Whether `k` · 10 ^ `grid` reads back. -/
def contains (i : Interval) (k : Nat) (grid : Int) : Bool :=
  let point := i.gridPoint k grid
  let low := i.low * scale grid
  let high := i.high * scale grid
  if i.closed then low ≤ point && point ≤ high else low < point && point < high

/-- Of the two multiples of 10 ^ `grid` around the value, the one that reads back, and the nearer if
both do. If they are equally near, the tie decides. -/
def nearest? (tie : Tie) (i : Interval) (grid : Int) : Option Nat :=
  let value := i.value * scale grid
  let below := value / i.gridPoint 1 grid
  let above := below + 1
  match i.contains below grid && below ≠ 0, i.contains above grid with
  | true, true => some (roundDiv tie value (i.gridPoint 1 grid))
  | true, false => some below
  | false, true => some above
  | false, false => none

/-- The largest exponent `e` with 10 ^ `e` at most the value. -/
def magnitude (i : Interval) : Int :=
  if i.den ≤ i.value then
    ((Nat.toDigits 10 (i.value / i.den)).length : Int) - 1
  else
    let digits := (Nat.toDigits 10 (i.den / i.value)).length
    if i.value * Nat.pow 10 (digits - 1) = i.den then 1 - (digits : Int) else -(digits : Int)

/-- Tries the grids with one, two, … significant digits; the last resort is the grid on which `fuel`
runs out. -/
def search (tie : Tie) (i : Interval) (grid : Int) : Nat → Decimal
  | 0 => ⟨i.value * scale grid / i.gridPoint 1 grid, grid⟩
  | fuel + 1 =>
    match i.nearest? tie grid with
    | some k => ⟨k, grid⟩
    | none => i.search tie (grid - 1) fuel

end Interval

/-- Moves the trailing zeros of the significand into the exponent. -/
def Decimal.normalize (d : Decimal) : Decimal :=
  if h : d.significand ≠ 0 ∧ d.significand % 10 = 0 then
    normalize ⟨d.significand / 10, d.exponent + 1⟩
  else
    d
termination_by d.significand
decreasing_by
  omega

/-- The shortest decimal of the positive number `mantissa` · 2 ^ `exponent`. Seventeen digits always
suffice. -/
def shortest (tie : Tie) (mantissa : Nat) (exponent : Int) : Decimal :=
  let interval := intervalOf mantissa exponent
  (interval.search tie interval.magnitude 17).normalize

/-! ## Layouts -/

namespace Decimal

/-- The exponent of the first digit. -/
def leading (d : Decimal) : Int :=
  ((Nat.toDigits 10 d.significand).length : Int) - 1 + d.exponent

/-- Written with a point and no exponent, at least one digit on both sides of the point. -/
def positional (d : Decimal) : List Char :=
  let digits := Nat.toDigits 10 d.significand
  if 0 ≤ d.exponent then
    digits ++ List.replicate d.exponent.natAbs '0' ++ ['.', '0']
  else
    let places := d.exponent.natAbs
    if places < digits.length then
      digits.take (digits.length - places) ++ '.' :: digits.drop (digits.length - places)
    else
      '0' :: '.' :: List.replicate (places - digits.length) '0' ++ digits

/-- Written with one digit before the point, no point if there is no digit after it, and a signed
exponent. -/
def scientific (d : Decimal) : List Char :=
  let mantissa :=
    match Nat.toDigits 10 d.significand with
    | [] => []
    | [first] => [first]
    | first :: rest => first :: '.' :: rest
  let sign := if d.leading < 0 then '-' else '+'
  mantissa ++ 'e' :: sign :: Nat.toDigits 10 d.leading.natAbs

end Decimal

def signChars (negative : Bool) : List Char :=
  if negative then ['-'] else []

/-- The shortest decimal without an exponent, the larger one of two that are equally near. -/
def plain : Double → String
  | .finite negative mantissa exponent =>
    let digits :=
      if mantissa = 0 then ['0', '.', '0'] else (shortest .away mantissa exponent).positional
    String.ofList (signChars negative ++ digits)
  | .infinite negative => String.ofList (signChars negative ++ ['i', 'n', 'f'])
  | .nan => "NaN"

/-- The shortest decimal as a JSON number, the even one of two that are equally near; nothing for
what is not finite. -/
def json? : Double → Option String
  | .finite negative mantissa exponent =>
    let digits :=
      if mantissa = 0 then
        ['0', '.', '0']
      else
        let d := shortest .toEven mantissa exponent
        if -5 ≤ d.leading && d.leading < 16 then d.positional else d.scientific
    some (String.ofList (signChars negative ++ digits))
  | .infinite _ => none
  | .nan => none

end Unroll.Double
