import Unroll.SignedWord

/-!
# Reading integers

Decimal integers of a given range. The digits are read from left to right, and the first fault
decides.
-/

namespace Unroll.Text

/-- Why a text is not an integer of the expected range. -/
inductive IntegerFault where
  | empty
  | invalidDigit
  | tooLarge
  | tooSmall
  deriving DecidableEq, Repr

def IntegerFault.message : IntegerFault → String
  | .empty => "cannot parse integer from empty string"
  | .invalidDigit => "invalid digit found in string"
  | .tooLarge => "number too large to fit in target type"
  | .tooSmall => "number too small to fit in target type"

/-- Adds digits to a magnitude that must not exceed `limit`. -/
def readMagnitude (limit : Nat) (excess : IntegerFault) : Nat → List Char → Except IntegerFault Nat
  | magnitude, [] => .ok magnitude
  | magnitude, c :: rest =>
    if c.isDigit then
      let next := 10 * magnitude + (c.toNat - '0'.toNat)
      if next ≤ limit then readMagnitude limit excess next rest else .error excess
    else
      .error .invalidDigit

/-- Reads digits, of which there has to be one. -/
def readDigits (limit : Nat) (excess : IntegerFault) : List Char → Except IntegerFault Nat
  | [] => .error .invalidDigit
  | digits => readMagnitude limit excess 0 digits

/-- A natural number up to `limit`, perhaps with a plus sign. -/
def parseNat (limit : Nat) (s : String) : Except IntegerFault Nat :=
  match s.toList with
  | [] => .error .empty
  | '+' :: digits => readDigits limit .tooLarge digits
  | digits => readDigits limit .tooLarge digits

/-- An integer of 64 bits, perhaps with a sign. -/
def parseInt64 (s : String) : Except IntegerFault Int :=
  match s.toList with
  | [] => .error .empty
  | '-' :: digits => (readDigits SignedWord.bound .tooSmall digits).map fun n => -(n : Int)
  | '+' :: digits => (readDigits (SignedWord.bound - 1) .tooLarge digits).map Int.ofNat
  | digits => (readDigits (SignedWord.bound - 1) .tooLarge digits).map Int.ofNat

end Unroll.Text
