import Unroll.Double.Parse
import Unroll.SignedWord
import Unroll.Toml

/-!
# Numbers of a TOML document

Integers in four bases and floating-point numbers. Underscores may stand between digits; a decimal
number has no leading zeros. Integers are signed words of 64 bits. A positive floating-point number
beyond the range of the format is refused.
-/

namespace Unroll.Toml

/-- The digits of a group, without the underscores, of which each stands between two digits. -/
def ungroup? (isDigit : Char → Bool) : List Char → Option (List Char)
  | [] => none
  | [c] => if isDigit c then some [c] else none
  | c :: '_' :: rest => if isDigit c then (ungroup? isDigit rest).map (c :: ·) else none
  | c :: rest => if isDigit c then (ungroup? isDigit rest).map (c :: ·) else none

/-- The digits of a decimal number, which has no leading zeros. -/
def wholeDigits? (cs : List Char) : Option (List Char) :=
  match cs with
  | ['0'] => some ['0']
  | '0' :: _ => none
  | _ => ungroup? Char.isDigit cs

/-- The value of a digit in any base up to sixteen. -/
def digitValue (c : Char) : Nat :=
  if c.isDigit then c.toNat - '0'.toNat else c.toLower.toNat - 'a'.toNat + 10

def inBase (base : Nat) (digits : List Char) : Nat :=
  digits.foldl (fun n c => base * n + digitValue c) 0

/-- An integer of a document, if it is in range. -/
def integer? (n : Int) : Option Toml :=
  if SignedWord.contains n then some (.int n) else none

def isHexDigit (c : Char) : Bool :=
  c.isDigit || ('a' ≤ c && c ≤ 'f') || ('A' ≤ c && c ≤ 'F')

def isOctalDigit (c : Char) : Bool :=
  '0' ≤ c && c ≤ '7'

def isBinaryDigit (c : Char) : Bool :=
  c = '0' || c = '1'

/-- An integer without a point and an exponent. Only decimal ones have a sign. -/
def parseInteger? : List Char → Option Toml
  | '0' :: 'x' :: digits => do integer? (inBase 16 (← ungroup? isHexDigit digits))
  | '0' :: 'o' :: digits => do integer? (inBase 8 (← ungroup? isOctalDigit digits))
  | '0' :: 'b' :: digits => do integer? (inBase 2 (← ungroup? isBinaryDigit digits))
  | cs => do
    let (negative, digits) := Double.takeSign cs
    let magnitude : Int := Nat.ofDigitChars 10 (← wholeDigits? digits) 0
    integer? (if negative then -magnitude else magnitude)

def isExponentMark (c : Char) : Bool :=
  c = 'e' || c = 'E'

/-- The exponent that follows its mark. -/
def exponent? (cs : List Char) : Option Int := do
  let (negative, digits) := Double.takeSign cs
  let magnitude : Int := Nat.ofDigitChars 10 (← ungroup? Char.isDigit digits) 0
  return if negative then -magnitude else magnitude

/-- A floating-point number in range, which has a point or an exponent or both. -/
def parseFloat? (cs : List Char) : Option Toml := do
  let (negative, rest) := Double.takeSign cs
  let mantissa := rest.takeWhile (!isExponentMark ·)
  let exponent ←
    match rest.dropWhile (!isExponentMark ·) with
    | _ :: digits => exponent? digits
    | [] => some 0
  let whole ← wholeDigits? (mantissa.takeWhile (· ≠ '.'))
  let fraction ←
    match mantissa.dropWhile (· ≠ '.') with
    | _ :: digits => ungroup? Char.isDigit digits
    | [] => some []
  if fraction.isEmpty && !rest.any isExponentMark then
    none
  else
    let significand := Nat.ofDigitChars 10 (whole ++ fraction) 0
    match Double.ofDecimal negative significand (exponent - fraction.length) with
    | .infinite false => none
    | d => return .float d

/-- The numbers that are written as words. -/
def parseSpecial? (cs : List Char) : Option Toml :=
  let (negative, rest) := Double.takeSign cs
  match rest with
  | ['i', 'n', 'f'] => some (.float (.infinite negative))
  | ['n', 'a', 'n'] => some (.float .nan)
  | _ => none

/-- A number. -/
def parseNumber? (cs : List Char) : Option Toml :=
  parseSpecial? cs <|> parseInteger? cs <|> parseFloat? cs

end Unroll.Toml
