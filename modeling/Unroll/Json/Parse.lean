import Unroll.Double.Parse
import Unroll.Json
import Unroll.SignedWord
import Unroll.Text.Hex

/-!
# Reading JSON

A recursive descent over the characters. Each reader gives the value and the characters that follow
it. The readers of values call each other at most twice per character, which bounds the fuel that
`parse?` hands them.
-/

namespace Unroll.Json

/-- Blanks between tokens. -/
def isBlank (c : Char) : Bool :=
  c = ' ' || c = '\t' || c = '\n' || c = '\r'

def skipBlanks (cs : List Char) : List Char :=
  cs.dropWhile isBlank

/-- The value of four digits in base sixteen. -/
def hex4? (a b c d : Char) : Option Nat := do
  let high := (← Text.hexValue? a) * 16 + (← Text.hexValue? b)
  let low := (← Text.hexValue? c) * 16 + (← Text.hexValue? d)
  return high * 256 + low

def isHighSurrogate (code : Nat) : Bool :=
  0xD800 ≤ code && code < 0xDC00

def isLowSurrogate (code : Nat) : Bool :=
  0xDC00 ≤ code && code < 0xE000

/-- The character of an escape with a single letter. -/
def shortEscape? : Char → Option Char
  | '"' => some '"'
  | '\\' => some '\\'
  | '/' => some '/'
  | 'b' => some '\x08'
  | 'f' => some '\x0c'
  | 'n' => some '\n'
  | 'r' => some '\r'
  | 't' => some '\t'
  | _ => none

/-- The characters of a string up to its closing quote, and what follows. Characters outside the
basic plane may be escaped as a pair of surrogates; a surrogate alone is refused. -/
def readString? : List Char → Option (List Char × List Char)
  | '"' :: rest => some ([], rest)
  | '\\' :: 'u' :: a :: b :: c :: d :: '\\' :: 'u' :: e :: f :: g :: h :: rest => do
    let first ← hex4? a b c d
    if isHighSurrogate first then
      let second ← hex4? e f g h
      if isLowSurrogate second then
        let (text, rest) ← readString? rest
        return (Char.ofNat (0x10000 + (first - 0xD800) * 0x400 + (second - 0xDC00)) :: text, rest)
      else
        none
    else if isLowSurrogate first then
      none
    else
      let (text, rest) ← readString? ('\\' :: 'u' :: e :: f :: g :: h :: rest)
      return (Char.ofNat first :: text, rest)
  | '\\' :: 'u' :: a :: b :: c :: d :: rest => do
    let code ← hex4? a b c d
    if isHighSurrogate code || isLowSurrogate code then
      none
    else
      let (text, rest) ← readString? rest
      return (Char.ofNat code :: text, rest)
  | '\\' :: letter :: rest => do
    let c ← shortEscape? letter
    let (text, rest) ← readString? rest
    return (c :: text, rest)
  | c :: rest =>
    if c = '\\' || c.toNat < 0x20 then
      none
    else do
      let (text, rest) ← readString? rest
      return (c :: text, rest)
  | [] => none

/-- Splits digits off the front; there has to be one. -/
def readDigits? (cs : List Char) : Option (List Char × List Char) :=
  match cs.takeWhile Char.isDigit with
  | [] => none
  | digits => some (digits, cs.dropWhile Char.isDigit)

/-- Whether an integer is kept as one. -/
def isExact (n : Int) : Bool :=
  -(SignedWord.bound : Int) ≤ n && n < UInt64.size

/-- The fraction of a number, empty if there is none. -/
def readFraction? : List Char → Option (List Char × List Char)
  | '.' :: rest => readDigits? rest
  | rest => some ([], rest)

/-- The exponent of a number, if there is one. -/
def readExponent? : List Char → Option (Option Int × List Char)
  | c :: rest =>
    if c = 'e' || c = 'E' then do
      let (negative, rest) := Double.takeSign rest
      let (digits, rest) ← readDigits? rest
      let magnitude : Int := Nat.ofDigitChars 10 digits 0
      return (some (if negative then -magnitude else magnitude), rest)
    else
      some (none, c :: rest)
  | [] => some (none, [])

/-- A number whose sign has been read. A zero stands alone before the point. The integer minus zero
is kept as a double-precision number, which has a sign. -/
def readUnsigned? (negative : Bool) (cs : List Char) : Option (Json × List Char) := do
  let (whole, rest) ←
    match cs with
    | '0' :: rest => some (['0'], rest)
    | rest => readDigits? rest
  let (fraction, rest) ← readFraction? rest
  let (exponent, rest) ← readExponent? rest
  let magnitude := Nat.ofDigitChars 10 (whole ++ fraction) 0
  let value : Int := if negative then -(magnitude : Int) else magnitude
  if fraction.isEmpty && exponent.isNone && isExact value && !(negative && magnitude == 0) then
    return (.int value, rest)
  else
    return (.float (.ofDecimal negative magnitude (exponent.getD 0 - fraction.length)), rest)

def readNumber? : List Char → Option (Json × List Char)
  | '-' :: rest => readUnsigned? true rest
  | rest => readUnsigned? false rest

mutual

/-- A value, after blanks. -/
def readValue? : Nat → List Char → Option (Json × List Char)
  | 0, _ => none
  | fuel + 1, cs =>
    match skipBlanks cs with
    | 'n' :: 'u' :: 'l' :: 'l' :: rest => some (.null, rest)
    | 't' :: 'r' :: 'u' :: 'e' :: rest => some (.bool true, rest)
    | 'f' :: 'a' :: 'l' :: 's' :: 'e' :: rest => some (.bool false, rest)
    | '"' :: rest => do
      let (text, rest) ← readString? rest
      return (.str (String.ofList text), rest)
    | '[' :: rest =>
      match skipBlanks rest with
      | ']' :: rest => some (.arr [], rest)
      | rest => do
        let (items, rest) ← readItems? fuel rest
        return (.arr items, rest)
    | '\x7b' :: rest =>
      match skipBlanks rest with
      | '\x7d' :: rest => some (.obj [], rest)
      | rest => do
        let (members, rest) ← readMembers? fuel rest
        return (.obj members, rest)
    | rest => readNumber? rest

/-- The items of an array that is not empty, up to its closing bracket. -/
def readItems? : Nat → List Char → Option (List Json × List Char)
  | 0, _ => none
  | fuel + 1, cs => do
    let (item, rest) ← readValue? fuel cs
    match skipBlanks rest with
    | ',' :: rest =>
      let (items, rest) ← readItems? fuel rest
      return (item :: items, rest)
    | ']' :: rest => return ([item], rest)
    | _ => none

/-- The members of an object that is not empty, up to its closing brace. -/
def readMembers? : Nat → List Char → Option (List (String × Json) × List Char)
  | 0, _ => none
  | fuel + 1, cs =>
    match skipBlanks cs with
    | '"' :: rest => do
      let (name, rest) ← readString? rest
      match skipBlanks rest with
      | ':' :: rest =>
        let (value, rest) ← readValue? fuel rest
        match skipBlanks rest with
        | ',' :: rest =>
          let (members, rest) ← readMembers? fuel rest
          return ((String.ofList name, value) :: members, rest)
        | '\x7d' :: rest => return ([(String.ofList name, value)], rest)
        | _ => none
      | _ => none
    | _ => none

end

/-- Reads a JSON text, if the whole text is one. -/
def parse? (s : String) : Option Json := do
  let cs := s.toList
  let (value, rest) ← readValue? (2 * cs.length + 2) cs
  if (skipBlanks rest).isEmpty then return value else none

end Unroll.Json
