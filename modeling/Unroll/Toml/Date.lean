import Unroll.Toml

/-!
# Dates and times of a TOML document

A date, a time, or a date and a time with an optional offset. The text that is kept has a capital
`T` and `Z`, at most nine decimals of a second without trailing zeros, and a zero offset as
positive.
-/

namespace Unroll.Toml

/-- The value of two digits, if it lies in the given range. -/
def twoDigits? (low high : Nat) (a b : Char) : Option Nat :=
  let n := Nat.ofDigitChars 10 [a, b] 0
  if a.isDigit && b.isDigit && low ≤ n && n ≤ high then some n else none

def isLeapYear (year : Nat) : Bool :=
  year % 4 == 0 && (year % 100 != 0 || year % 400 == 0)

def daysInMonth (year month : Nat) : Nat :=
  if month = 2 then if isLeapYear year then 29 else 28
  else if month = 4 || month = 6 || month = 9 || month = 11 then 30
  else 31

/-- A date at the front of a text, and what follows it. -/
def readDate? : List Char → Option (List Char × List Char)
  | y₁ :: y₂ :: y₃ :: y₄ :: '-' :: m₁ :: m₂ :: '-' :: d₁ :: d₂ :: rest => do
    let year := [y₁, y₂, y₃, y₄]
    if year.all Char.isDigit then
      let month ← twoDigits? 1 12 m₁ m₂
      let _ ← twoDigits? 1 (daysInMonth (Nat.ofDigitChars 10 year 0) month) d₁ d₂
      return (year ++ ['-', m₁, m₂, '-', d₁, d₂], rest)
    else
      none
  | _ => none

/-- The decimals of a second, without trailing zeros and with the point unless there are none. -/
def secondDecimals (digits : List Char) : List Char :=
  match ((digits.take 9).reverse.dropWhile (· = '0')).reverse with
  | [] => []
  | kept => '.' :: kept

/-- A time at the front of a text, and what follows it. A minute may have a leap second. -/
def readTime? : List Char → Option (List Char × List Char)
  | h₁ :: h₂ :: ':' :: m₁ :: m₂ :: ':' :: s₁ :: s₂ :: rest => do
    let _ ← twoDigits? 0 23 h₁ h₂
    let _ ← twoDigits? 0 59 m₁ m₂
    let _ ← twoDigits? 0 60 s₁ s₂
    let time := [h₁, h₂, ':', m₁, m₂, ':', s₁, s₂]
    match rest with
    | '.' :: rest =>
      match rest.takeWhile Char.isDigit with
      | [] => none
      | digits => return (time ++ secondDecimals digits, rest.dropWhile Char.isDigit)
    | rest => return (time, rest)
  | _ => none

/-- An offset, which has to use up the text. -/
def parseOffset? : List Char → Option (List Char)
  | [] => some []
  | [c] => if c = 'Z' || c = 'z' then some ['Z'] else none
  | [sign, h₁, h₂, ':', m₁, m₂] => do
    let hours ← twoDigits? 0 23 h₁ h₂
    let minutes ← twoDigits? 0 59 m₁ m₂
    if sign = '+' || (sign = '-' && hours = 0 && minutes = 0) then
      return ['+', h₁, h₂, ':', m₁, m₂]
    else if sign = '-' then
      return ['-', h₁, h₂, ':', m₁, m₂]
    else
      none
  | _ => none

/-- Marks between a date and a time. -/
def isTimeMark (c : Char) : Bool :=
  c = 'T' || c = 't' || c = ' '

/-- A date, a time or both. -/
def parseDate? (cs : List Char) : Option Toml := do
  match readDate? cs with
  | some (day, []) => return .date (String.ofList day)
  | some (day, mark :: rest) =>
    if isTimeMark mark then
      let (time, rest) ← readTime? rest
      let offset ← parseOffset? rest
      return .date (String.ofList (day ++ 'T' :: time ++ offset))
    else
      none
  | none =>
    let (time, rest) ← readTime? cs
    if rest.isEmpty then return .date (String.ofList time) else none

end Unroll.Toml
