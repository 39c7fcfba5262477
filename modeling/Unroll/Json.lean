import Unroll.Double.Shortest

/-!
# JSON values and their written forms

A number is an integer if it is written as one and lies between -2 ^ 63 and 2 ^ 64 - 1, and a
double-precision number otherwise. Objects keep their members in order, repeated names included;
`get?` reads the last member of a name.

`compact` writes a value on one line and `pretty` on several, two spaces per level. Both write a
number that is not finite as `null`.
-/

namespace Unroll

inductive Json where
  | null
  | bool (value : Bool)
  | int (value : Int)
  | float (value : Double)
  | str (value : String)
  | arr (items : List Json)
  | obj (members : List (String × Json))
  deriving Repr

namespace Json

def word (value : UInt64) : Json :=
  .int value.toNat

def nat (value : Nat) : Json :=
  .int value

/-- The member of an object with the given name, the last one if there are several. -/
def get? (name : String) : Json → Option Json
  | .obj members => (members.reverse.find? (·.1 == name)).map (·.2)
  | _ => none

/-! ## Texts -/

/-- The digit of a number below sixteen. -/
def hexDigit (n : Nat) : Char :=
  Nat.digitChar n

/-- One character of a JSON string. Only quotes, backslashes and controls are escaped. -/
def escapeChar (c : Char) : List Char :=
  if c = '"' || c = '\\' then ['\\', c]
  else if c = '\n' then ['\\', 'n']
  else if c = '\r' then ['\\', 'r']
  else if c = '\t' then ['\\', 't']
  else if c = '\x08' then ['\\', 'b']
  else if c = '\x0c' then ['\\', 'f']
  else if c.toNat < 0x20 then
    ['\\', 'u', '0', '0', hexDigit (c.toNat / 16), hexDigit (c.toNat % 16)]
  else [c]

/-- A JSON string. -/
def quoteChars (s : String) : List Char :=
  '"' :: s.toList.flatMap escapeChar ++ ['"']

/-- The digits of an integer, with a minus sign if it is negative. -/
def intChars : Int → List Char
  | .ofNat n => Nat.toDigits 10 n
  | .negSucc n => '-' :: Nat.toDigits 10 (n + 1)

def floatChars (d : Double) : List Char :=
  match d.json? with
  | some text => text.toList
  | none => "null".toList

/-! ## One line -/

mutual

/-- A value without any blanks. -/
def compactChars : Json → List Char
  | .null => "null".toList
  | .bool true => "true".toList
  | .bool false => "false".toList
  | .int n => intChars n
  | .float d => floatChars d
  | .str s => quoteChars s
  | .arr items => '[' :: compactItems items ++ [']']
  | .obj members => '\x7b' :: compactMembers members ++ ['\x7d']

def compactItems : List Json → List Char
  | [] => []
  | [v] => compactChars v
  | v :: rest => compactChars v ++ ',' :: compactItems rest

def compactMembers : List (String × Json) → List Char
  | [] => []
  | [(name, v)] => quoteChars name ++ ':' :: compactChars v
  | (name, v) :: rest => quoteChars name ++ ':' :: compactChars v ++ ',' :: compactMembers rest

end

def compact (v : Json) : String :=
  String.ofList v.compactChars

/-! ## Several lines -/

/-- A new line at the given level. -/
def newLine (level : Nat) : List Char :=
  '\n' :: List.replicate (2 * level) ' '

mutual

/-- A value whose members and items stand on lines of their own, one level below it. Empty arrays
and objects stay on one line. -/
def prettyChars (level : Nat) : Json → List Char
  | .null => "null".toList
  | .bool true => "true".toList
  | .bool false => "false".toList
  | .int n => intChars n
  | .float d => floatChars d
  | .str s => quoteChars s
  | .arr [] => ['[', ']']
  | .arr (v :: rest) => '[' :: prettyItems (level + 1) (v :: rest) ++ newLine level ++ [']']
  | .obj [] => ['\x7b', '\x7d']
  | .obj (m :: rest) =>
    '\x7b' :: prettyMembers (level + 1) (m :: rest) ++ newLine level ++ ['\x7d']

def prettyItems (level : Nat) : List Json → List Char
  | [] => []
  | [v] => newLine level ++ prettyChars level v
  | v :: rest => newLine level ++ prettyChars level v ++ ',' :: prettyItems level rest

def prettyMembers (level : Nat) : List (String × Json) → List Char
  | [] => []
  | [(name, v)] => newLine level ++ quoteChars name ++ ':' :: ' ' :: prettyChars level v
  | (name, v) :: rest =>
    newLine level ++ quoteChars name ++ ':' :: ' ' :: prettyChars level v ++
      ',' :: prettyMembers level rest

end

def pretty (v : Json) : String :=
  String.ofList (v.prettyChars 0)

end Json

end Unroll
