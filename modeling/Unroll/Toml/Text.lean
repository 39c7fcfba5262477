import Unroll.Text.Hex

/-!
# Strings of a TOML document

The four kinds of strings. A basic string has escapes, a literal one has none; each also has a form
that runs over several lines. Each reader starts behind the opening quotes and gives the characters
of the string and what follows it. Line ends inside a string count as one line feed.
-/

namespace Unroll.Toml

/-- Blanks within a line. -/
def isSpace (c : Char) : Bool :=
  c = ' ' || c = '\t'

/-- Characters that may stand in strings and comments. Line ends are not among them. -/
def isPrinting (c : Char) : Bool :=
  c = '\t' || (0x20 ≤ c.toNat && c.toNat ≠ 0x7F)

/-- What follows a line end, if the text starts with one. -/
def afterNewline? : List Char → Option (List Char)
  | '\n' :: rest => some rest
  | '\r' :: '\n' :: rest => some rest
  | _ => none

/-- The character of an escape with a single letter. -/
def shortEscape? : Char → Option Char
  | '"' => some '"'
  | '\\' => some '\\'
  | 'b' => some '\x08'
  | 'f' => some '\x0c'
  | 'n' => some '\n'
  | 'r' => some '\r'
  | 't' => some '\t'
  | _ => none

/-- Puts a character before the text that was read. -/
def prepend (c : Char) : List Char × List Char → List Char × List Char
  | (text, rest) => (c :: text, rest)

/-- A basic string, up to its closing quote. -/
def readBasic? : List Char → Option (List Char × List Char)
  | [] => none
  | '"' :: rest => some ([], rest)
  | '\\' :: 'u' :: a :: b :: c :: d :: rest => do
    return prepend (← Text.hexChar? [a, b, c, d]) (← readBasic? rest)
  | '\\' :: 'U' :: a :: b :: c :: d :: e :: f :: g :: h :: rest => do
    return prepend (← Text.hexChar? [a, b, c, d, e, f, g, h]) (← readBasic? rest)
  | '\\' :: letter :: rest => do
    return prepend (← shortEscape? letter) (← readBasic? rest)
  | c :: rest => do
    if isPrinting c && c ≠ '\\' then
      return prepend c (← readBasic? rest)
    else
      none

/-- Whether a backslash before this text joins two lines: only blanks stand before the line end. -/
def joinsLines (cs : List Char) : Bool :=
  (afterNewline? (cs.dropWhile isSpace)).isSome

/-- A basic string over several lines, up to its closing quotes, of which there are three; one or
two quotes before them belong to the string. With `joining`, blanks and line ends are passed over up
to the next other character. -/
def readLongBasic? (joining : Bool) : List Char → Option (List Char × List Char)
  | [] => none
  | '"' :: '"' :: '"' :: '"' :: '"' :: rest => some (['"', '"'], rest)
  | '"' :: '"' :: '"' :: '"' :: rest => some (['"'], rest)
  | '"' :: '"' :: '"' :: rest => some ([], rest)
  | '\r' :: '\n' :: rest =>
    if joining then readLongBasic? true rest
    else (readLongBasic? false rest).map (prepend '\n')
  | '\n' :: rest =>
    if joining then readLongBasic? true rest
    else (readLongBasic? false rest).map (prepend '\n')
  | '\\' :: 'u' :: a :: b :: c :: d :: rest => do
    return prepend (← Text.hexChar? [a, b, c, d]) (← readLongBasic? false rest)
  | '\\' :: 'U' :: a :: b :: c :: d :: e :: f :: g :: h :: rest => do
    return prepend (← Text.hexChar? [a, b, c, d, e, f, g, h]) (← readLongBasic? false rest)
  | '\\' :: letter :: rest =>
    if joinsLines (letter :: rest) then
      readLongBasic? true (letter :: rest)
    else do
      return prepend (← shortEscape? letter) (← readLongBasic? false rest)
  | c :: rest =>
    if joining && isSpace c then readLongBasic? true rest
    else if isPrinting c && c ≠ '\\' then (readLongBasic? false rest).map (prepend c)
    else none

/-- A literal string, up to its closing quote. -/
def readLiteral? : List Char → Option (List Char × List Char)
  | [] => none
  | '\x27' :: rest => some ([], rest)
  | c :: rest => if isPrinting c then (readLiteral? rest).map (prepend c) else none

/-- A literal string over several lines, up to its closing quotes. -/
def readLongLiteral? : List Char → Option (List Char × List Char)
  | [] => none
  | '\x27' :: '\x27' :: '\x27' :: '\x27' :: '\x27' :: rest => some (['\x27', '\x27'], rest)
  | '\x27' :: '\x27' :: '\x27' :: '\x27' :: rest => some (['\x27'], rest)
  | '\x27' :: '\x27' :: '\x27' :: rest => some ([], rest)
  | '\r' :: '\n' :: rest => (readLongLiteral? rest).map (prepend '\n')
  | '\n' :: rest => (readLongLiteral? rest).map (prepend '\n')
  | c :: rest => if isPrinting c then (readLongLiteral? rest).map (prepend c) else none

/-- A line end directly behind the opening quotes of a string over several lines is not part of
it. -/
def dropNewline (cs : List Char) : List Char :=
  (afterNewline? cs).getD cs

/-- A string with its opening quotes. -/
def readString? : List Char → Option (List Char × List Char)
  | '"' :: '"' :: '"' :: rest => readLongBasic? false (dropNewline rest)
  | '"' :: rest => readBasic? rest
  | '\x27' :: '\x27' :: '\x27' :: rest => readLongLiteral? (dropNewline rest)
  | '\x27' :: rest => readLiteral? rest
  | _ => none

end Unroll.Toml
