import Unroll.Toml.Date
import Unroll.Toml.Draft
import Unroll.Toml.Number
import Unroll.Toml.Reserved
import Unroll.Toml.Text

/-!
# Reading a TOML document

A recursive descent over the characters. The readers of values call each other at most twice per
character and a line of the document has at least one, which bounds the fuel that `parse?` hands
them. Arrays and inline tables may be nested up to a limit, and so may the names of a key.
-/

namespace Unroll.Toml

/-- Values nested this deep, and keys of this many names, are refused. -/
def depthLimit : Nat := 80

def skipSpaces (cs : List Char) : List Char :=
  cs.dropWhile isSpace

/-! ## Comments and line ends -/

/-- Passes over a comment, if there is one, up to its line end. -/
def skipComment? : List Char → Option (List Char)
  | '#' :: rest =>
    match rest.dropWhile isPrinting with
    | [] => some []
    | '\n' :: rest => some ('\n' :: rest)
    | '\r' :: '\n' :: rest => some ('\n' :: rest)
    | _ => none
  | rest => some rest

/-- Passes over the rest of a line: blanks and perhaps a comment. -/
def endLine? (cs : List Char) : Option (List Char) := do
  match ← skipComment? (skipSpaces cs) with
  | [] => some []
  | rest => afterNewline? rest

/-- Passes over blanks, comments and line ends inside an array. -/
def skipLines? : Nat → List Char → Option (List Char)
  | 0, _ => none
  | fuel + 1, cs =>
    match skipSpaces cs with
    | '#' :: rest => do
      match ← skipComment? ('#' :: rest) with
      | [] => some []
      | rest => skipLines? fuel rest
    | rest =>
      match afterNewline? rest with
      | some rest => skipLines? fuel rest
      | none => some rest

/-! ## Keys -/

def isBareChar (c : Char) : Bool :=
  c.isAlphanum || c = '_' || c = '-'

/-- One name of a key: bare, or a string on one line. -/
def readName? : List Char → Option (String × List Char)
  | '"' :: rest => do
    let (text, rest) ← readBasic? rest
    return (String.ofList text, rest)
  | '\x27' :: rest => do
    let (text, rest) ← readLiteral? rest
    return (String.ofList text, rest)
  | cs =>
    match cs.takeWhile isBareChar with
    | [] => none
    | name => some (String.ofList name, cs.dropWhile isBareChar)

/-- The names of a key, with blanks around each. -/
def readNames? : Nat → List Char → Option (List String × List Char)
  | 0, _ => none
  | fuel + 1, cs => do
    let (name, rest) ← readName? (skipSpaces cs)
    match skipSpaces rest with
    | '.' :: rest =>
      let (names, rest) ← readNames? fuel rest
      return (name :: names, rest)
    | rest => return ([name], rest)

/-- A key: the names that lead to a table, and the last name. -/
def readKey? (cs : List Char) : Option ((List String × String) × List Char) := do
  let (names, rest) ← readNames? (cs.length + 1) cs
  match names.getLast? with
  | some last => if names.length < depthLimit then return ((names.dropLast, last), rest) else none
  | none => none

/-! ## Values -/

def isWordChar (c : Char) : Bool :=
  c.isAlphanum || c = '_' || c = '+' || c = '-' || c = '.' || c = ':'

/-- A value written as one word. -/
def parseWord? (word : List Char) : Option Toml :=
  if word = ['t', 'r', 'u', 'e'] then some (.bool true)
  else if word = ['f', 'a', 'l', 's', 'e'] then some (.bool false)
  else parseDate? word <|> parseNumber? word

/-- Splits a word off the front. A date takes a time in with it across one blank. -/
def splitWord (cs : List Char) : List Char × List Char :=
  let word := cs.takeWhile isWordChar
  let rest := cs.dropWhile isWordChar
  match readDate? word, rest with
  | some (_, []), ' ' :: digit :: more =>
    if digit.isDigit then
      let time := (digit :: more).takeWhile isWordChar
      (word ++ ' ' :: time, (digit :: more).dropWhile isWordChar)
    else
      (word, rest)
  | _, _ => (word, rest)

mutual

/-- A value, which is inside `depth` arrays and inline tables. -/
def readValue? : Nat → Nat → List Char → Option (Toml × List Char)
  | 0, _, _ => none
  | fuel + 1, depth, cs =>
    match cs with
    | '[' :: rest =>
      if depth + 1 < depthLimit then do
        let (items, rest) ← readItems? fuel (depth + 1) rest
        return (.arr items, rest)
      else
        none
    | '\x7b' :: rest =>
      if depth + 1 < depthLimit then
        match skipSpaces rest with
        | '\x7d' :: rest => some (.table [], rest)
        | rest => do
          let (entries, rest) ← readPairs? fuel (depth + 1) [] rest
          return (.table (finishEntries entries), rest)
      else
        none
    | '"' :: rest => do
      let (text, rest) ← readString? ('"' :: rest)
      return (.str (String.ofList text), rest)
    | '\x27' :: rest => do
      let (text, rest) ← readString? ('\x27' :: rest)
      return (.str (String.ofList text), rest)
    | cs => do
      let (word, rest) := splitWord cs
      return (← parseWord? word, rest)

/-- The items of an array, up to its closing bracket. A comma may follow the last one. -/
def readItems? : Nat → Nat → List Char → Option (List Toml × List Char)
  | 0, _, _ => none
  | fuel + 1, depth, cs => do
    match ← skipLines? (cs.length + 1) cs with
    | ']' :: rest => return ([], rest)
    | cs =>
      let (item, rest) ← readValue? fuel depth cs
      match ← skipLines? (rest.length + 1) rest with
      | ']' :: rest => return ([item], rest)
      | ',' :: rest =>
        let (items, rest) ← readItems? fuel depth rest
        return (item :: items, rest)
      | _ => none

/-- The pairs of an inline table that is not empty, up to its closing brace, added to the pairs
before them. -/
def readPairs? : Nat → Nat → Entries → List Char → Option (Entries × List Char)
  | 0, _, _, _ => none
  | fuel + 1, depth, entries, cs => do
    let ((path, last), rest) ← readKey? cs
    match rest with
    | '=' :: rest =>
      let (value, rest) ← readValue? fuel depth (skipSpaces rest)
      let entries ← entries.insertDotted? last value path
      match skipSpaces rest with
      | ',' :: rest => readPairs? fuel depth entries rest
      | '\x7d' :: rest => return (entries, rest)
      | _ => none
    | _ => none

end

/-! ## Documents -/

/-- A document up to some line: its tables, and the path of the table that the next pairs go
into. -/
structure Reading where
  root : Entries
  current : List String

/-- The header of a table, behind its opening bracket. -/
def readHeader? (doc : Reading) (cs : List Char) : Option (Reading × List Char) := do
  let ((path, last), rest) ← readKey? cs
  match rest with
  | ']' :: rest =>
    let root ← doc.root.within? (Entries.openTable? last) path
    return (⟨root, path ++ [last]⟩, ← endLine? rest)
  | _ => none

/-- The header of an item of a list of tables, behind its opening brackets. -/
def readItemHeader? (doc : Reading) (cs : List Char) : Option (Reading × List Char) := do
  let ((path, last), rest) ← readKey? cs
  match rest with
  | ']' :: ']' :: rest =>
    let root ← doc.root.within? (Entries.openItem? last) path
    return (⟨root, path ++ [last]⟩, ← endLine? rest)
  | _ => none

/-- A key and its value. -/
def readPair? (doc : Reading) (cs : List Char) : Option (Reading × List Char) := do
  let ((path, last), rest) ← readKey? cs
  match rest with
  | '=' :: rest =>
    let (value, rest) ← readValue? (2 * rest.length + 2) 0 (skipSpaces rest)
    let root ← doc.root.within? (Entries.insertDotted? last value path) doc.current
    return (⟨root, doc.current⟩, ← endLine? rest)
  | _ => none

/-- The lines of a document. -/
def readLines? : Nat → Reading → List Char → Option Entries
  | 0, _, _ => none
  | fuel + 1, doc, cs => do
    match skipSpaces cs with
    | [] => return doc.root
    | '#' :: rest => readLines? fuel doc (← endLine? ('#' :: rest))
    | '\n' :: rest => readLines? fuel doc rest
    | '\r' :: rest => readLines? fuel doc (← afterNewline? ('\r' :: rest))
    | '[' :: '[' :: rest =>
      let (doc, rest) ← readItemHeader? doc rest
      readLines? fuel doc rest
    | '[' :: rest =>
      let (doc, rest) ← readHeader? doc rest
      readLines? fuel doc rest
    | rest =>
      let (doc, rest) ← readPair? doc rest
      readLines? fuel doc rest

/-- The text without a byte order mark at its start. -/
def dropMark : List Char → List Char
  | '\uFEFF' :: rest => rest
  | cs => cs

/-- Reads a document, if the whole text is one. The document itself must not stand for a date. -/
def parse? (s : String) : Option (List (String × Toml)) := do
  let cs := dropMark s.toList
  let root ← readLines? (cs.length + 1) ⟨[], []⟩ cs
  match ← resolve? (.table (finishEntries root)) with
  | .table entries => some entries
  | _ => none

end Unroll.Toml
