import Unroll.CommandLine.Parameter

/-!
# Reading command lines

A command line is read word by word. `--name`, `--name=value`, `-x`, `-xvalue` and `-x=value` give
options; several letters may share a hyphen, up to the first that takes a value. A parameter without
a value takes the next word, unless that word is an option itself. After `--` no word is an option.

A value that stands in a word of its own is looked at when the next option or index comes or the
line ends. Until then a word that means nothing is the graver fault.
-/

namespace Unroll.CommandLine

/-- A parameter that is still to be set. -/
inductive Pending where
  | nothing
  /-- The value is in the next word. -/
  | awaiting (p : Parameter)
  | given (p : Parameter) (value : String)
  deriving DecidableEq, Repr

/-- How far a command line is read. -/
structure Progress where
  line : CommandLine := {}
  pending : Pending := .nothing
  /-- Whether `--` has been read. -/
  optionsEnded : Bool := false
  deriving DecidableEq, Repr

/-- What a word looks like. -/
inductive Word where
  /-- `--` -/
  | endOfOptions
  | long (name : String) (value : Option String)
  | letters (letters : List Char)
  | plain
  deriving DecidableEq, Repr

/-- Splits a long option at its first equals sign. -/
def splitLong (cs : List Char) : Word :=
  let isName (c : Char) : Bool := c != '='
  let value :=
    match cs.dropWhile isName with
    | [] => none
    | _ :: value => some (String.ofList value)
  .long (String.ofList (cs.takeWhile isName)) value

/-- Tells what a word looks like. A single hyphen is a plain word. -/
def Word.ofText (word : String) : Word :=
  match word.toList with
  | ['-', '-'] => .endOfOptions
  | '-' :: '-' :: rest => splitLong rest
  | ['-'] => .plain
  | '-' :: rest => .letters rest
  | _ => .plain

namespace Progress

/-- Sets the pending parameter. -/
def settle (state : Progress) : Except Stop Progress :=
  match state.pending with
  | .nothing => .ok state
  | .awaiting p => .error (.missingValue p)
  | .given p value => do
    return { state with line := ← state.line.assign p value, pending := .nothing }

/-- Whether the index is given. -/
def hasIndex (state : Progress) : Bool :=
  state.line.n.isSome ||
    match state.pending with
    | .given .index _ => true
    | _ => false

/-- A parameter with a value in the same word, or without one. -/
def parameter (state : Progress) (p : Parameter) (value : Option String) :
    Except Stop Progress := do
  let state ← state.settle
  match value with
  | some value => return { state with line := ← state.line.assign p value }
  | none => return { state with pending := .awaiting p }

def switch (state : Progress) (s : Switch) : Except Stop Progress := do
  let state ← state.settle
  return { state with line := ← state.line.turn s }

def long (state : Progress) (name : String) (value : Option String) : Except Stop Progress :=
  match Named.ofLong? name, value with
  | some (.parameter p), value => state.parameter p value
  | some (.switch s), none => state.switch s
  | some (.switch s), some value => .error (.surplusValue value s)
  | none, _ => .error (.unknownArgument ("--" ++ name))

/-- The value behind the letter of a parameter. An equals sign before it does not belong to it. -/
def attached? : List Char → Option String
  | [] => none
  | '=' :: value => some (String.ofList value)
  | value => some (String.ofList value)

def letters (state : Progress) : List Char → Except Stop Progress
  | [] => .ok state
  | c :: rest =>
    match Named.ofLetter? c with
    | some (.parameter p) => state.parameter p (attached? rest)
    | some (.switch s) => do
      let state ← state.switch s
      state.letters rest
    | none => .error (.unknownArgument (String.ofList ['-', c]))

/-- A word that is the index. -/
def index (state : Progress) (word : String) : Except Stop Progress :=
  if state.hasIndex then
    .error (.unknownArgument word)
  else do
    let state ← state.settle
    return { state with pending := .given .index word }

/-- A word that is a value of its own. -/
def plain (state : Progress) (word : String) : Except Stop Progress :=
  match state.pending with
  | .awaiting p => .ok { state with pending := .given p word }
  | _ => state.index word

/-- Reads a word. -/
def step (state : Progress) (word : String) : Except Stop Progress :=
  if state.optionsEnded then
    state.index word
  else
    match Word.ofText word with
    | .endOfOptions => .ok { state with optionsEnded := true }
    | .long name value => state.long name value
    | .letters letters => state.letters letters
    | .plain => state.plain word

end Progress

/-- Reads the words of a command line. -/
def parse (words : List String) : Except Stop CommandLine := do
  let state : Progress ← words.foldlM Progress.step {}
  return (← state.settle).line

end Unroll.CommandLine
