import Unroll.Text.Alphanumeric
import Unroll.Text.Blank
import Unroll.Text.Hex
import Unroll.Text.Pattern

/-!
# Reading patterns

A pattern is read from left to right, with the groups that are open on a stack. There are
alternatives, groups with an optional name or with flags, sets in brackets, escapes, and the marks
`*`, `+` and `?` for repetition, which have to follow what they repeat. Counts of repetitions,
references to groups and categories of characters are not part of a pattern.

Readers take the characters from some place on and give what follows the part that they read. Where
a flag says so, blanks and comments between the parts are passed over.
-/

namespace Unroll.Text.Pattern

/-- Passes over blanks and comments, which go from a number sign to the end of the line. -/
def skipComments (inComment : Bool) : List Char → List Char
  | [] => []
  | c :: rest =>
    if inComment then skipComments (c != '\n') rest
    else if isBlank c then skipComments false rest
    else if c = '#' then skipComments true rest
    else c :: rest

/-- Passes over blanks and comments where they do not count. -/
def skip (spaced : Bool) (cs : List Char) : List Char :=
  if spaced then skipComments false cs else cs

/-! ## Escapes -/

/-- What an escape, or a character that stands for itself, means. -/
inductive Atom where
  | literal (l : Literal)
  | lettered (negated : Bool)
  | edge
  | wordEdge
  deriving DecidableEq, Repr

/-- Whether a character stands for itself behind a backslash. -/
def isEscapable (c : Char) : Bool :=
  c.toNat < 0x80 && !c.isAlphanum && c != '<' && c != '>'

/-- Takes a number of digits in base sixteen. -/
def takeHex? (spaced : Bool) : Nat → List Char → Option (List Char × List Char)
  | 0, cs => some ([], cs)
  | count + 1, cs =>
    match skip spaced cs with
    | [] => none
    | c :: rest =>
      if (hexValue? c).isSome then
        (takeHex? spaced count rest).map fun (digits, rest) => (c :: digits, rest)
      else
        none

/-- A character given by a number of digits in base sixteen. Two digits give a byte. -/
def readHex? (spaced : Bool) (count : Nat) (cs : List Char) : Option (Atom × List Char) := do
  let (digits, rest) ← takeHex? spaced count cs
  let char ← hexChar? digits
  return (.literal { char, isByte := count = 2 }, rest)

/-- The escape behind a backslash. -/
def readEscape? (spaced : Bool) : List Char → Option (Atom × List Char)
  | [] => none
  | c :: rest =>
    match c with
    | 'x' => readHex? spaced 2 rest
    | 'u' => readHex? spaced 4 rest
    | 'U' => readHex? spaced 8 rest
    | 'd' | 's' | 'w' => some (.lettered false, rest)
    | 'D' | 'S' | 'W' => some (.lettered true, rest)
    | 'a' => some (.literal { char := '\x07' }, rest)
    | 'f' => some (.literal { char := '\x0c' }, rest)
    | 'n' => some (.literal { char := '\n' }, rest)
    | 'r' => some (.literal { char := '\r' }, rest)
    | 't' => some (.literal { char := '\t' }, rest)
    | 'v' => some (.literal { char := '\x0b' }, rest)
    | 'A' | 'z' => some (.edge, rest)
    | 'b' | 'B' | '<' | '>' => some (.wordEdge, rest)
    | c => if isEscapable c then some (.literal { char := c }, rest) else none

/-! ## Sets -/

/-- The names of sets between colons. -/
def setNames : List String :=
  ["alnum", "alpha", "ascii", "blank", "cntrl", "digit", "graph", "lower", "print", "punct",
    "space", "upper", "word", "xdigit"]

/-- A set by name, behind its opening bracket. -/
def readNamed? : List Char → Option (CharSet × List Char)
  | ':' :: rest =>
    let (negated, body) :=
      match rest with
      | '^' :: rest => (true, rest)
      | rest => (false, rest)
    match body.dropWhile (· != ':') with
    | ':' :: ']' :: after =>
      if setNames.contains (String.ofList (body.takeWhile (· != ':'))) then
        some (.named negated, after)
      else
        none
    | _ => none
  | _ => none

/-- A member of a set, or one end of a range. -/
def readMember? (spaced : Bool) : List Char → Option (Atom × List Char)
  | [] => none
  | '\\' :: rest => readEscape? spaced rest
  | c :: rest => some (.literal { char := c }, rest)

/-- The next character that counts. Of a comment the first character behind its number sign is taken
for it, and if only blanks follow, the first of them. -/
def peek? (spaced : Bool) (cs : List Char) : Option Char :=
  if spaced then
    match cs.dropWhile isBlank with
    | '#' :: rest => (rest.dropWhile isBlank).head? <|> cs.head?
    | rest => rest.head? <|> cs.head?
  else
    cs.head?

/-- A range or a single member of a set. A hyphen before the closing bracket stands for itself, and
two hyphens are an operator. -/
def readRange? (spaced : Bool) (cs : List Char) : Option (CharSet × List Char) := do
  let (low, rest) ← readMember? spaced cs
  match skip spaced rest with
  | '-' :: more =>
    if peek? spaced more = some ']' || peek? spaced more = some '-' then
      single? low ('-' :: more)
    else
      let (high, rest) ← readMember? spaced (skip spaced more)
      match low, high with
      | .literal a, .literal b => if a.char ≤ b.char then some (.range a b, rest) else none
      | _, _ => none
  | rest => single? low rest
where
  /-- A single member and what follows it. -/
  single? (member : Atom) (rest : List Char) : Option (CharSet × List Char) :=
    match member with
    | .literal l => some (.literal l, rest)
    | .lettered negated => some (.lettered negated, rest)
    | .edge | .wordEdge => none

/-- A set under construction. -/
structure OpenSet where
  negated : Bool := false
  /-- What stands before the last operator. -/
  left : Option CharSet := none
  /-- The items since the last operator, the latest first. -/
  items : List CharSet := []

namespace OpenSet

/-- Adds an item. -/
def add (o : OpenSet) (item : CharSet) : OpenSet :=
  { o with items := item :: o.items }

/-- The set up to here, without its brackets. -/
def inner (o : OpenSet) : CharSet :=
  let right :=
    match o.items with
    | [] => .empty
    | [item] => item
    | items => .union items.reverse
  match o.left with
  | none => right
  | some left => .operation left right

/-- The set up to here becomes the left side of an operator. -/
def operate (o : OpenSet) : OpenSet :=
  { o with left := some o.inner, items := [] }

def close (o : OpenSet) : CharSet :=
  .bracketed o.negated o.inner

end OpenSet

/-- Takes hyphens at the start of a set, which stand for themselves. -/
def takeHyphens (spaced : Bool) : Nat → OpenSet → List Char → OpenSet × List Char
  | 0, o, cs => (o, cs)
  | fuel + 1, o, cs =>
    match skip spaced cs with
    | '-' :: rest => takeHyphens spaced fuel (o.add (.literal { char := '-' })) rest
    | cs => (o, cs)

/-- The start of a set behind its opening bracket: a circumflex that negates it, and then hyphens or
a closing bracket, which stand for themselves. -/
def openSet (spaced : Bool) (cs : List Char) : OpenSet × List Char :=
  let (negated, cs) :=
    match skip spaced cs with
    | '^' :: rest => (true, skip spaced rest)
    | cs => (false, cs)
  let o : OpenSet := { negated }
  match cs with
  | ']' :: rest => (o.add (.literal { char := ']' }), rest)
  | cs => takeHyphens spaced (cs.length + 1) o cs

/-- The rest of a set, which is inside the sets of a stack. -/
def readSet? (spaced : Bool) : Nat → OpenSet → List OpenSet → List Char →
    Option (CharSet × List Char)
  | 0, _, _, _ => none
  | fuel + 1, o, outer, cs =>
    match skip spaced cs with
    | [] => none
    | '[' :: rest =>
      match readNamed? rest with
      | some (named, rest) => readSet? spaced fuel (o.add named) outer rest
      | none =>
        let (nested, rest) := openSet spaced rest
        readSet? spaced fuel nested (o :: outer) rest
    | ']' :: rest =>
      match outer with
      | [] => some (o.close, rest)
      | parent :: outer => readSet? spaced fuel (parent.add o.close) outer rest
    | '&' :: '&' :: rest | '-' :: '-' :: rest | '~' :: '~' :: rest =>
      readSet? spaced fuel o.operate outer rest
    | cs =>
      match readRange? spaced cs with
      | some (item, rest) => readSet? spaced fuel (o.add item) outer rest
      | none => none

/-! ## Groups -/

/-- Whether a text may be the name of a group. -/
def isGroupName : List Char → Bool
  | [] => false
  | first :: rest =>
    (isAlphabetic first || first = '_') &&
      rest.all fun c => isAlphanumeric c || c = '_' || c = '.' || c = '[' || c = ']'

/-- Whether flags may stand together. -/
def areFlags (flags : List Char) : Bool :=
  flags.all (['i', 'm', 's', 'U', 'u', 'R', 'x', '-'].contains ·) && flags.Nodup &&
    flags.getLast? != some '-'

/-- Whether flags turn one of them on or off. A hyphen turns off those behind it. -/
def flagState? (flag : Char) (flags : List Char) : Option Bool :=
  if flags.contains flag then some (!(flags.takeWhile (· != flag)).contains '-') else none

def Flags.ofChars (flags : List Char) : Flags where
  spaced := flagState? 'x' flags
  caseless := flagState? 'i' flags
  unicode := flagState? 'u' flags

/-- What a group may start with. -/
inductive Opening where
  /-- Nothing, or flags for the group alone. -/
  | plain (f : Flags)
  | named (name : List Char)
  /-- Flags for what follows; there is no group. -/
  | flags (f : Flags)
  deriving DecidableEq, Repr

/-- The name of a group, behind its opening angle bracket. -/
def readGroupName? (cs : List Char) : Option (Opening × List Char) :=
  let name := cs.takeWhile (· != '>')
  match cs.dropWhile (· != '>') with
  | [] => none
  | _ :: rest => if isGroupName name then some (.named name, rest) else none

/-- The start of a group, behind its opening parenthesis. -/
def readOpening? : List Char → Option (Opening × List Char)
  | '?' :: 'P' :: '<' :: rest => readGroupName? rest
  | '?' :: '<' :: rest => readGroupName? rest
  | '?' :: rest =>
    let isFlag (c : Char) : Bool := c != ')' && c != ':'
    let flags := rest.takeWhile isFlag
    match rest.dropWhile isFlag with
    | [] => none
    | c :: rest =>
      if !areFlags flags then none
      else if c = ':' then some (.plain (.ofChars flags), rest)
      else if flags.isEmpty then none
      else some (.flags (.ofChars flags), rest)
  | rest => some (.plain {}, rest)

/-! ## Whole patterns -/

/-- A group under construction; the whole pattern counts as one. -/
structure OpenGroup where
  flags : Flags := {}
  /-- Whether blanks and comments count outside the group. -/
  spacedOutside : Bool := false
  /-- The finished alternatives, the latest first. -/
  branches : List Pattern := []
  /-- The parts of the current alternative, the latest first. -/
  parts : List Pattern := []

namespace OpenGroup

/-- The current alternative. -/
def branch (g : OpenGroup) : Pattern :=
  match g.parts with
  | [] => .empty
  | [part] => part
  | parts => .sequence parts.reverse

/-- What the group holds up to here. -/
def body (g : OpenGroup) : Pattern :=
  match g.branches with
  | [] => g.branch
  | branches => .alternatives (g.branch :: branches).reverse

def add (g : OpenGroup) (part : Pattern) : OpenGroup :=
  { g with parts := part :: g.parts }

/-- Starts a new alternative. -/
def alternate (g : OpenGroup) : OpenGroup :=
  { g with branches := g.branch :: g.branches, parts := [] }

/-- Repeats the last part, if there is one that can be repeated. -/
def repeat? (g : OpenGroup) : Option OpenGroup :=
  match g.parts with
  | [] | .flags _ :: _ => none
  | part :: parts => some { g with parts := .repeated part :: parts }

end OpenGroup

/-- How far a pattern is read. -/
structure Progress where
  /-- The innermost open group. -/
  current : OpenGroup := {}
  /-- The open groups around it, the innermost first. -/
  outer : List OpenGroup := []
  /-- Whether blanks and comments count. -/
  spaced : Bool := false
  /-- The names of the groups so far. -/
  names : List (List Char) := []

namespace Progress

/-- Adds a part to the current group. -/
def add (state : Progress) (part : Pattern) : Progress :=
  { state with current := state.current.add part }

/-- Opens a group. -/
def openGroup (state : Progress) (flags : Flags) : Progress :=
  { state with
    current := { flags, spacedOutside := state.spaced }
    outer := state.current :: state.outer
    spaced := flags.spaced.getD state.spaced }

/-- Acts on the start of a group. -/
def start? (state : Progress) : Opening → Option Progress
  | .plain f => some (state.openGroup f)
  | .named name =>
    if state.names.contains name then none
    else some { state.openGroup {} with names := name :: state.names }
  | .flags f => some { state.add (.flags f) with spaced := f.spaced.getD state.spaced }

/-- Closes the current group. -/
def close? (state : Progress) : Option Progress :=
  match state.outer with
  | [] => none
  | parent :: outer =>
    some { state with
      current := parent.add (.group state.current.flags state.current.body)
      outer
      spaced := state.current.spacedOutside }

/-- Adds what an escape means. -/
def addAtom (state : Progress) : Atom → Progress
  | .literal l => state.add (.literal l)
  | .lettered negated => state.add (.set (.lettered negated))
  | .edge => state.add .edge
  | .wordEdge => state.add .wordEdge

/-- Repeats the last part. A question mark right behind the mark belongs to it. -/
def repeat? (state : Progress) (rest : List Char) : Option (Progress × List Char) := do
  let current ← state.current.repeat?
  let rest :=
    match rest with
    | '?' :: rest => rest
    | rest => rest
  return ({ state with current }, rest)

/-- Takes in a character and those that belong to it. -/
def step? (state : Progress) (c : Char) (rest : List Char) : Option (Progress × List Char) :=
  match c with
  | '(' => do
    let (opening, rest) ← readOpening? (skip state.spaced rest)
    return (← state.start? opening, rest)
  | ')' => do return (← state.close?, rest)
  | '|' => some ({ state with current := state.current.alternate }, rest)
  | '*' | '+' | '?' => state.repeat? rest
  | '\x7b' => none
  | '[' => do
    let (o, rest) := openSet state.spaced rest
    let (s, rest) ← readSet? state.spaced (rest.length + 1) o [] rest
    return (state.add (.set s), rest)
  | '\\' => do
    let (atom, rest) ← readEscape? state.spaced rest
    return (state.addAtom atom, rest)
  | '.' => some (state.add .dot, rest)
  | '^' | '$' => some (state.add .edge, rest)
  | c => some (state.add (.literal { char := c }), rest)

/-- Takes in all characters; at the end no group may be open. -/
def run? : Nat → Progress → List Char → Option Pattern
  | 0, _, _ => none
  | fuel + 1, state, cs =>
    match skip state.spaced cs with
    | [] => if state.outer.isEmpty then some state.current.body else none
    | c :: rest => do
      let (state, rest) ← state.step? c rest
      run? fuel state rest

end Progress

/-- Reads a pattern, if the whole text is one. -/
def parse? (s : String) : Option Pattern :=
  Progress.run? (s.length + 1) {} s.toList

end Unroll.Text.Pattern
