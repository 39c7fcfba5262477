/-!
# Patterns

Regular expressions, as far as it matters whether they can be used. A pattern cannot be used if it
is nested too deeply, if it needs to know more characters than those of ASCII, or if it could match
a part of a character. What it needs depends on two modes, which flags inside the pattern turn on
and off: whether it is about characters or about bytes, and whether the case of letters counts.
-/

namespace Unroll.Text

namespace Pattern

/-- What flags change; nothing for what they leave as it is. -/
structure Flags where
  /-- Blanks and comments between the parts of the pattern do not count. -/
  spaced : Option Bool := none
  /-- The case of letters does not count. -/
  caseless : Option Bool := none
  /-- The pattern is about characters and not about bytes. -/
  unicode : Option Bool := none
  deriving DecidableEq, Repr

/-- A character that stands for itself. -/
structure Literal where
  char : Char
  /-- Whether it is written as a byte, with two digits in base sixteen. -/
  isByte : Bool := false
  deriving DecidableEq, Repr

/-- A set of characters. -/
inductive CharSet where
  | empty
  | literal (l : Literal)
  | range (low high : Literal)
  /-- Digits, blanks or word characters, written with one letter behind a backslash. -/
  | lettered (negated : Bool)
  /-- A class of ASCII characters, written by its name between colons. -/
  | named (negated : Bool)
  | bracketed (negated : Bool) (inner : CharSet)
  | union (items : List CharSet)
  /-- What two sets have in common, or by which they differ. -/
  | operation (left right : CharSet)
  deriving Repr

/-- How a pattern is understood at some place. -/
structure Mode where
  caseless : Bool := false
  unicode : Bool := true
  deriving DecidableEq, Repr

/-- The mode behind flags. -/
def Mode.set (m : Mode) (f : Flags) : Mode where
  caseless := f.caseless.getD m.caseless
  unicode := f.unicode.getD m.unicode

def Literal.isAscii (l : Literal) : Bool :=
  l.char.toNat < 0x80

end Pattern

open Pattern in
/-- A regular expression. -/
inductive Pattern where
  | empty
  /-- Flags for what follows in the same group. -/
  | flags (f : Flags)
  | literal (l : Literal)
  /-- Any character. -/
  | dot
  /-- The start or the end of the text or of a line. -/
  | edge
  /-- The start, the end or the inside of a word. -/
  | wordEdge
  | set (s : CharSet)
  | repeated (p : Pattern)
  | group (f : Flags) (p : Pattern)
  | sequence (ps : List Pattern)
  | alternatives (ps : List Pattern)
  deriving Repr

namespace Pattern

/-! ## Nesting -/

mutual

/-- How deeply a set is nested. -/
def CharSet.depth : CharSet → Nat
  | .bracketed _ inner => inner.depth + 1
  | .union items => CharSet.depthOfAll items + 1
  | .operation left right => max left.depth right.depth + 1
  | .empty | .literal _ | .range _ _ | .lettered _ | .named _ => 0

/-- How deeply the deepest of several sets is nested. -/
def CharSet.depthOfAll : List CharSet → Nat
  | [] => 0
  | s :: rest => max s.depth (CharSet.depthOfAll rest)

end

mutual

/-- How deeply a pattern is nested. -/
def depth : Pattern → Nat
  | .set s => s.depth
  | .repeated p => p.depth + 1
  | .group _ p => p.depth + 1
  | .sequence ps => depthOfAll ps + 1
  | .alternatives ps => depthOfAll ps + 1
  | .empty | .flags _ | .literal _ | .dot | .edge | .wordEdge => 0

/-- How deeply the deepest of several patterns is nested. -/
def depthOfAll : List Pattern → Nat
  | [] => 0
  | p :: rest => max p.depth (depthOfAll rest)

end

/-- Patterns that are nested more deeply cannot be used. -/
def depthLimit : Nat := 250

/-! ## Modes -/

mutual

/-- Whether a set can be used in a mode. What the other case of a character is, and which characters
are digits, blanks or word characters, is known for bytes only; a set of bytes has to stay within
ASCII, which no negated one does. -/
def CharSet.isUsable (m : Mode) : CharSet → Bool
  | .empty => true
  | .literal l => if m.unicode then !m.caseless else l.isAscii
  | .range low high => if m.unicode then !m.caseless else low.isAscii && high.isAscii
  | .lettered negated => !m.unicode && !negated
  | .named negated => if m.unicode then !m.caseless else !negated
  | .bracketed negated inner => inner.isUsable m && (m.unicode || !negated)
  | .union items => CharSet.areUsable m items
  | .operation left right => left.isUsable m && right.isUsable m

def CharSet.areUsable (m : Mode) : List CharSet → Bool
  | [] => true
  | s :: rest => s.isUsable m && CharSet.areUsable m rest

end

mutual

/-- The mode behind a pattern, if the pattern can be used. The flags of a group end with it. -/
def modeAfter? (m : Mode) : Pattern → Option Mode
  | .empty => some m
  | .flags f => some (m.set f)
  | .literal l =>
    if if m.unicode then !m.caseless else !l.isByte || l.isAscii then some m else none
  | .dot => if m.unicode then some m else none
  | .edge => some m
  | .wordEdge => if m.unicode then none else some m
  | .set s => if s.isUsable m then some m else none
  | .repeated p => modeAfter? m p
  | .group f p => (modeAfter? (m.set f) p).map fun _ => m
  | .sequence ps => modeAfterAll? m ps
  | .alternatives ps => modeAfterAll? m ps

def modeAfterAll? (m : Mode) : List Pattern → Option Mode
  | [] => some m
  | p :: rest =>
    match modeAfter? m p with
    | some m => modeAfterAll? m rest
    | none => none

end

/-- Whether a pattern can be used. -/
def isUsable (p : Pattern) : Bool :=
  p.depth ≤ depthLimit && (modeAfter? {} p).isSome

end Pattern

end Unroll.Text
