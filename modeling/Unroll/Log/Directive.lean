import Unroll.Double.Parse
import Unroll.Log
import Unroll.Text.Alphanumeric
import Unroll.Text.Blank
import Unroll.Text.Case
import Unroll.Text.Integer
import Unroll.Text.Pattern.Parse
import Unroll.Text.Slice
import Unroll.Text.Split

/-!
# Directives about log lines

A directive is written `target[span{field=value}]=level`, where most parts may be left out: `info`,
`target`, `target=debug`, `[{field}]=warn`. It is for the events whose target starts with its own,
that lie in the span, and that have the field with the value, and it shows those up to its level.

The blanks around a directive are passed over when its parts are looked for, but the parts are cut
out of the text that still has the blanks, at the offsets that were found.
-/

namespace Unroll.Log

/-- A field that an event has to have. -/
structure Field where
  name : String
  /-- Whether the field has to have some value. -/
  valued : Bool
  deriving DecidableEq, Repr

structure Directive where
  /-- What the paths of the targets start with; nothing for all of them. -/
  target : String := ""
  /-- The span that the events have to lie in. -/
  span : Option String := none
  field : Option Field := none
  /-- The rank of the last level that is shown; zero shows nothing. -/
  limit : Nat := Level.trace.rank
  deriving DecidableEq, Repr

/-- The rank that a level's name or number stands for. -/
def limitOfName? (s : String) : Option Nat :=
  match Text.asciiLower s with
  | "off" => some 0
  | "error" => some Level.error.rank
  | "warn" => some Level.warn.rank
  | "info" => some Level.info.rank
  | "debug" => some Level.debug.rank
  | "trace" => some Level.trace.rank
  | _ => (Text.parseNat Level.trace.rank s).toOption

/-- Whether a text says what value a field has to have: by a number or by a pattern
that can be used. -/
def isFieldValue (s : String) : Bool :=
  (Double.parse? s).isSome || (Text.Pattern.parse? s).any Text.Pattern.isUsable

/-- Reads a field, which is not empty. A value goes up to a second equals sign. -/
def Field.parse? (s : String) : Option Field :=
  match Text.split '=' s with
  | [] => none
  | [name] => if name.isEmpty then none else some { name, valued := false }
  | name :: value :: _ => if isFieldValue value then some { name, valued := true } else none

namespace Directive

/-- What the next character of a directive belongs to. A part that is cut out later comes with the
offset of its start. -/
inductive Place where
  | start
  /-- A target, or a level that stands alone. -/
  | name
  | span (start : Nat)
  | field (start : Nat)
  /-- Behind the brace that ends a field. -/
  | fieldEnd
  /-- Behind the bracket that ends a span. -/
  | spanEnd
  | level (start : Nat)
  deriving DecidableEq, Repr

/-- Whether a target may start with a character. -/
def isStart (c : Char) : Bool :=
  Text.isAlphanumeric c || c = '_' || c = ':' || c = '-'

/-- Takes in the character at an offset of `text`. -/
def step? (text : String) (d : Directive) (offset : Nat) (c : Char) :
    Place → Option (Directive × Place)
  | .start =>
    if c = '[' then some (d, .span (offset + 1))
    else if isStart c then some (d, .name)
    else none
  | .name =>
    if c = '=' then do
      return ({ d with target := ← Text.slice? text 0 offset }, .level (offset + 1))
    else if c = '[' then do
      return ({ d with target := ← Text.slice? text 0 offset }, .span (offset + 1))
    else
      some (d, .name)
  | .span start =>
    if c = ']' then do
      return ({ d with span := some (← Text.slice? text start offset) }, .spanEnd)
    else if c = '\x7b' then do
      let name ← Text.slice? text start offset
      return ({ d with span := if name.isEmpty then none else some name }, .field (offset + 1))
    else
      some (d, .span start)
  | .field start =>
    if c = '\x7d' then do
      let field ← Field.parse? (← Text.slice? text start offset)
      return ({ d with field := some field }, .fieldEnd)
    else
      some (d, .field start)
  | .fieldEnd => if c = ']' then some (d, .spanEnd) else none
  | .spanEnd => if c = '=' then some (d, .level (offset + 1)) else none
  | .level start => some (d, .level start)

/-- Takes in characters of `text`, the first of which is at an offset. -/
def scan? (text : String) :
    Nat → Directive × Place → List Char → Option (Directive × Place)
  | _, state, [] => some state
  | offset, (d, place), c :: rest => do
    scan? text (offset + c.utf8Size) (← step? text d offset c place) rest

/-- Completes a directive at the end of `text`. A level that is left out shows everything. -/
def finish? (text : String) (d : Directive) : Place → Option Directive
  | .name =>
    match limitOfName? text with
    | some limit => some { d with limit }
    | none => some { d with target := text }
  | .level start => do
    let name ← Text.sliceFrom? text start
    if name.isEmpty then return d
    return { d with limit := ← limitOfName? name }
  | .spanEnd => some d
  | .start | .span _ | .field _ | .fieldEnd => none

/-- Reads a directive. -/
def parse? (text : String) : Option Directive := do
  let (d, place) ← scan? text 0 ({}, .start) (Text.trimChars text.toList)
  finish? text d place

end Directive

end Unroll.Log
