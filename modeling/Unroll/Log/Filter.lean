import Unroll.Log.Directive

/-!
# Choosing log lines

A filter is a list of directives that are separated by commas. Of the directives for an event the
one with the longest target decides, then the one with a field, and then the last one; an event for
which there is none is not shown.
-/

namespace Unroll.Log

namespace Directive

/-- Whether a directive is for an event. Events lie in no span and have the message as their only
field, and a directive that asks for a value is for no event. -/
def covers (d : Directive) (e : Event) : Bool :=
  d.span.isNone && d.target.toList.isPrefixOf e.target.path.toList &&
    match d.field with
    | none => true
    | some field => !field.valued && field.name = "message"

/-- Whether the second directive decides rather than the first one, if both are for an event. -/
def yieldsTo (a b : Directive) : Bool :=
  a.target.length < b.target.length ||
    (a.target.length = b.target.length && (a.field.isNone || b.field.isSome))

end Directive

/-- Reads directives. None at all shows errors only. -/
def parseDirectives? (s : String) : Option (List Directive) := do
  let directives ← ((Text.split ',' s).filter (!·.isEmpty)).mapM Directive.parse?
  if directives.isEmpty then return [{ limit := Level.error.rank }]
  return directives

/-- The level for the number of times that more lines were asked for. -/
def verbosityLevel : Nat → Level
  | 0 => .warn
  | 1 => .info
  | 2 => .debug
  | _ => .trace

/-- The directives of a run: those of the environment if they are well formed, and otherwise the
level for the verbosity. -/
def directives (environment : Option String) (verbosity : UInt8) : List Directive :=
  (environment.bind parseDirectives?).getD [{ limit := (verbosityLevel verbosity.toNat).rank }]

/-- The directive that decides about an event. -/
def decisive? (ds : List Directive) (e : Event) : Option Directive :=
  (ds.filter (·.covers e)).foldl
    (fun best d =>
      match best with
      | some b => if b.yieldsTo d then some d else some b
      | none => some d)
    none

/-- Whether an event is shown. -/
def shows (ds : List Directive) (e : Event) : Bool :=
  match decisive? ds e with
  | some d => e.level.rank ≤ d.limit
  | none => false

end Unroll.Log
