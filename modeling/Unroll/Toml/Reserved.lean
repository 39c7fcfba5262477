import Unroll.Toml.Date

/-!
# The reserved name of dates

A table may stand for a date: its first entry then has a reserved name and the text of the date as
its value, and nothing after it is looked at. `resolve?` puts such dates in the place of the tables
that stand for them.
-/

namespace Unroll.Toml

/-- The name of the entry that makes a table stand for a date. -/
def dateName : String := "$__toml_private_datetime"

/-- The date that the value of the reserved entry gives. -/
def dateOfEntry? : Toml → Option Toml
  | .str text => parseDate? text.toList
  | _ => none

mutual

/-- A value with the dates that tables in it stand for; nothing if one of them is no date. -/
def resolve? : Toml → Option Toml
  | .arr items => do return .arr (← resolveItems? items)
  | .table [] => some (.table [])
  | .table ((name, v) :: rest) =>
    if name = dateName then
      dateOfEntry? v
    else do
      return .table ((name, ← resolve? v) :: (← resolveEntries? rest))
  | v => some v

def resolveItems? : List Toml → Option (List Toml)
  | [] => some []
  | item :: rest => do return (← resolve? item) :: (← resolveItems? rest)

def resolveEntries? : List (String × Toml) → Option (List (String × Toml))
  | [] => some []
  | (name, v) :: rest => do return (name, ← resolve? v) :: (← resolveEntries? rest)

end

end Unroll.Toml
