import Unroll.Toml

/-!
# Tables under construction

While a document is read, its tables remember how they came to be, because that decides what may be
added to them: a table is opened once by a header, dotted keys extend only tables that dotted keys
made, and values, inline tables among them, are never extended.
-/

namespace Unroll.Toml

/-- How a table came to be. -/
inductive Making where
  /-- By a header of its own, or as the root. -/
  | opened
  /-- By the header of a table inside it. -/
  | implied
  /-- By a dotted key. -/
  | dotted
  deriving DecidableEq, Repr

/-- An entry of a table under construction. -/
inductive Draft where
  | value (v : Toml)
  | table (making : Making) (entries : List (String × Draft))
  /-- The tables opened by headers in double brackets, the latest first. -/
  | tables (latest : List (String × Draft)) (earlier : List (List (String × Draft)))

/-- The entries of a table under construction. -/
abbrev Entries := List (String × Draft)

namespace Entries

/-- Replaces the entry of a name, or adds one at the end. The new entry is made from the old one, if
there is one, and may be refused. -/
def alter? (name : String) (f : Option Draft → Option Draft) : Entries → Option Entries
  | [] => do return [(name, ← f none)]
  | (other, entry) :: rest =>
    if other = name then do
      return (other, ← f (some entry)) :: rest
    else do
      return (other, entry) :: (← alter? name f rest)

/-- Changes the table that a header's path leads to. Tables on the way are made if they are missing;
of a list of tables the latest is meant. -/
def within? (f : Entries → Option Entries) : List String → Entries → Option Entries
  | [], entries => f entries
  | name :: path, entries =>
    entries.alter? name fun
      | none => do return .table .implied (← within? f path [])
      | some (.table making inner) => do return .table making (← within? f path inner)
      | some (.tables latest earlier) => do return .tables (← within? f path latest) earlier
      | some (.value _) => none

/-- Opens the table of a name by its header. The table comes after all that is there already. -/
def openTable? (name : String) (entries : Entries) : Option Entries :=
  match entries.lookup name with
  | none => some (entries ++ [(name, .table .opened [])])
  | some (.table .implied inner) =>
    some (entries.filter (·.1 ≠ name) ++ [(name, .table .opened inner)])
  | some _ => none

/-- Adds a table to the list of tables of a name. -/
def openItem? (name : String) (entries : Entries) : Option Entries :=
  entries.alter? name fun
    | none => some (.tables [] [])
    | some (.tables latest earlier) => some (.tables [] (latest :: earlier))
    | some _ => none

/-- Adds the value of a name that is not taken. -/
def insertNew? (name : String) (v : Toml) (entries : Entries) : Option Entries :=
  entries.alter? name fun
    | none => some (.value v)
    | some _ => none

/-- Adds a value under a dotted key, whose last name is given apart. The tables on the way must not
have been opened by a header, and the last one is one that dotted keys made. -/
def insertDotted? (last : String) (v : Toml) : List String → Entries → Option Entries
  | [], entries => entries.insertNew? last v
  | name :: path, entries =>
    entries.alter? name fun
      | none => do return .table .dotted (← insertDotted? last v path [])
      | some (.table making inner) =>
        if making = .opened || (path.isEmpty && making ≠ .dotted) then
          none
        else do
          return .table making (← insertDotted? last v path inner)
      | some (.tables latest earlier) =>
        if path.isEmpty then
          none
        else do
          return .tables (← insertDotted? last v path latest) earlier
      | some (.value _) => none

end Entries

mutual

/-- The value of an entry. -/
def Draft.finish : Draft → Toml
  | .value v => v
  | .table _ entries => .table (finishEntries entries)
  | .tables latest earlier =>
    .arr ((finishTables earlier).reverse ++ [.table (finishEntries latest)])

/-- The entries of a finished table. -/
def finishEntries : List (String × Draft) → List (String × Toml)
  | [] => []
  | (name, entry) :: rest => (name, entry.finish) :: finishEntries rest

/-- The tables of a list, in the order given. -/
def finishTables : List (List (String × Draft)) → List Toml
  | [] => []
  | entries :: rest => .table (finishEntries entries) :: finishTables rest

end

end Unroll.Toml
