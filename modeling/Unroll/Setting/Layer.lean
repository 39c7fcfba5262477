import Unroll.Setting.KeyPath
import Unroll.Text.Case

/-!
# Laying settings over each other

A source is laid over a tree key by key. Names are folded to lower case. A table is merged into what
stands at its place, entry by entry; anything else replaces what stands there. On the way to its
place a key makes the tables and arrays that it needs, without an origin, and fills an array up with
unset items.
-/

namespace Unroll.Setting

/-- A negative index reaches before the start of its array. -/
inductive IndexFault where
  | beforeStart
  deriving DecidableEq, Repr

/-- Sets the entry of a name, in its place or at the end. -/
def assign (name : String) (v : Setting) : List (String × Setting) → List (String × Setting)
  | [] => [(name, v)]
  | (other, old) :: rest =>
    if other = name then (name, v) :: rest else (other, old) :: assign name v rest

/-- The origin of a table; a table that is made in the place of anything else has none. -/
def tableOrigin : Setting → Option String
  | .table o _ => o
  | _ => none

/-- The origin of an array; an array that is made in the place of anything else has none. -/
def arrayOrigin : Setting → Option String
  | .array o _ => o
  | _ => none

mutual

/-- Lays a value over the entry of a name. -/
def put (name : String) (v : Setting) (es : List (String × Setting)) : List (String × Setting) :=
  let name := Text.lower name
  match v with
  | .table _ incoming => assign name (merge incoming ((lookup name es).getD emptyTable)) es
  | .scalar o s => assign name (.scalar o s) es
  | .array o xs => assign name (.array o xs) es

/-- Lays the entries of a table over a setting. No entries leave it as it is. -/
def merge : List (String × Setting) → Setting → Setting
  | [], target => target
  | (name, v) :: rest, target =>
    merge rest (.table target.tableOrigin (put name v target.entries))

end

/-- The position that an index means in an array of the given size. -/
def position (index : Int) (size : Nat) : Except IndexFault Nat :=
  if 0 ≤ index then .ok index.toNat
  else if index.natAbs ≤ size then .ok (size - index.natAbs)
  else .error .beforeStart

/-- Sets the item at a position, with unset items up to it. -/
def assignItem (i : Nat) (v : Setting) (xs : List Setting) : List Setting :=
  (xs ++ List.replicate (i + 1 - xs.length) unset).set i v

/-- Lays a value over the place that the steps lead to. -/
def write (v : Setting) : List Step → Setting → Except IndexFault Setting
  | [], _ => .ok v
  | [.name name], target => .ok (.table target.tableOrigin (put name v target.entries))
  | .name name :: steps, target => do
    let name := Text.lower name
    let inner ← write v steps ((lookup name target.entries).getD unset)
    return .table target.tableOrigin (assign name inner target.entries)
  | .index index :: steps, target => do
    let i ← position index target.items.length
    let inner ← write v steps (target.items[i]?.getD unset)
    return .array target.arrayOrigin (assignItem i inner target.items)

/-- Lays a source over a tree, key by key. -/
def overlay (tree : Setting) (source : List (String × Setting)) : Except IndexFault Setting :=
  source.foldlM (fun tree (key, v) => write v (KeyPath.ofKey key) tree) tree

end Unroll.Setting
