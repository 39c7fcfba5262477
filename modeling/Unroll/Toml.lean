import Unroll.Double

/-!
# TOML values

The values of a TOML document. A date or time is kept as its text in the standard notation.
-/

namespace Unroll

inductive Toml where
  | str (value : String)
  | int (value : Int)
  | float (value : Double)
  | bool (value : Bool)
  | date (text : String)
  | arr (items : List Toml)
  | table (entries : List (String × Toml))
  deriving Repr

end Unroll
