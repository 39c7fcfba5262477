/-!
# Splitting and replacing

A text is split at every occurrence of a separator; the pieces between two separators, before the
first and after the last one are kept, empty ones too.
-/

namespace Unroll.Text

/-- The pieces of a text between the separators. There is always one. -/
def splitChars (separator : Char) : List Char → List (List Char)
  | [] => [[]]
  | c :: rest =>
    match splitChars separator rest with
    | [] => [[c]]
    | piece :: pieces =>
      if c = separator then [] :: piece :: pieces else (c :: piece) :: pieces

def split (separator : Char) (s : String) : List String :=
  (splitChars separator s.toList).map String.ofList

end Unroll.Text
