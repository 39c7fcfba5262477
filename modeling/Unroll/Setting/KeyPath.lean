import Unroll.Setting
import Unroll.SignedWord

/-!
# Key paths

A key of a source may be a path such as `run.methods[0]`: names joined by points, and indices in
brackets. Names consist of ASCII letters and digits, blanks, underscores and hyphens.
-/

namespace Unroll.Setting

/-- One step into a tree of settings. A negative index counts from the end. -/
inductive Step where
  | name (name : String)
  | index (index : Int)
  deriving DecidableEq, Repr

namespace KeyPath

def isNameChar (c : Char) : Bool :=
  c.isAlphanum || c = ' ' || c = '_' || c = '-'

def isBlank (c : Char) : Bool :=
  c = ' ' || c = '\t'

/-- Splits a name off the front. -/
def readName? (cs : List Char) : Option (Step × List Char) :=
  match cs.takeWhile isNameChar with
  | [] => none
  | name => some (.name (String.ofList name), cs.dropWhile isNameChar)

/-- An index behind its opening bracket, with blanks around it and a closing bracket. -/
def readIndex? (cs : List Char) : Option (Step × List Char) :=
  let cs := cs.dropWhile isBlank
  let (negative, cs) :=
    match cs with
    | '-' :: rest => (true, rest)
    | rest => (false, rest)
  let digits := cs.takeWhile Char.isDigit
  match digits, (cs.dropWhile Char.isDigit).dropWhile isBlank with
  | [], _ => none
  | _, ']' :: rest =>
    let magnitude : Int := Nat.ofDigitChars 10 digits 0
    let index := if negative then -magnitude else magnitude
    if SignedWord.contains index then some (.index index, rest) else none
  | _, _ => none

/-- The steps after the first name. -/
def readSteps? : Nat → List Char → Option (List Step)
  | _, [] => some []
  | 0, _ => none
  | fuel + 1, '.' :: rest => do
    let (step, rest) ← readName? rest
    return step :: (← readSteps? fuel rest)
  | fuel + 1, '[' :: rest => do
    let (step, rest) ← readIndex? rest
    return step :: (← readSteps? fuel rest)
  | _ + 1, _ => none

/-- The steps of a path, if the key is one. -/
def parse? (key : String) : Option (List Step) := do
  let (first, rest) ← readName? key.toList
  return first :: (← readSteps? rest.length rest)

/-- The steps of a key. A key that is not a path is a single name. -/
def ofKey (key : String) : List Step :=
  (parse? key).getD [.name key]

end KeyPath

end Unroll.Setting
