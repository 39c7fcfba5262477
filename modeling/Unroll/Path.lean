import Unroll.Text.Split

/-!
# Paths

Paths as texts, and as the names between their slashes. An empty name and `.` stay where they are.
-/

namespace Unroll.Path

def isAbsolute (path : String) : Bool :=
  path.toList.head? == some '/'

/-- A path taken from a base. An absolute path does not depend on it, and a slash at the end of the
base is not doubled. -/
def join (base path : String) : String :=
  if isAbsolute path then path
  else
    match base.toList.getLast? with
    | none => path
    | some '/' => base ++ path
    | some _ => base ++ "/" ++ path

def isIdle (name : String) : Bool :=
  name == "" || name == "."

/-- The names that a path goes through, without those that stay where they are. -/
def names (path : String) : List String :=
  (Text.split '/' path).filter (!isIdle ·)

/-- What is left of two lists without their common beginning. -/
def afterCommon : List String → List String → List String × List String
  | a :: as, b :: bs => if a = b then afterCommon as bs else (a :: as, b :: bs)
  | as, bs => (as, bs)

/-- The way from a base to a path, both absolute. -/
def relativeTo (base path : String) : String :=
  let (down, up) := afterCommon (names path) (names base)
  "/".intercalate (up.map (fun _ => "..") ++ down)

/-- The path with something appended to its last name, if that is the name of an entry. -/
def appendToName? (suffix path : String) : Option String :=
  match (Text.split '/' path).reverse.dropWhile isIdle with
  | [] => none
  | name :: above =>
    if name == ".." then none
    else some ("/".intercalate ((name ++ suffix) :: above).reverse)

end Unroll.Path
