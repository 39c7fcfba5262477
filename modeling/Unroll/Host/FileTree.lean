import Unroll.Host

/-!
# File trees in memory

A tree of files and directories. A path leads through it name by name: every name but the last has
to be the name of a directory, and `..` goes back to the directory above. Whatever holds an entry is
a directory.
-/

namespace Unroll

structure FileTree where
  /-- The files, by the names on the way from the root. -/
  files : List (List String × ByteArray)
  /-- Directories, which may be empty. -/
  directories : List (List String)

namespace FileTree

def empty : FileTree :=
  { files := [], directories := [[]] }

def addFile (t : FileTree) (path : List String) (content : ByteArray) : FileTree :=
  { t with files := (path, content) :: t.files }

def addDirectory (t : FileTree) (path : List String) : FileTree :=
  { t with directories := path :: t.directories }

/-- The content of a file, as it was added last. -/
def content? (t : FileTree) (path : List String) : Option ByteArray :=
  (t.files.find? (·.1 == path)).map (·.2)

def isDirectory (t : FileTree) (path : List String) : Bool :=
  t.directories.any path.isPrefixOf ||
    t.files.any fun (file, _) => path.isPrefixOf file && path != file

/-- Where names lead from a place in the tree. -/
def walk? (t : FileTree) (place : List String) : List String → Option (List String)
  | [] => some place
  | name :: rest =>
    if !t.isDirectory place then none
    else if Path.isIdle name then t.walk? place rest
    else if name == ".." then t.walk? place.dropLast rest
    else t.walk? (place ++ [name]) rest

/-- The content of the regular file at an absolute path. -/
def read (t : FileTree) (path : String) : Option ByteArray := do
  t.content? (← t.walk? [] (Text.split '/' path))

end FileTree

end Unroll
