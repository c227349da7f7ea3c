import NesMachine.Runner.RomPath

/-!
# File trees

Files in memory, by their paths below a directory, and what reading a path gives. A
directory is there if some file lies below it. Of what lies outside the tree nothing is
known but that its root and the directories above the tree are directories.
-/
namespace NesMachine.Runner

inductive ReadError where
  | notFound
  | isDirectory
  | notDirectory
  deriving DecidableEq, Repr

/-- The text of an error, as the operating system has it. -/
def ReadError.message : ReadError → String
  | .notFound => "No such file or directory (os error 2)"
  | .isDirectory => "Is a directory (os error 21)"
  | .notDirectory => "Not a directory (os error 20)"

/-- Files with the components of their paths; of two files with one path the first one in
the list is there. -/
structure FileTree where
  files : List (List String × Array UInt8)

namespace FileTree

/-- The tree of files that are written one after the other. -/
def ofFiles (files : List (String × Array UInt8)) : FileTree :=
  ⟨(files.map fun (path, contents) => (pathComponents path, contents)).reverse⟩

/-- The contents of the file with the given components. -/
def file? (tree : FileTree) (components : List String) : Option (Array UInt8) :=
  (tree.files.find? fun (path, _) => path = components).map Prod.snd

def hasDirectory (tree : FileTree) (components : List String) : Bool :=
  tree.files.any fun (path, _) => components.isPrefixOf path && path ≠ components

/-- Follows the parts of a path from a directory outside the tree. -/
def readOutside : List String → Except ReadError (Array UInt8)
  | [] => .error .isDirectory
  | part :: rest =>
    if part = "" ∨ part = "." ∨ part = ".." then readOutside rest else .error .notFound

/-- Follows the parts of a path from a directory in the tree. -/
def readFrom (tree : FileTree) (directory : List String) :
    List String → Except ReadError (Array UInt8)
  | [] => .error .isDirectory
  | part :: rest =>
    if part = "" ∨ part = "." then tree.readFrom directory rest
    else if part = ".." then
      if directory = [] then readOutside rest else tree.readFrom directory.dropLast rest
    else
      let place := directory ++ [part]
      match tree.file? place with
      | some contents => if rest = [] then .ok contents else .error .notDirectory
      | none => if tree.hasDirectory place then tree.readFrom place rest else .error .notFound

def read (tree : FileTree) (path : String) : Except ReadError (Array UInt8) :=
  match pathParts path with
  | [] | [""] => .error .notFound
  | "" :: parts => readOutside parts
  | parts => tree.readFrom [] parts

end FileTree
end NesMachine.Runner
