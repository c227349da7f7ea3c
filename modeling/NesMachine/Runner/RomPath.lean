/-!
# Paths of images

The parts of a path, and the name under which the results of its image are shown. A path is
a sequence of components between slashes; empty components and single dots lead nowhere.
-/
namespace NesMachine.Runner

def pathParts (path : String) : List String :=
  (path.toList.splitOn '/').map String.ofList

def pathComponents (path : String) : List String :=
  (pathParts path).filter fun part => part ≠ "" && part ≠ "."

/-- A file name without its last extension. A name whose only dot is its first character
has no extension. -/
def withoutExtension (name : String) : String :=
  match name.toList.reverse.dropWhile (· ≠ '.') with
  | [] | [_] => name
  | _ :: stem => String.ofList stem.reverse

/-- The name for the results of an image: its file name without the extension, or the whole
path if that names no file. -/
def romName (path : String) : String :=
  match (pathComponents path).getLast? with
  | none => path
  | some name => if name = ".." then path else withoutExtension name

end NesMachine.Runner
