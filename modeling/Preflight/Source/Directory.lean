import Preflight.Source.FileSystem
import Preflight.Text.Lines

/-!
# Directory trees

A directory tree holds files by the lists of names that lead to them.  A path is followed name by
name, and every name but the last has to be that of a directory.  The top of the tree is its own
parent, as the root of a file system is.
-/

namespace Preflight

/-- The files below a directory.  A list of names that leads on to a file is a directory, too. -/
structure Directory where
  files : List (List String × List UInt8)
  deriving DecidableEq, Repr, Inhabited

namespace Directory

/-- What a list of names leads to. -/
def entry (d : Directory) (names : List String) : Entry :=
  match d.files.lookup names with
  | some bytes => .file bytes
  | none =>
    if names.isEmpty || d.files.any fun (other, _) => names.isPrefixOf other then .directory
    else .missing

/-- The names in a path. -/
def names (path : String) : List String :=
  (List.splitOn '/' path.toList).map String.ofList

/-- Follows names from a place in the tree.  No name leads on from what is no directory. -/
def follow (d : Directory) (place : List String) : List String → Except String (List String)
  | [] => .ok place
  | name :: rest =>
    match d.entry place with
    | .directory =>
      d.follow
        (if name = "" ∨ name = "." then place
          else if name = ".." then place.dropLast
          else place ++ [name]) rest
    | .missing => .error "No such file or directory (os error 2)"
    | _ => .error "Not a directory (os error 20)"

/-- The place of a relative path in the tree.  The empty path leads nowhere. -/
def locate (d : Directory) (path : String) : Except String (List String) :=
  if path.isEmpty then .error "No such file or directory (os error 2)"
  else d.follow [] (names path)

/-- The file system that holds the tree for relative paths, and something else for the paths from
the root. -/
def toFileSystem (d : Directory) (root : FileSystem) : FileSystem := fun path =>
  if path.startsWith "/" then root path
  else
    match d.locate path with
    | .ok place => d.entry place
    | .error _ => .missing

/-- Writes a file under a relative path.  Its directory has to be there. -/
def write (d : Directory) (path : String) (bytes : List UInt8) : Except String Directory := do
  let place ← d.locate path
  match d.entry place with
  | .directory => .error "Is a directory (os error 21)"
  | .missing =>
    if (names path).getLast? = some "" then .error "Is a directory (os error 21)"
    else return ⟨d.files ++ [(place, bytes)]⟩
  | _ => return ⟨d.files.map fun (other, old) => (other, if other = place then bytes else old)⟩

end Directory

end Preflight
