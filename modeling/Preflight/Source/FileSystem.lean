import Preflight.Encoding.Script
import Preflight.Digest.Sha256

/-!
# Files

A file system says for every path what is there.  Reading fails with an error of the operating
system where there is nothing, a directory, or a file that cannot be read.
-/

namespace Preflight

/-- What is found under a path. -/
inductive Entry where
  | missing
  | directory
  | file (bytes : List UInt8)
  /-- A file whose bytes cannot be read, with the system's error. -/
  | unreadable (osError : String)
  deriving DecidableEq, Repr, Inhabited

/-- What is found under every path. -/
abbrev FileSystem := String → Entry

namespace Entry

/-- A regular file, readable or not. -/
def isFile : Entry → Bool
  | file _ | unreadable _ => true
  | missing | directory => false

/-- The bytes, or the system's error. -/
def read : Entry → Except String (List UInt8)
  | file bytes => .ok bytes
  | missing => .error "No such file or directory (os error 2)"
  | directory => .error "Is a directory (os error 21)"
  | unreadable osError => .error osError

end Entry

namespace FileSystem

/-- The file system in which a path has a new entry and all others keep theirs. -/
def set (files : FileSystem) (path : String) (entry : Entry) : FileSystem :=
  fun other => if other = path then entry else files other

/-- A file system that holds nothing. -/
def empty : FileSystem := fun _ => .missing

end FileSystem

/-- A script that has been read, identified by a hash of its bytes. -/
structure Script where
  path : String
  bytes : List UInt8
  deriving DecidableEq, Repr, Inhabited

namespace Script

/-- Reads a script. -/
def read (files : FileSystem) (path : String) : Except String Script :=
  match (files path).read with
  | .ok bytes => .ok ⟨path, bytes⟩
  | .error osError => .error s!"failed to read script: {path}: {osError}"

/-- The text of the script, if it is text. -/
def text? (s : Script) : Option (List Char) := decodeScript s.bytes

end Script

end Preflight
