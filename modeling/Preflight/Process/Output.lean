/-!
# Output

What comes of writing to a file or of printing is not up to the program: a file can be protected, a
disk full, and a standard output closed.
-/

namespace Preflight

/-- What comes of printing a text on the standard output. -/
inductive Printed where
  | whole
  /-- What stands behind the last line end is kept back until the program ends, and lost then.  The
  program does not learn of it. -/
  | unflushed (part : String)
  /-- Only a part of the text comes out, if anything does. -/
  | cut (part : String) (osError : String)
  deriving DecidableEq, Repr, Inhabited

namespace Printed

/-- What comes out of a text that is printed. -/
def shown (text : String) : Printed → String
  | whole => text
  | unflushed part | cut part _ => part

/-- The error that the program is told of. -/
def error? : Printed → Option String
  | whole | unflushed _ => none
  | cut _ osError => some osError

end Printed

/-- What comes of writing bytes under a path. -/
inductive Written where
  /-- What is found under the path takes them all. -/
  | taken
  /-- The path is a name of the standard output. -/
  | printed (what : Printed)
  /-- The file, if it can be opened, is left with the first ones. -/
  | refused (kept : Option (List UInt8)) (osError : String)
  deriving DecidableEq, Repr, Inhabited

namespace Written

/-- What comes out on the standard output of a text that is written. -/
def shown (text : String) : Written → String
  | taken | refused .. => ""
  | printed what => what.shown text

/-- The error that the program is told of. -/
def error? : Written → Option String
  | taken => none
  | printed what => what.error?
  | refused _ osError => some osError

/-- The content of the file then, if there is one that has been opened. -/
def saved? (bytes : List UInt8) : Written → Option (List UInt8)
  | taken => some bytes
  | printed _ => none
  | refused kept _ => kept

/-- What comes of writing to the devices that are found under paths from the root, on a machine that
has nothing else there. -/
def toDevice : String → Written
  | "/dev/null" => taken
  | "/dev/stdout" => printed .whole
  | "/dev/full" => refused none "No space left on device (os error 28)"
  | _ => refused none "No such file or directory (os error 2)"

end Written

end Preflight
