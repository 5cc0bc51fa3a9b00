import Preflight.Live.Run
import Preflight.ParserCheck
import Preflight.Process.Output

/-!
# Programs and child processes

A program that is installed can be started as a child process.  The child ends by itself when its
lifetime is over, or is terminated; whether it has ended is seen by waiting for it, which never
takes longer than a given time.  Times are in milliseconds.

The external parser and the Flask server are such children.
-/

namespace Preflight

/-- How a child ends that nobody terminates. -/
inductive Ending where
  | exit (code : UInt8)
  | signal
  deriving DecidableEq, Repr, Inhabited

/-- What a program does: it writes to its error stream, lives for a while, and ends. -/
structure Program where
  stderr : List UInt8
  lifetime : Nat
  ending : Ending
  deriving DecidableEq, Repr, Inhabited

/-- The installed programs, by their names. -/
abbrev Programs := String → Option Program

/-- Why a program could not be started. -/
inductive StartError where
  | notFound
  /-- Neither names nor arguments can hold a NUL character. -/
  | nulCharacter
  deriving DecidableEq, Repr, Inhabited

/-- The failure in words. -/
def StartError.message : StartError → String
  | notFound => "No such file or directory (os error 2)"
  | nulCharacter => "nul byte found in provided data"

/-- A running or ended child process. -/
structure Child where
  /-- How long it still lives. -/
  remaining : Nat
  deriving DecidableEq, Repr, Inhabited

namespace Child

/-- Waits until the child has ended, or for the given time: whether it has, and the child then. -/
def wait (c : Child) (time : Nat) : Bool × Child := (c.remaining ≤ time, ⟨c.remaining - time⟩)

/-- Orders the child to end, which takes it a moment if it has not ended yet. -/
def terminate (c : Child) : Child := ⟨min c.remaining 1⟩

end Child

namespace Programs

/-- No programs. -/
def none : Programs := fun _ => .none

/-- Finds the program to start. -/
def start (programs : Programs) (name : String) (args : List String) :
    Except StartError Program :=
  if (name :: args).any (·.toList.contains '\x00') then .error .nulCharacter
  else
    match programs name with
    | some program => .ok program
    | .none => .error .notFound

/-- The failure to start a program, in words. -/
def failureText (name : String) (e : StartError) : String :=
  s!"failed to start `{name}`: {e.message}"

/-- Starts a child process. -/
def launch (programs : Programs) (name : String) (args : List String) : Except String Child :=
  match programs.start name args with
  | .ok program => .ok ⟨program.lifetime⟩
  | .error e => .error (failureText name e)

/-- Runs the external parser on a script, for as long as the settings allow. -/
def runParser (programs : Programs) (settings : ParserSettings) (path : String) : ChildRun :=
  match programs.start settings.program (parserArgs path) with
  | .error .notFound => .notFound
  | .error e => .notStarted e.message
  | .ok program =>
    if program.lifetime ≤ settings.timeout then
      match program.ending with
      | .exit code => .exited code.toNat program.stderr
      | .signal => .killed
    else .timedOut

/-- The external parser. -/
def parser (programs : Programs) (settings : ParserSettings) : Parser := fun path =>
  .ofRun settings (programs.runParser settings path)

/-- The surroundings of a live probe of `app` in which requests are answered in a given way. -/
def host (programs : Programs) (settings : LiveSettings) (app : String)
    (answer : Nat → Except String Reply) : Host :=
  let child := programs.launch settings.program (settings.args ++ [app])
  { launch := child.map fun _ => ()
    answer
    terminate := .ok ()
    wait := child.map fun c => (c.terminate.wait settings.shutdownTimeout).1 }

end Programs

/-- What runs find on the machine: the external parser, the surroundings of live probes of an
application, and what comes of writing bytes under a path and of printing a text. -/
structure Machine where
  parser : ParserSettings → Parser
  host : LiveSettings → String → Host
  write : String → List UInt8 → Written
  print : String → Printed

/-- A machine with some programs installed, on which no server answers.  There is room for what is
written below the working directory, and the standard output takes everything. -/
def Machine.offline (programs : Programs) : Machine where
  parser := programs.parser
  host := fun settings app =>
    programs.host settings app fun _ => .error "error sending request"
  write := fun path _ => if path.startsWith "/" then .toDevice path else .taken
  print := fun _ => .whole

end Preflight
