import Preflight.CommandLine.Arguments
import Preflight.Config.File
import Preflight.Process.Program
import Preflight.Report.Json
import Preflight.Report.Text
import Preflight.Source.Directory
import Preflight.Verification
import Preflight.Json.Writer

/-!
# Runs from the command line

The exit code is that of the verdict; it is 1, too, if there is no report or its file cannot be
written.  The report goes to a file if one is named, and otherwise to the standard output.  A
program that learns that it cannot be printed there panics.
-/

namespace Preflight.CommandLine

/-- The version of the program. -/
def version : String := "0.1.0"

/-- The answer to a question for the version. -/
def versionText : String := s!"psverify {version}\n"

/-- The answer to a question for help. -/
def helpText : String :=
  "Static verification of PowerShell, PDQ and Flask scripts before deployment\n\n" ++
  "Usage: psverify [OPTIONS] <SCRIPT>\n\n" ++
  "Arguments:\n" ++
  "  <SCRIPT>  Path to the script to verify\n\n" ++
  "Options:\n" ++
  "      --type <TYPE>        PDQ profile: deploy, inventory or connect\n" ++
  "      --target <TARGET>    Verifier to run: powershell, pdq or flask\n" ++
  "      --format <FORMAT>    Output format: text or json\n" ++
  "      --out <OUT>          Write output to a file instead of stdout\n" ++
  "      --config <CONFIG>    TOML configuration file\n" ++
  "      --skip-live-check    Do not start the Flask app for endpoint probing\n" ++
  "      --skip-syntax-check  Do not run the external PowerShell parser\n" ++
  "  -v, --verbose            Debug logging on stderr\n" ++
  "      --commit <COMMIT>    Git commit hash for tool metadata\n" ++
  "  -h, --help               Print help\n" ++
  "  -V, --version            Print version\n"

/-- Why there is no report. -/
inductive Failure where
  | configNotLoaded (path : String) (cause : Config.LoadError)
  /-- Only PDQ scripts have profiles. -/
  | profileForTarget (target : Target)
  | reportNotWritten (path : String)
  /-- A panic, and no error of the program's own. -/
  | reportNotPrinted (osError : String)
  deriving DecidableEq, Repr

namespace Failure

/-- The failure in words. -/
def message : Failure → String
  | configNotLoaded path _ => s!"failed to load config: {path}"
  | profileForTarget target =>
    s!"--type is only valid with the pdq target (got {target.label})"
  | reportNotWritten path => s!"failed to write report: {path}"
  | reportNotPrinted osError => s!"failed printing to stdout: {osError}"

/-- The exit code that goes with the failure. -/
def exitCode : Failure → Int
  | reportNotPrinted _ => 101
  | configNotLoaded .. | profileForTarget _ | reportNotWritten _ => 1

end Failure

namespace Options

/-- The settings to run with. -/
def loadConfig (o : Options) (files : FileSystem) : Except Failure Config :=
  match o.config with
  | none => .ok .default
  | some path => (Config.load files path).mapError (.configNotLoaded path)

/-- The script to verify and how. -/
def request (o : Options) : Except Failure Request :=
  let target := o.target.getD (.ofPath o.script)
  if o.profile.isSome ∧ target ≠ .pdq then .error (.profileForTarget target)
  else .ok ⟨o.script, target, ⟨o.profile, o.skipLiveCheck, o.skipSyntaxCheck⟩⟩

/-- The program that writes the report. -/
def tool (o : Options) : Tool := ⟨"psverify-cli", version, o.commit⟩

/-- The report of a run on a machine. -/
def report (o : Options) (files : FileSystem) (machine : Machine) : Except Failure Report := do
  let config ← o.loadConfig files
  let request ← o.request
  return (verify files (machine.parser config.parserCheck) (machine.host config.live o.script)
    request config o.tool).1

/-- The report in the form that is asked for. -/
def rendered (o : Options) (r : Report) : String :=
  match o.format with
  | .text => r.toText
  | .json => r.toValue.pretty

end Options

/-- What a run leaves behind. -/
structure Outcome where
  exitCode : Int
  stdout : String
  /-- A message for the error stream, if there is one. -/
  failure : Option Failure
  /-- The file that the report went to, if it could be opened. -/
  saved : Option (String × List UInt8)
  deriving DecidableEq, Repr

namespace Outcome

/-- Prints an answer and ends well, whatever comes of printing. -/
def answer (machine : Machine) (text : String) : Outcome :=
  ⟨0, (machine.print text).shown text, none, none⟩

/-- Ends with a failure before there is a report. -/
def failed (failure : Failure) : Outcome := ⟨failure.exitCode, "", some failure, none⟩

/-- Prints a report, or writes it to the file that is given for it.  The exit code is the given one
unless that fails. -/
def deliver (machine : Machine) (out : Option String) (exitCode : Int) (text : String) : Outcome :=
  match out with
  | none =>
    let printed := machine.print text
    let failure := printed.error?.map .reportNotPrinted
    ⟨(failure.map Failure.exitCode).getD exitCode, printed.shown text, failure, none⟩
  | some path =>
    let bytes := Utf8.encode text.toList
    let written := machine.write path bytes
    let failure := written.error?.map fun _ => .reportNotWritten path
    ⟨(failure.map Failure.exitCode).getD exitCode, written.shown text, failure,
      (written.saved? bytes).map (path, ·)⟩

end Outcome

/-- The outcome of a run that does not get beyond its arguments. -/
def Stop.outcome (machine : Machine) : Stop → Outcome
  | help => .answer machine helpText
  | version => .answer machine versionText
  | usage _ => ⟨1, "", none, none⟩

/-- The outcome of a run on a machine. -/
def perform (files : FileSystem) (machine : Machine) (arguments : List String) : Outcome :=
  match Options.ofArguments arguments with
  | .error stop => stop.outcome machine
  | .ok o =>
    match o.report files machine with
    | .error failure => .failed failure
    | .ok report => .deliver machine o.out report.verdict.exitCode (o.rendered report)

/-! ## Runs in a directory -/

/-- A machine on which relative paths lead into a directory: only what has a place there can be
written, and only if the machine has room for it. -/
def workingIn (directory : Directory) (machine : Machine) : Machine :=
  { machine with
    write := fun path bytes =>
      if path.startsWith "/" then machine.write path bytes
      else
        match directory.write path bytes with
        | .ok _ => machine.write path bytes
        | .error osError => .refused none osError }

/-- What a run in a directory leaves behind. -/
structure DirectoryOutcome extends Outcome where
  directory : Directory
  deriving DecidableEq, Repr

/-- The outcome of a run in a directory, `root` being the file system around it. -/
def run (directory : Directory) (root : FileSystem) (machine : Machine)
    (arguments : List String) : DirectoryOutcome :=
  let outcome := perform (directory.toFileSystem root) (workingIn directory machine) arguments
  let after :=
    match outcome.saved with
    | none => directory
    | some (path, bytes) =>
      if path.startsWith "/" then directory
      else (directory.write path bytes).toOption.getD directory
  { outcome with directory := after }

end Preflight.CommandLine
