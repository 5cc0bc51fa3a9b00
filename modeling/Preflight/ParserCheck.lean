import Preflight.Config.Basic
import Preflight.Diagnostic.Basic
import Preflight.Encoding.Utf8

/-!
# The external parser

PowerShell scripts are parsed by PowerShell itself: a child process that writes each parse error to
its error stream and exits with 1 if there are any.  A parser that is not there, or that gives no
answer, costs a warning and never fails the run.
-/

namespace Preflight

/-- How a child process went. -/
inductive ChildRun where
  /-- There is no such program. -/
  | notFound
  /-- The program could not be started for another reason. -/
  | notStarted (osError : String)
  /-- It was still running when the time was up. -/
  | timedOut
  /-- Waiting for it failed. -/
  | lost (osError : String)
  /-- A signal ended it. -/
  | killed
  /-- It ended with a code, having written some bytes to its error stream. -/
  | exited (code : Int) (stderr : List UInt8)
  deriving DecidableEq, Repr, Inhabited

/-- What the parser says of a script. -/
inductive ParseOutcome where
  | valid
  /-- The parse errors. -/
  | invalid (messages : String)
  /-- The parser's program is not installed. -/
  | toolUnavailable (program : String)
  /-- There is no answer. -/
  | failed (reason : String)
  deriving DecidableEq, Repr, Inhabited

/-- The external parser: what it says of the script under a path. -/
abbrev Parser := String → ParseOutcome

namespace ParseOutcome

/-- The one diagnostic for an outcome. -/
def diagnostic : ParseOutcome → Diagnostic
  | valid => ⟨.info, "PowerShell syntax is valid", some .parserCheck⟩
  | invalid messages => ⟨.error, s!"Syntax error: {messages}", some .parserCheck⟩
  | toolUnavailable program =>
    ⟨.warning, s!"PowerShell ({program}) not found - skipping syntax check", some .parserCheck⟩
  | failed reason => ⟨.warning, s!"Could not verify syntax: {reason}", some .parserCheck⟩

/-- The messages on an error stream: its lines that are not blank, without the blanks around. -/
def messages (stderr : List Char) : List (List Char) :=
  ((Text.lines stderr).map Text.trim).filter (!·.isEmpty)

/-- The outcome for an exit code and what was written to the error stream. -/
def ofExit (code : Int) (stderr : List Char) : ParseOutcome :=
  let joined := String.ofList (List.intercalate "; ".toList (messages stderr))
  if code = 0 then valid
  else if code = 1 ∧ messages stderr ≠ [] then invalid joined
  else failed s!"exit code {code}: {joined}"

/-- The outcome of a run of the parser.  An error stream that is not UTF-8 counts as empty. -/
def ofRun (settings : ParserSettings) : ChildRun → ParseOutcome
  | .notFound => toolUnavailable settings.program
  | .notStarted osError => failed s!"spawn `{settings.program}` failed: {osError}"
  | .timedOut => failed s!"`{settings.program}` timed out after {settings.timeout}ms"
  | .lost osError => failed s!"wait for `{settings.program}` failed: {osError}"
  | .killed => failed "terminated by signal"
  | .exited code stderr => ofExit code ((Utf8.decode stderr).getD [])

end ParseOutcome

/-- The path between single quotes: quotes inside of it are doubled. -/
def quotePath (path : List Char) : List Char :=
  path.flatMap fun c => if c = '\'' then ['\'', '\''] else [c]

/-- The command in front of the quoted path. -/
def parseCommandHead : String :=
  "$errs = $null; [System.Management.Automation.Language.Parser]::ParseFile('"

/-- The command behind the quoted path. -/
def parseCommandTail : String :=
  "', [ref]$null, [ref]$errs) | Out-Null; if ($errs) \x7b $errs | ForEach-Object " ++
    "\x7b [Console]::Error.WriteLine($_.Message) \x7d; exit 1 \x7d"

/-- The PowerShell command that parses a script and writes its errors to the error stream. -/
def parseCommand (path : String) : String :=
  parseCommandHead ++ String.ofList (quotePath path.toList) ++ parseCommandTail

/-- The arguments that make PowerShell parse a script. -/
def parserArgs (path : String) : List String :=
  ["-NoProfile", "-NonInteractive", "-Command", parseCommand path]

end Preflight
