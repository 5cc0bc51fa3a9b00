import Preflight.Checks.Secrets
import Preflight.Text.Lines

/-!
# Checks of PowerShell scripts

Checks that generic and PDQ scripts share, and the conventions of the toolkit: result logging and
privilege checks.  PowerShell does not tell letter cases apart, so all patterns are matched
insensitively, except where the case of a name is the very question.
-/

namespace Preflight.Checks

open Pattern

/-- The start of a try block. -/
def tryOpener : Pattern := wordBoundary ++ text "try" ++ spaces ++ char '{'

/-- The start of a catch block, with any number of bracketed exception types. -/
def catchOpener : Pattern :=
  wordBoundary ++ text "catch" ++ spaces ++
    star (text "[" ++ run (.noneOf "]\n") ++ text "]" ++ spaces ++ optional (text ",") ++ spaces) ++
    char '{'

/-- The start of a parameter block. -/
def paramOpener : Pattern := wordBoundary ++ text "param" ++ spaces ++ text "("

/-- A function declaration at the start of a line; the name is the first group. -/
def functionDeclaration : Pattern :=
  lineStart ++ spaces ++ text "function" ++ someSpace ++
    group 1 (Pattern.some ⟨[.space, .char '{', .char '('], true⟩)

/-- An exit statement with a code; the code is the first group. -/
def exitStatement : Pattern :=
  wordBoundary ++ text "exit" ++ someSpace ++
    group 1 (alt (text "0x" ++ Pattern.some ⟨[.range '0' '9', .range 'a' 'f'], false⟩)
      (Pattern.some .digit)) ++
    wordBoundary

/-- The names of the declared functions. -/
def functionNames (content : List Char) : List (List Char) :=
  functionDeclaration.captures .insensitive content

/-- The codes of the exit statements, as written. -/
def exitCodes (content : List Char) : List (List Char) :=
  exitStatement.captures .insensitive content

/-- The catch blocks' bodies. -/
def catchBodies (content : List Char) : List (List Char) :=
  catchOpener.bodiesAfter .insensitive .braces content

/-- The script sets how errors are acted upon. -/
def setsErrorAction (content : List Char) : Bool :=
  (text "-ErrorAction" ++ wordBoundary).occursIn .insensitive content ||
    (text "$ErrorActionPreference").occursIn .insensitive content

/-- The needle occurs in the text when both are in lower case. -/
def mentions (content : List Char) (needle : String) : Bool :=
  Text.contains (Text.lowercase needle.toList) (Text.lowercase content)

/-! ## Output and error handling -/

/-- Output that reaches the console only.  It breaks Inventory scanners. -/
def consoleOutput (c : Context) : List Finding :=
  let n := (text "Write-Host" ++ someSpace).count .insensitive c.content
  if n = 0 then [.note "Properly uses Write-Output instead of Write-Host"]
  else if c.profile = Option.some .inventory ∧ c.target = .pdq then
    [.violation (s!"CRITICAL: Found {n} Write-Host usage(s) in Inventory scanner. " ++
      "Console-only output breaks structured data collection! " ++
      "Use Write-Output or return objects directly.")]
  else
    [.violation (s!"Found {n} Write-Host usage(s). Console-only output bypasses the pipeline; " ++
      "consider Write-Output or Write-Verbose.")]

/-- As many catch blocks as try blocks are expected. -/
def tryCatchMismatch (c : Context) : List Finding :=
  let tries := tryOpener.count .insensitive c.content
  let catches := catchOpener.count .insensitive c.content
  if tries ≠ catches then
    [.violation s!"Mismatched try-catch blocks: {tries} try, {catches} catch"]
  else []

/-- Some error handling is expected: a try block, or, except in the toolkit, an error action. -/
def noErrorHandling (c : Context) : List Finding :=
  let hasTry := tryOpener.occursIn .insensitive c.content
  match c.target with
  | .powerShell =>
    if hasTry then []
    else [.violation "No try-catch blocks found - consider adding error handling"]
  | _ =>
    if hasTry || setsErrorAction c.content then []
    else
      [.violation ("No error handling found (try-catch or -ErrorAction). " ++
        "Scripts should handle errors gracefully.")]

/-- An error action is expected. -/
def noErrorAction (c : Context) : List Finding :=
  if setsErrorAction c.content then [] else [.violation "No ErrorAction settings found"]

/-- Calls that log an error. -/
def loggingCalls : List String := ["Add-ToolResult", "Write-Error", "Write-Warning", "Write-Host"]

/-- Every catch block is expected to log; blocks are numbered from one. -/
def silentCatch (c : Context) : List Finding :=
  let silent := fun (body : List Char) => !loggingCalls.any (mentions body)
  ((catchBodies c.content).zipIdx 1).filterMap fun (body, n) =>
    if silent body then Option.some (.violation s!"Catch block #{n} doesn't log errors") else none

/-! ## Exit codes -/

/-- The number that `digits` go on to, read digit by digit behind `value`.  There is none if a
character is no digit of the base or the number takes more than 64 bits. -/
def readWord? (base value : Nat) : List Char → Option Nat
  | [] => Option.some value
  | c :: digits =>
    match Notation.hexValue? c with
    | Option.some digit =>
      if digit < base ∧ base * value + digit < 18446744073709551616 then
        readWord? base (base * value + digit) digits
      else none
    | none => none

/-- The number that some digits stand for. -/
def word? (base : Nat) (digits : List Char) : Option Nat :=
  if digits = [] then none else readWord? base 0 digits

/-- The value of a code, in decimal or behind `0x` in hexadecimal. -/
def exitCodeValue? (code : List Char) : Option Nat :=
  match code with
  | '0' :: x :: digits => if x = 'x' ∨ x = 'X' then word? 16 digits else word? 10 code
  | _ => word? 10 code

/-- The code is zero.  Any other code, one without a value included, stands for failure. -/
def isSuccessCode (code : List Char) : Bool := exitCodeValue? code == Option.some 0

/-- Scripts that exit are expected to exit with failure codes too. -/
def successOnlyExit (c : Context) : List Finding :=
  match exitCodes c.content with
  | [] => []
  | codes =>
    match codes.any isSuccessCode, codes.any (!isSuccessCode ·) with
    | true, true => [.note s!"Uses exit codes properly ({codes.length} exit statements)"]
    | true, false =>
      [.violation "Only success exit codes found. Consider adding failure exit codes."]
    | false, _ => [.note "Exit codes found but no explicit success (exit 0)"]

/-! ## Parameters and names -/

/-- Parameter blocks are expected to be bound and validated. -/
def paramValidation (c : Context) : List Finding :=
  match paramOpener.bodiesAfter .insensitive .parens c.content with
  | [] => []
  | blocks =>
    let hasBinding :=
      (text "[CmdletBinding" ++ spaces ++ text "(").occursIn .insensitive c.content
    let validated := blocks.countP fun b => mentions b "[Parameter" || mentions b "[Validate"
    let binding :=
      if hasBinding then []
      else
        [Finding.violation ("param() block found but no [CmdletBinding()]. " ++
          "Add [CmdletBinding()] for advanced function features.")]
    let validation :=
      if validated = 0 then [Finding.violation "No parameter validation attributes found"]
      else if hasBinding then [.note s!"Found {validated} parameter validation block(s)"]
      else []
    binding ++ validation

/-- The start of a name in the form `Verb-Noun`. -/
def verbNoun : Pattern :=
  textStart ++ one ⟨[.range 'A' 'Z'], false⟩ ++ Pattern.some ⟨[.range 'a' 'z'], false⟩ ++
    text "-" ++ one ⟨[.range 'A' 'Z'], false⟩

/-- What is wrong with a function's name. -/
def namingIssue? (name : List Char) : Option String :=
  if !name.contains '-' then Option.some s!"{String.ofList name} (missing verb-noun format)"
  else if !verbNoun.occursIn .sensitive name then
    Option.some s!"{String.ofList name} (non-standard casing)"
  else none

/-- Function names are expected in the form `Verb-Noun`.  At most three exceptions are listed. -/
def namingConvention (c : Context) : List Finding :=
  match functionNames c.content with
  | [] => []
  | names =>
    match names.filterMap namingIssue? with
    | [] => [.note s!"Function naming follows conventions ({names.length} functions)"]
    | issues =>
      let shown := String.intercalate ", " (issues.take 3)
      let hidden := if issues.length > 3 then s!" (and {issues.length - 3} more)" else ""
      [.violation s!"Function naming issues: {shown}{hidden}"]

/-! ## Toolkit conventions -/

/-- Operations that need administrator rights. -/
def adminOperations : List (Pattern × String) :=
  let word := fun (s : String) => (wordBoundary ++ text s ++ wordBoundary, s)
  [word "Set-ItemProperty",
    (wordBoundary ++ text "New-Item" ++ wordBoundary ++ run .inLine ++ text "HKLM",
      "New-Item HKLM"),
    word "DISM", word "SFC", word "Enable-PSRemoting", word "Set-Service", word "Stop-Service",
    word "Start-Service", word "Restart-Computer", word "Checkpoint-Computer"]

/-- Administrator operations are expected to be guarded by a privilege check. -/
def adminCheck (c : Context) : List Finding :=
  match labelsIn c.content adminOperations with
  | [] => []
  | used =>
    if mentions c.content "Test-IsAdmin" then [.note "Admin privilege checks found"]
    else
      let shown := String.intercalate ", " (used.take 3)
      [.violation (s!"Script uses admin operations ({shown}) but doesn't check for admin " ++
        "privileges with Test-IsAdmin")]

/-- How many results are logged. -/
def resultCalls (content : List Char) : Nat :=
  (text "Add-ToolResult").count .insensitive content

/-- Scripts with functions are expected to log results. -/
def resultLoggingMissing (c : Context) : List Finding :=
  if functionNames c.content ≠ [] ∧ resultCalls c.content = 0 then
    [.violation "No Add-ToolResult calls found - tools must log results"]
  else []

/-- One logged result for every two functions is expected. -/
def resultLoggingSparse (c : Context) : List Finding :=
  let functions := (functionNames c.content).length
  let calls := resultCalls c.content
  if functions = 0 ∨ calls = 0 then []
  else if calls * 2 < functions then
    [.violation (s!"Only {calls} Add-ToolResult calls for {functions} functions - " ++
      "ensure all tools log results")]
  else [.note s!"Found {calls} result logging calls"]

end Preflight.Checks
