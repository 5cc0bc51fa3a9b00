import Preflight.Checks.PowerShell

/-!
# Checks of PDQ scripts

PDQ runs scripts without a desktop and judges them by their exit code.  Whatever waits for a person
hangs the job, and each profile has expectations of its own.
-/

namespace Preflight.Checks

open Pattern

/-- Deploy scripts are expected to exit with a code. -/
def exitCodeMissing (c : Context) : List Finding :=
  if exitCodes c.content ≠ [] then []
  else
    [.violation ("No explicit exit codes found. PDQ Deploy uses exit codes to determine success. " ++
      "Consider adding 'exit 0' on success and 'exit 1' on failure.")]

/-- A statement that ends the script. -/
def leaving : Pattern :=
  wordBoundary ++ group 1 (alt (text "exit") (text "throw")) ++ wordBoundary

/-- Some catch block is expected to leave the script. -/
def catchWithoutExit (c : Context) : List Finding :=
  match catchBodies c.content with
  | [] => []
  | bodies =>
    if bodies.any (leaving.occursIn .insensitive) then []
    else
      [.violation ("Catch blocks don't exit with error code. " ++
        "Consider adding 'exit 1' in catch blocks for PDQ Deploy.")]

/-! ## Prompts and windows -/

/-- A credential prompt; the group is there if the prompt has a message. -/
def credentialPrompt : Pattern :=
  text "Get-Credential" ++ wordBoundary ++
    optional (group 1 (Pattern.some (.anyOf " \t") ++ text "-Message"))

/-- Some credential prompt has no message. -/
def hasBareCredentialPrompt (content : List Char) : Bool :=
  (credentialPrompt.findAll .insensitive content).any fun found =>
    (found.group? content 1).isNone

/-- A pause at the start of a line, behind a separator or as an argument of the command shell. -/
def pauseCommand : Pattern :=
  group 1 (firstOf [lineStart, one ⟨[.char ';', .char '{', .char '|'], false⟩,
    wordBoundary ++ text "cmd" ++ optional (group 2 (text ".exe")) ++ someSpace ++ text "/c"]) ++
    spaces ++ text "pause" ++ wordBoundary

/-- Prompts other than credential prompts and `Read-Host`. -/
def promptShapes : List (Pattern × String) :=
  [(text "$Host.UI.Prompt", "$Host.UI.Prompt will hang PDQ"),
    (text "[Console]::Read" ++ group 1 (alt (text "Key") (text "Line")) ++ wordBoundary,
      "[Console]::ReadKey/ReadLine will hang PDQ"),
    (pauseCommand, "'pause' command will hang PDQ")]

/-- What waits for input, all in one violation. -/
def interactivePrompts (c : Context) : List Finding :=
  let readHost :=
    if (wordBoundary ++ text "Read-Host" ++ wordBoundary).occursIn .insensitive c.content then
      ["Read-Host will hang PDQ - use parameters instead"]
    else []
  let credential :=
    if hasBareCredentialPrompt c.content then
      ["Get-Credential without parameters will hang PDQ"]
    else []
  match readHost ++ credential ++ labelsIn c.content promptShapes with
  | [] => []
  | found =>
    [.violation ("Interactive commands found (will hang PDQ): " ++ String.intercalate "; " found)]

/-- What opens a window. -/
def windowShapes : List (Pattern × String) :=
  [(text "System.Windows.Forms", "Windows Forms won't work in PDQ (no GUI)"),
    (text ".ShowDialog()", "ShowDialog() won't work in PDQ (no GUI)"),
    (text "[" ++ optional (group 1 (text "System.")) ++ text "Windows.MessageBox]",
      "MessageBox won't work in PDQ (no GUI)"),
    (wordBoundary ++ text "Out-GridView" ++ wordBoundary,
      "Out-GridView won't work in PDQ (no GUI)"),
    (wordBoundary ++ text "MsgBox" ++ wordBoundary, "MsgBox won't work in PDQ (no GUI)")]

/-- What opens a window, all in one violation. -/
def guiElements (c : Context) : List Finding :=
  match labelsIn c.content windowShapes with
  | [] => []
  | found =>
    [.violation ("GUI elements found (won't work in PDQ): " ++ String.intercalate "; " found)]

/-! ## Paths -/

/-- A quoted path below the user directories: the first group is the path up to the user, the
second one the user. -/
def userPath : Pattern :=
  one (.anyOf "\"'") ++
    group 1 (text "C:\\Users\\" ++ group 2 (Pattern.some (.noneOf "\"'\\\n")))

/-- A quoted path on a drive from D on; the first group is the path. -/
def drivePath : Pattern :=
  one (.anyOf "\"'") ++
    group 1 (one ⟨[.range 'D' 'Z'], false⟩ ++ text ":\\" ++ run (.noneOf "\"'\n"))

/-- User directories that belong to no user. -/
def sharedUsers : List (List Char) :=
  ["public".toList, "default".toList, "all users".toList]

/-- The paths of users in a text. -/
def userPaths (content : List Char) : List (List Char) :=
  (userPath.findAll .insensitive content).filterMap fun found =>
    let user := (found.group? content 2).getD []
    if user.map Char.toLower ∈ sharedUsers then none else found.group? content 1

/-- The paths on other drives in a text. -/
def drivePaths (content : List Char) : List (List Char) :=
  drivePath.captures .insensitive content

/-- The members of a list at their first occurrence. -/
def firstOccurrences {α : Type} [DecidableEq α] (seen : List α) : List α → List α
  | [] => []
  | a :: as =>
    if a ∈ seen then firstOccurrences seen as else a :: firstOccurrences (a :: seen) as

/-- Paths that hold on one machine only: user paths first, then other drives.  At most three
different ones are listed. -/
def hardcodedPaths (c : Context) : List Finding :=
  match firstOccurrences [] (userPaths c.content ++ drivePaths c.content) with
  | [] => []
  | found =>
    let shown := String.intercalate ", " ((found.take 3).map String.ofList)
    [.violation (s!"Hardcoded paths found: {shown}. " ++
      "Consider using environment variables or parameters.")]

/-! ## Expectations of the profiles -/

/-- A kind of remote session: how it is opened and removed, and what it is called. -/
structure SessionFamily where
  opening : Pattern
  closing : Pattern
  label : String
  cleanup : String

/-- PowerShell and CIM sessions. -/
def sessionFamilies : List SessionFamily :=
  [⟨wordBoundary ++ group 1 (alt (text "New") (text "Get")) ++ text "-PSSession" ++ wordBoundary,
      wordBoundary ++ text "Remove-PSSession" ++ wordBoundary, "PS Sessions", "Remove-PSSession"⟩,
    ⟨wordBoundary ++ text "New-CimSession" ++ wordBoundary,
      wordBoundary ++ text "Remove-CimSession" ++ wordBoundary, "CIM sessions",
      "Remove-CimSession"⟩]

/-- Sessions that are opened are expected to be removed. -/
def sessionCleanup (c : Context) : List Finding :=
  (sessionFamilies.filter (·.opening.occursIn .insensitive c.content)).map fun family =>
    if family.closing.occursIn .insensitive c.content then
      .note s!"{family.label} are properly cleaned up"
    else .violation s!"{family.label} created but not removed. Add {family.cleanup} cleanup."

/-- Inventory scanners are expected to return objects. -/
def structuredOutput (c : Context) : List Finding :=
  if (text "[pscustomobject]").occursIn .insensitive c.content ||
      (text "New-Object" ++ run .inLine ++ text "PSCustomObject").occursIn .insensitive c.content
  then [.note "Properly returns structured objects for Inventory"]
  else
    [.violation ("No PSCustomObject output detected. " ++
      "Inventory scanners should return structured objects.")]

/-- A switch that keeps an installer quiet. -/
def silentSwitch : Pattern :=
  alt textStart (one ⟨[.space, .char '\'', .char '"'], false⟩) ++
    alt (text "/") (text "-" ++ optional (text "-")) ++
    firstOf [text "s", text "q", text "qn", text "qb" ++ optional (text "!"), text "quiet",
      text "silent", text "verysilent", text "passive"] ++
    wordBoundary

/-- Installations are expected to be silent. -/
def silentInstall (c : Context) : List Finding :=
  if silentSwitch.occursIn .insensitive c.content then
    [.note "Silent installation parameters found"]
  else
    [.violation ("No silent installation parameters detected. " ++
      "Installations should run silently in PDQ Deploy.")]

/-- Installations are expected to be verified. -/
def installVerification (c : Context) : List Finding :=
  let looked := wordBoundary ++ group 1 (alt (text "Test-Path") (text "Get-Item")) ++ wordBoundary
  if looked.occursIn .insensitive c.content then []
  else
    [.violation ("No installation verification detected. " ++
      "Consider verifying the installation succeeded.")]

end Preflight.Checks
