import Preflight.CommandLine.Run

/-!
# The program

Reads the files that the arguments name, runs, and prints.  Child processes are not started here:
without a parser and without an interpreter, the run says so and goes on.
-/

namespace Preflight.CommandLine

/-- An error of the operating system by its number. -/
def systemError (code : UInt32) : String :=
  let text := match code with
    | 5 => "Input/output error"
    | 13 => "Permission denied"
    | 20 => "Not a directory"
    | 36 => "File name too long"
    | 40 => "Too many levels of symbolic links"
    | _ => "System error"
  s!"{text} (os error {code})"

/-- What is found under a path on disk. -/
def entryOnDisk (path : String) : IO Entry := do
  match ← (IO.FS.readBinFile path).toBaseIO with
  | .ok bytes => return .file bytes.toList
  | .error (.noFileOrDirectory ..) => return .missing
  | .error (.inappropriateType ..) => return .directory
  | .error (.permissionDenied _ code _) => return .unreadable (systemError code)
  | .error (.hardwareFault code _) => return .unreadable (systemError code)
  | .error _ => return .missing

/-- The paths that a run reads. -/
def Options.inputs (o : Options) : List String := o.script :: o.config.toList

/-- Tells of a failure on the error stream, and gives its exit code. -/
def Failure.tell (failure : Failure) : IO UInt32 := do
  IO.eprintln s!"Error: {failure.message}"
  return .ofNat failure.exitCode.toNat

/-- Runs with the arguments that have been read, and gives the exit code. -/
def Options.execute (o : Options) : IO UInt32 := do
  let mut files := FileSystem.empty
  for path in o.inputs do
    files := files.set path (← entryOnDisk path)
  match o.report files (.offline .none) with
  | .error failure => failure.tell
  | .ok report =>
    let text := o.rendered report
    match o.out with
    | none =>
      try IO.print text
      catch e => return ← (Failure.reportNotPrinted (toString e)).tell
    | some path =>
      try IO.FS.writeFile path text
      catch _ => return ← (Failure.reportNotWritten path).tell
    return if report.verdict.exitCode = 0 then 0 else 1

/-- Prints an answer, and does not mind if it cannot be printed. -/
def answer (text : String) : IO UInt32 := do
  try IO.print text
  catch _ => pure ()
  return 0

end Preflight.CommandLine

open Preflight.CommandLine in
/-- Verifies a script as the arguments say. -/
def main (arguments : List String) : IO UInt32 := do
  match Options.ofArguments arguments with
  | .error .help => answer helpText
  | .error .version => answer versionText
  | .error (.usage e) =>
    IO.eprintln s!"error: {e.message}"
    return 1
  | .ok options => options.execute
