import Preflight.Diagnostic.Basic

/-!
# Verdicts

A run passes exactly if it recorded no error.  Warnings and information never change the verdict.
-/

namespace Preflight

inductive Status where
  | pass
  | fail
  deriving DecidableEq, Repr, Inhabited

namespace Status

/-- The word for the status, in reports and in data. -/
def key : Status → String
  | pass => "PASS"
  | fail => "FAIL"

/-- The status of a given key. -/
def ofKey? (s : String) : Option Status := [pass, fail].find? (·.key == s)

/-- The exit code that goes with the status. -/
def exitCode : Status → Int
  | pass => 0
  | fail => 1

end Status

/-- The outcome of a run, with the number of its diagnostics. -/
structure Verdict where
  status : Status
  errorCount : Nat
  warningCount : Nat
  infoCount : Nat
  exitCode : Int
  deriving DecidableEq, Repr, Inhabited

namespace Verdict

/-- The run passed. -/
def passed (v : Verdict) : Bool := v.status == .pass

/-- The verdict on some diagnostics. -/
def of (ds : Diagnostics) : Verdict :=
  let status := if ds.errors.isEmpty then Status.pass else .fail
  ⟨status, ds.errors.length, ds.warnings.length, ds.info.length, status.exitCode⟩

end Verdict

end Preflight
