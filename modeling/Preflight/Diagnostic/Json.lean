import Preflight.Verdict
import Preflight.Json.Decode

/-!
# Diagnostics and verdicts as data
-/

namespace Preflight

open Json

/-- Rule identifiers by their keys. -/
def RuleId.ofValue? (v : Value) : Option RuleId := v.choice? .json RuleId.ofKey?

/-- Severities by their keys. -/
def Severity.ofValue? (v : Value) : Option Severity := v.choice? .json Severity.ofKey?

/-- A value that may be absent. -/
def optionValue {α : Type} (toValue : α → Value) : Option α → Value
  | none => .null
  | some a => toValue a

namespace Diagnostic

/-- Reads a diagnostic. -/
def ofValue? (v : Value) : Option Diagnostic := do
  match ← v.fields? ["severity", "message", "rule_id"] with
  | [severity, message, ruleId] =>
    return ⟨← required Severity.ofValue? severity, ← required Value.string? message,
      ← nullable RuleId.ofValue? ruleId⟩
  | _ => none

/-- The diagnostic as data. -/
def toValue (d : Diagnostic) : Value :=
  .object [("severity", .string d.severity.key), ("message", .string d.message),
    ("rule_id", optionValue (.string ·.key) d.ruleId)]

end Diagnostic

namespace Diagnostics

/-- Reads diagnostics by severity. -/
def ofValue? (v : Value) : Option Diagnostics := do
  match ← v.fields? ["errors", "warnings", "info"] with
  | [errors, warnings, info] =>
    let list := required (Value.list? Diagnostic.ofValue?)
    return ⟨← list errors, ← list warnings, ← list info⟩
  | _ => none

/-- The diagnostics as data. -/
def toValue (ds : Diagnostics) : Value :=
  let list := fun (l : List Diagnostic) => Value.array (l.map Diagnostic.toValue)
  .object [("errors", list ds.errors), ("warnings", list ds.warnings), ("info", list ds.info)]

end Diagnostics

namespace Verdict

/-- Reads a verdict as it was written. -/
def ofValue? (v : Value) : Option Verdict := do
  match ← v.fields? ["status", "error_count", "warning_count", "info_count", "exit_code"] with
  | [status, errorCount, warningCount, infoCount, exitCode] =>
    let count := required (Value.natIn? 64)
    return ⟨← required (Value.choice? .json Status.ofKey?) status, ← count errorCount,
      ← count warningCount, ← count infoCount,
      ← required (Value.intIn? (-0x80000000) 0x7FFFFFFF) exitCode⟩
  | _ => none

/-- The verdict as data. -/
def toValue (v : Verdict) : Value :=
  .object [("status", .string v.status.key), ("error_count", .number (.int v.errorCount)),
    ("warning_count", .number (.int v.warningCount)), ("info_count", .number (.int v.infoCount)),
    ("exit_code", .number (.int v.exitCode))]

end Verdict

end Preflight
