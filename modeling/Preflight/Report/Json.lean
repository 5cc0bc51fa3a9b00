import Preflight.Report.Basic
import Preflight.Diagnostic.Json

/-!
# Reports as data

The fields stand in the order of the report's own definition.  Counts and sizes are 64-bit numbers.
-/

namespace Preflight

open Json

/-- Targets by their keys. -/
def Target.ofValue? (v : Value) : Option Target := v.choice? .json Target.ofKey?

namespace Scores

/-- Reads scores. -/
def ofValue? (v : Value) : Option Scores := do
  match ← v.fields? ["inventory", "deploy", "connect"] with
  | [inventory, deploy, connect] =>
    let count := required (Value.natIn? 64)
    return ⟨← count inventory, ← count deploy, ← count connect⟩
  | _ => none

/-- The scores as data. -/
def toValue (s : Scores) : Value :=
  .object [("inventory", .number (.int s.inventory)), ("deploy", .number (.int s.deploy)),
    ("connect", .number (.int s.connect))]

end Scores

namespace Tool

/-- Reads what program wrote the report. -/
def ofValue? (v : Value) : Option Tool := do
  match ← v.fields? ["name", "version", "commit"] with
  | [name, version, commit] =>
    return ⟨← required Value.string? name, ← required Value.string? version,
      ← nullable Value.string? commit⟩
  | _ => none

/-- The program as data. -/
def toValue (t : Tool) : Value :=
  .object [("name", .string t.name), ("version", .string t.version),
    ("commit", optionValue .string t.commit)]

end Tool

namespace ScriptHash

/-- Reads a hash. -/
def ofValue? (v : Value) : Option ScriptHash := do
  match ← v.fields? ["algorithm", "value"] with
  | [algorithm, value] =>
    return ⟨← required Value.string? algorithm, ← required Value.string? value⟩
  | _ => none

/-- The hash as data. -/
def toValue (h : ScriptHash) : Value :=
  .object [("algorithm", .string h.algorithm), ("value", .string h.value)]

end ScriptHash

namespace ScriptInfo

/-- Reads what a report says of the script. -/
def ofValue? (v : Value) : Option ScriptInfo := do
  match ← v.fields? ["path", "size_bytes", "hash"] with
  | [path, size, hash] =>
    return ⟨← required Value.string? path, ← required (Value.natIn? 64) size,
      ← nullable ScriptHash.ofValue? hash⟩
  | _ => none

/-- The script as data. -/
def toValue (s : ScriptInfo) : Value :=
  .object [("path", .string s.path), ("size_bytes", .number (.int s.size)),
    ("hash", optionValue ScriptHash.toValue s.hash)]

end ScriptInfo

namespace ProfileInfo

/-- Reads a profile and how it was found. -/
def ofValue? (v : Value) : Option ProfileInfo := do
  match ← v.fields? ["profile", "source", "scores"] with
  | [profile, source, scores] =>
    return ⟨← nullable (Value.choice? .json Profile.ofKey?) profile,
      ← required (Value.choice? .json ProfileSource.ofKey?) source,
      ← nullable Scores.ofValue? scores⟩
  | _ => none

/-- The profile as data. -/
def toValue (p : ProfileInfo) : Value :=
  .object [("profile", optionValue (.string ·.key) p.profile), ("source", .string p.source.key),
    ("scores", optionValue Scores.toValue p.scores)]

end ProfileInfo

namespace RulesInfo

/-- Reads which rules ran. -/
def ofValue? (v : Value) : Option RulesInfo := do
  match ← v.fields? ["catalog_version", "evaluated", "failed"] with
  | [version, evaluated, failed] =>
    let ids := required (Value.list? RuleId.ofValue?)
    return ⟨← required Value.string? version, ← ids evaluated, ← ids failed⟩
  | _ => none

/-- The rules as data. -/
def toValue (r : RulesInfo) : Value :=
  let ids := fun (l : List RuleId) => Value.array (l.map fun id => .string id.key)
  .object [("catalog_version", .string r.catalogVersion), ("evaluated", ids r.coverage.evaluated),
    ("failed", ids r.coverage.failed)]

end RulesInfo

namespace Report

/-- The names of the fields. -/
def fieldNames : List String :=
  ["schema_version", "tool", "script", "target", "profile", "rules", "diagnostics", "verdict",
    "stage"]

/-- Reads a report.  Its verdict is taken as it was written. -/
def ofValue? (v : Value) : Option Report := do
  match ← v.fields? fieldNames with
  | [version, tool, script, target, profile, rules, diagnostics, verdict, stage] =>
    return {
      schemaVersion := ← required Value.string? version
      tool := ← required Tool.ofValue? tool
      script := ← required ScriptInfo.ofValue? script
      target := ← required Target.ofValue? target
      profile := ← required ProfileInfo.ofValue? profile
      rules := ← required RulesInfo.ofValue? rules
      diagnostics := ← required Diagnostics.ofValue? diagnostics
      verdict := ← required Verdict.ofValue? verdict
      stage := ← required (Value.choice? .json Stage.ofKey?) stage }
  | _ => none

/-- The report as data. -/
def toValue (r : Report) : Value :=
  .object [("schema_version", .string r.schemaVersion), ("tool", r.tool.toValue),
    ("script", r.script.toValue), ("target", .string r.target.key),
    ("profile", r.profile.toValue), ("rules", r.rules.toValue),
    ("diagnostics", r.diagnostics.toValue), ("verdict", r.verdict.toValue),
    ("stage", .string r.stage.key)]

end Report

end Preflight
