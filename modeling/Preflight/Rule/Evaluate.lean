import Preflight.Rule.Basic

/-!
# Evaluating rules

The applicable rules of a list are run one after the other against one context.  A rule whose
check cannot run leaves one warning and does not keep the others from running.
-/

namespace Preflight

/-- Which rules ran, and which of them failed to. -/
structure Coverage where
  evaluated : List RuleId
  failed : List RuleId
  deriving DecidableEq, Repr, Inhabited

/-- No rule ran. -/
def Coverage.empty : Coverage := ⟨[], []⟩

/-- A finding as a diagnostic of a rule that reports with a given severity. -/
def Finding.diagnostic (id : RuleId) (severity : Severity) : Finding → Diagnostic
  | violation message => ⟨severity, message, some id⟩
  | note message => ⟨.info, message, some id⟩

namespace Rule

/-- The warning that stands for a check that could not run. -/
def failure (r : Rule) (e : CheckError) : Diagnostic :=
  ⟨.warning, s!"Check {r.id.key} ({r.title}) could not run: {e.message}", some r.id⟩

/-- What an applicable rule adds to the diagnostics when its check comes out in some way. -/
def contribution (r : Rule) (severity : Severity) :
    Except CheckError (List Finding) → List Diagnostic
  | .ok findings => findings.map (·.diagnostic r.id severity)
  | .error e => [r.failure e]

/-- The rules of a list that apply to a target and a profile, with their severities. -/
def applicable (rules : List Rule) (target : Target) (profile : Option Profile) :
    List (Rule × Severity) :=
  rules.filterMap fun r => (r.severityIn target profile).map (r, ·)

/-- Runs the applicable rules of a list and records what they find. -/
def evaluate (rules : List Rule) (context : Context) (ds : Diagnostics) :
    Coverage × Diagnostics :=
  let outcomes := (applicable rules context.target context.profile).map fun (r, severity) =>
    (r, severity, r.check context)
  let failed := outcomes.filter fun (_, _, outcome) => !outcome.toBool
  (⟨outcomes.map (·.1.id), failed.map (·.1.id)⟩,
    ds.pushAll (outcomes.flatMap fun (r, severity, outcome) => r.contribution severity outcome))

end Rule

end Preflight
