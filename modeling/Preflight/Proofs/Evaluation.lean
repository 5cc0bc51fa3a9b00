import Preflight.Proofs.Diagnostics
import Preflight.Rule.Catalog
import Preflight.Rule.Evaluate

/-!
# What the evaluation of rules records

`recorded` lists the diagnostics of an evaluation in order: the applicable
rules one after the other, each with its contribution.  Evaluating appends
this list and names the applicable rules (`evaluate_diagnostics`,
`evaluate_evaluated`).

Of the list, only violations of rules that report errors are errors.
Notes, warnings and checks that could not run are not
(`countP_error_recorded`).
-/

namespace Preflight

/-- The finding counts with the severity of its rule. -/
def Finding.isViolation : Finding → Bool
  | violation _ => true
  | note _ => false

namespace Rule

/-! ## Rules that apply -/

/-- The rules that apply are rules of the list. -/
theorem mem_applicable {rules : List Rule} {target : Target}
    {profile : Option Profile} {r : Rule} {active : Severity}
    (h : (r, active) ∈ applicable rules target profile) :
    r ∈ rules ∧ r.severityIn target profile = some active := by
  obtain ⟨s, hs, hmap⟩ := List.mem_filterMap.mp h
  obtain ⟨severity, hseverity, hpair⟩ := Option.map_eq_some_iff.mp hmap
  cases hpair
  exact ⟨hs, hseverity⟩

/-- A rule with one severity in every column reports with that one. -/
theorem eq_of_severityIn_uniform {r : Rule} {severity active : Severity}
    (hr : r.severity = .uniform severity) {target : Target}
    {profile : Option Profile}
    (hactive : r.severityIn target profile = some active) :
    active = severity := by
  rw [severityIn, hr] at hactive
  split at hactive
  · generalize (if target = .pdq then profile else none) = active' at hactive
    rcases active' with _ | _ | _ | _ <;> exact (Option.some.inj hactive).symm
  · cases hactive

/-- A rule applies to its targets only. -/
theorem mem_targets_of_severityIn {r : Rule} {target : Target}
    {profile : Option Profile} {active : Severity}
    (hactive : r.severityIn target profile = some active) :
    target ∈ r.targets := by
  rw [severityIn] at hactive
  split at hactive
  · rename_i htarget
    exact htarget
  · cases hactive

/-! ## The diagnostics of an evaluation -/

/-- All that the applicable rules of a list have to say, in order. -/
def recorded (rules : List Rule) (context : Context) : List Diagnostic :=
  (applicable rules context.target context.profile).flatMap fun (r, severity) =>
    r.contribution severity (r.check context)

/-- The identifiers of the rules of a list that apply. -/
def applicableIds (rules : List Rule) (target : Target)
    (profile : Option Profile) : List RuleId :=
  (applicable rules target profile).map (·.1.id)

theorem evaluate_diagnostics (rules : List Rule) (context : Context)
    (ds : Diagnostics) :
    (evaluate rules context ds).2 = ds.pushAll (recorded rules context) := by
  rw [evaluate, recorded, List.flatMap_map]

theorem evaluate_evaluated (rules : List Rule) (context : Context)
    (ds : Diagnostics) :
    (evaluate rules context ds).1.evaluated =
      applicableIds rules context.target context.profile := by
  rw [evaluate, applicableIds, List.map_map]
  rfl

/-- Some rule of the catalog applies to every script. -/
theorem applicableIds_catalog_ne_nil (target : Target)
    (profile : Option Profile) : applicableIds catalog target profile ≠ [] := by
  have hsecret : RuleId.embeddedSecret ∈ applicableIds catalog target profile := by
    cases target <;> rcases profile with _ | _ | _ | _ <;> decide
  exact List.ne_nil_of_mem hsecret

/-! ## Errors among them -/

/-- The violations that the check of a rule finds. -/
def violations (r : Rule) (context : Context) : List Finding :=
  match r.check context with
  | .ok findings => findings.filter (·.isViolation)
  | .error _ => []

/-- The violations of the rules of a list that report errors. -/
def errorViolations (rules : List Rule) (context : Context) : List Finding :=
  (rules.filter fun r =>
      r.severityIn context.target context.profile = some .error).flatMap
    (·.violations context)

theorem countP_error_findings (id : RuleId) (severity : Severity)
    (findings : List Finding) :
    (findings.map (·.diagnostic id severity)).countP (·.severity = .error) =
      if severity = .error then (findings.filter (·.isViolation)).length
      else 0 := by
  induction findings with
  | nil => simp
  | cons f findings ih =>
    rw [List.map_cons, List.countP_cons, List.filter_cons, ih]
    cases f with
    | violation message =>
      by_cases h : severity = .error
      · simp [Finding.diagnostic, Finding.isViolation, h]
      · simp [Finding.diagnostic, h]
    | note message => simp [Finding.diagnostic, Finding.isViolation]

/-- A rule contributes errors only where it reports errors, and then one for
each violation. -/
theorem countP_error_contribution (r : Rule) (severity : Severity)
    (context : Context) :
    (r.contribution severity (r.check context)).countP (·.severity = .error) =
      if severity = .error then (r.violations context).length else 0 := by
  rw [violations]
  cases r.check context with
  | ok findings => exact countP_error_findings r.id severity findings
  | error e => simp [contribution, failure]

theorem countP_error_recorded (rules : List Rule) (context : Context) :
    (recorded rules context).countP (·.severity = .error) =
      (errorViolations rules context).length := by
  induction rules with
  | nil => rfl
  | cons r rules ih =>
    rw [recorded, applicable, errorViolations] at ih ⊢
    rw [List.filterMap_cons, List.filter_cons]
    cases hsev : r.severityIn context.target context.profile with
    | none => simpa using ih
    | some severity =>
      simp only [Option.map_some, List.flatMap_cons, List.countP_append,
        countP_error_contribution, ih]
      by_cases h : severity = .error
      · simp [h]
      · simp [h]

end Rule

end Preflight
