import Mathlib.Data.List.Basic
import Preflight.Proofs.Diagnostics
import Preflight.Proofs.Evaluation

/-!
# Diagnostics without their words

The tag of a diagnostic is its severity and the rule that it comes from.  Two
texts are judged alike when the catalog records the same tags for them, whatever
the messages say.

* `map_tag_contribution`: the tags that a rule contributes are decided by the
  kinds of its findings.
* `keptTags_congr`: rules that find the same kinds of findings in two contexts
  record the same tags.
* `tagsBeside_evaluate`, `errors_length_evaluate`: the tags of one severity and
  the number of errors, from the tags that are recorded.
-/

namespace Preflight

/-- The severity of a diagnostic and the rule that it comes from. -/
def Diagnostic.tag (d : Diagnostic) : Severity × Option RuleId :=
  (d.severity, d.ruleId)

namespace Rule

/-! ## What a rule contributes -/

/-- The tag of a diagnostic is decided by the kind of the finding. -/
theorem tag_diagnostic (f : Finding) (id : RuleId) (active : Severity) :
    (f.diagnostic id active).tag =
      (if f.isViolation then active else .info, some id) := by
  cases f <;> rfl

/-- The tags of what a rule contributes, from the kinds of its findings. -/
def tagsOfKinds (r : Rule) (active : Severity) :
    Except CheckError (List Bool) → List (Severity × Option RuleId)
  | .ok kinds =>
    kinds.map fun violation => (if violation then active else .info, some r.id)
  | .error _ => [(.warning, some r.id)]

theorem map_tag_contribution (r : Rule) (active : Severity)
    (outcome : Except CheckError (List Finding)) :
    (r.contribution active outcome).map Diagnostic.tag =
      r.tagsOfKinds active (outcome.map (·.map (·.isViolation))) := by
  cases outcome with
  | error e => rfl
  | ok findings =>
    show (findings.map (·.diagnostic r.id active)).map Diagnostic.tag =
      (findings.map (·.isViolation)).map _
    rw [List.map_map, List.map_map]
    exact List.map_congr_left fun f _ => tag_diagnostic f r.id active

/-- What a rule contributes names the rule, and is an error only where the rule
reports errors. -/
theorem tag_of_mem_tagsOfKinds {r : Rule} {active : Severity}
    {kinds : Except CheckError (List Bool)} {tag : Severity × Option RuleId}
    (htag : tag ∈ r.tagsOfKinds active kinds) :
    (tag.1 = .error → active = .error) ∧ tag.2 = some r.id := by
  cases kinds with
  | error e =>
    rw [tagsOfKinds, List.mem_singleton] at htag
    subst htag
    exact ⟨nofun, rfl⟩
  | ok kinds =>
    obtain ⟨violation, -, rfl⟩ := List.mem_map.mp htag
    cases violation with
    | true => exact ⟨fun h => h, rfl⟩
    | false => exact ⟨nofun, rfl⟩

variable {keep : Severity × Option RuleId → Bool}

/-- Nothing is kept of a rule that reports no errors, if only its errors are. -/
theorem filter_tagsOfKinds_eq_nil {r : Rule} {active : Severity}
    (hactive : active ≠ .error)
    (hkeep : ∀ severity, severity ≠ .error → keep (severity, some r.id) = false)
    (kinds : Except CheckError (List Bool)) :
    (r.tagsOfKinds active kinds).filter keep = [] := by
  rw [List.filter_eq_nil_iff]
  rintro ⟨severity, rule⟩ htag
  obtain ⟨herror, hrule⟩ := tag_of_mem_tagsOfKinds htag
  rw [show rule = some r.id from hrule, hkeep severity fun h => hactive (herror h)]
  exact Bool.false_ne_true

/-! ## What the catalog records -/

/-- The tags of what the catalog records for a text, as far as they are
kept. -/
def keptTags (keep : Severity × Option RuleId → Bool) (context : Context) :
    List (Severity × Option RuleId) :=
  ((recorded catalog context).map Diagnostic.tag).filter keep

/-- Contexts with the same rules to run have the same tags, if each of the rules
has the same ones for both. -/
theorem keptTags_congr {context other : Context}
    (htarget : other.target = context.target)
    (hprofile : other.profile = context.profile)
    (h : ∀ r ∈ catalog, ∀ active,
      r.severityIn context.target context.profile = some active →
      (r.tagsOfKinds active
          ((r.check other).map (·.map (·.isViolation)))).filter keep =
        (r.tagsOfKinds active
          ((r.check context).map (·.map (·.isViolation)))).filter keep) :
    keptTags keep other = keptTags keep context := by
  rw [keptTags, keptTags, recorded, recorded, List.map_flatMap,
    List.map_flatMap, List.filter_flatMap, List.filter_flatMap, htarget, hprofile]
  refine List.flatMap_congr ?_
  rintro ⟨r, active⟩ hmem
  obtain ⟨hr, hactive⟩ := mem_applicable hmem
  simp only [map_tag_contribution, h r hr active hactive]

/-! ## The outcome of an evaluation -/

/-- The tags of the diagnostics of one severity, except those of one rule. -/
def tagsBeside (id : RuleId) (ds : Diagnostics) (severity : Severity) :
    List (Severity × Option RuleId) :=
  ((ds.bucket severity).map Diagnostic.tag).filter (·.2 ≠ some id)

theorem tagsBeside_evaluate (id : RuleId) (context : Context) (ds : Diagnostics)
    (severity : Severity) :
    tagsBeside id (evaluate catalog context ds).2 severity =
      tagsBeside id ds severity ++
        keptTags (fun tag => tag.1 = severity ∧ tag.2 ≠ some id) context := by
  rw [tagsBeside, tagsBeside, evaluate_diagnostics, Diagnostics.bucket_pushAll,
    List.map_append, List.filter_append, keptTags, List.filter_map,
    List.filter_map, List.filter_map, List.filter_filter]
  simp only [Function.comp_def, Diagnostic.tag, Bool.decide_and, Bool.and_comm]
  rfl

theorem errors_length_evaluate (context : Context) (ds : Diagnostics) :
    (evaluate catalog context ds).2.errors.length =
      ds.errors.length + (keptTags (·.1 = .error) context).length := by
  rw [evaluate_diagnostics, Diagnostics.errors_length_pushAll, keptTags,
    ← List.countP_eq_length_filter, List.countP_map]
  rfl

end Rule

end Preflight
