import Mathlib.Data.List.Basic
import Preflight.Proofs.Catalog

/-!
# What rules look at

A context holds more than the rules of the catalog make use of.  Their checks
look at the text, the target and the profile, and those of Flask rules at the
expected endpoints (`check_bare`, `check_endpoints`).  Where the script lies,
what the operator has set and how the profile was found is nothing to them.

`Context.LooksLike` says that two contexts agree on what is looked at.
`evaluate_congr` is the result: the catalog evaluates them alike.
-/

namespace Preflight

/-- The other context agrees on all that a rule may look at. -/
structure Context.LooksLike (c other : Context) : Prop where
  content : other.content = c.content
  target : other.target = c.target
  profile : other.profile = c.profile
  /-- Only the rules for Flask look at the endpoints. -/
  endpoints : c.target = .flask → other.endpoints = c.endpoints

/-- A context with nothing but what a rule may look at. -/
def Context.bare (c : Context) : Context :=
  { path := "", content := c.content, target := c.target, profile := c.profile,
    source := .notApplicable, scores := none, overrides := .none,
    endpoints := c.endpoints }

namespace Rule

/-- No check looks at the path, at the overrides, or at how the profile was
found. -/
theorem check_bare : ∀ r ∈ catalog, ∀ c, r.check c = r.check c.bare := by
  simp only [catalog, List.forall_mem_cons]
  and_intros
  all_goals first | exact fun _ => rfl | exact List.forall_mem_nil _

/-- A rule for other targets than Flask does not look at the endpoints. -/
theorem check_endpoints :
    ∀ r ∈ catalog, r.targets = [.flask] ∨
      ∀ c endpoints, r.check { c with endpoints } = r.check c := by
  simp only [catalog, List.forall_mem_cons]
  and_intros
  all_goals first
    | exact .inl trivial
    | exact .inr fun _ _ => rfl
    | exact List.forall_mem_nil _

/-- A rule that applies finds the same in contexts that look alike. -/
theorem check_congr {r : Rule} (hr : r ∈ catalog) {c other : Context}
    (h : c.LooksLike other) (htarget : c.target ∈ r.targets) :
    r.check other = r.check c := by
  have hbare : r.check other = r.check { c.bare with endpoints := other.endpoints } := by
    rw [check_bare r hr other]
    unfold Context.bare
    rw [h.content, h.target, h.profile]
  rw [hbare, check_bare r hr c]
  rcases check_endpoints r hr with hflask | hfree
  · rw [hflask, List.mem_singleton] at htarget
    rw [h.endpoints htarget]
    rfl
  · exact hfree c.bare other.endpoints

/-- The evaluation, from the rules that apply. -/
theorem evaluate_eq (rules : List Rule) (context : Context) (ds : Diagnostics) :
    let rows := applicable rules context.target context.profile
    evaluate rules context ds =
      (⟨rows.map (·.1.id), (rows.filter (·.1.failsOn context)).map (·.1.id)⟩,
        ds.pushAll (rows.flatMap fun row =>
          row.1.contribution row.2 (row.1.check context))) := by
  unfold evaluate
  simp only [List.filter_map, List.map_map, List.flatMap_map]
  rfl

/-- Contexts that look alike are evaluated alike. -/
theorem evaluate_congr {c other : Context} (h : c.LooksLike other)
    (ds : Diagnostics) : evaluate catalog other ds = evaluate catalog c ds := by
  have hcheck (row : Rule × Severity)
      (hrow : row ∈ applicable catalog c.target c.profile) :
      row.1.check other = row.1.check c := by
    have hrule := mem_applicable hrow
    exact check_congr hrule.1 h (mem_targets_of_severityIn hrule.2)
  have hfailed (row : Rule × Severity)
      (hrow : row ∈ applicable catalog c.target c.profile) :
      row.1.failsOn other = row.1.failsOn c := by
    unfold failsOn
    rw [hcheck row hrow]
  have hrecorded (row : Rule × Severity)
      (hrow : row ∈ applicable catalog c.target c.profile) :
      row.1.contribution row.2 (row.1.check other) =
        row.1.contribution row.2 (row.1.check c) := by
    rw [hcheck row hrow]
  rw [evaluate_eq, evaluate_eq, h.target, h.profile,
    List.filter_congr hfailed, List.flatMap_congr hrecorded]

end Rule

end Preflight
