import Preflight.Proofs.Evaluation

/-!
# What each rule contributes

`share` says what one rule adds to the diagnostics of one severity: its
violations where that is the severity of the active column, its notes where
it is information, and one warning in their place where its check could not
run.

* `bucket_evaluate`: every sequence of diagnostics is what it was, followed by
  the shares of the rules in the order of the list.
* `evaluated_evaluate` and `failed_evaluate`: the rules that are named as
  evaluated and as failed.

Rules do not see each other, so their order and the failure of one of them
show only where they must (`evaluate_perm`, `evaluate_broken`).
-/

namespace Preflight

/-! ## Verdicts -/

/-- A verdict depends on nothing but the numbers of diagnostics. -/
theorem Verdict.of_eq_of_count {ds es : Diagnostics}
    (h : ∀ severity, ds.count severity = es.count severity) : of ds = of es := by
  have herrors : ds.errors.length = es.errors.length := h .error
  have hwarnings : ds.warnings.length = es.warnings.length := h .warning
  have hinfo : ds.info.length = es.info.length := h .info
  rw [of, of, Diagnostics.errors_isEmpty_congr herrors, herrors, hwarnings,
    hinfo]

namespace Rule

/-! ## The share of a rule -/

/-- The rule applies to the target and the profile of the context. -/
def appliesTo (r : Rule) (context : Context) : Bool :=
  (r.severityIn context.target context.profile).isSome

/-- The check of the rule cannot run on the context. -/
def failsOn (r : Rule) (context : Context) : Bool :=
  !(r.check context).toBool

/-- What a finding of the rule adds to the diagnostics of a severity, when
`active` is the severity that the rule reports with. -/
def findingShare (r : Rule) (active severity : Severity) :
    Finding → Option Diagnostic
  | .violation message =>
    if active = severity then some ⟨severity, message, some r.id⟩ else none
  | .note message =>
    if severity = .info then some ⟨.info, message, some r.id⟩ else none

/-- What the rule adds to the diagnostics of a severity. -/
def share (r : Rule) (context : Context) (severity : Severity) :
    List Diagnostic :=
  match r.severityIn context.target context.profile with
  | none => []
  | some active =>
    match r.check context with
    | .ok findings => findings.filterMap (r.findingShare active severity)
    | .error e =>
      if severity = .warning then
        [⟨.warning,
          s!"Check {r.id.key} ({r.title}) could not run: {e.message}",
          some r.id⟩]
      else []

/-- Of the diagnostics for some findings, those of one severity. -/
theorem filter_map_diagnostic (r : Rule) (active severity : Severity)
    (findings : List Finding) :
    (findings.map (·.diagnostic r.id active)).filter (·.severity = severity) =
      findings.filterMap (r.findingShare active severity) := by
  induction findings with
  | nil => rfl
  | cons f findings ih =>
    rw [List.map_cons, List.filter_cons, List.filterMap_cons, ih]
    cases f with
    | violation message =>
      by_cases h : active = severity
      · simp [Finding.diagnostic, findingShare, h]
      · simp [Finding.diagnostic, findingShare, h]
    | note message =>
      by_cases h : severity = .info
      · simp [Finding.diagnostic, findingShare, h]
      · simp [Finding.diagnostic, findingShare, h, Ne.symm h]

/-- Of the contribution of a rule that applies, the part of one severity is
its share. -/
theorem filter_contribution (r : Rule) {context : Context} {active : Severity}
    (hactive : r.severityIn context.target context.profile = some active)
    (severity : Severity) :
    (r.contribution active (r.check context)).filter (·.severity = severity) =
      r.share context severity := by
  rw [share, hactive]
  cases r.check context with
  | ok findings => exact filter_map_diagnostic r active severity findings
  | error e =>
    by_cases h : severity = .warning
    · simp [contribution, failure, h]
    · simp [contribution, failure, h, Ne.symm h]

theorem filter_recorded (rules : List Rule) (context : Context)
    (severity : Severity) :
    (recorded rules context).filter (·.severity = severity) =
      rules.flatMap (·.share context severity) := by
  induction rules with
  | nil => rfl
  | cons r rules ih =>
    rw [recorded, applicable] at ih ⊢
    rw [List.filterMap_cons, List.flatMap_cons, ← ih]
    cases hactive : r.severityIn context.target context.profile with
    | none => simp [share, hactive]
    | some active =>
      simp only [Option.map_some, List.flatMap_cons, List.filter_append,
        filter_contribution r hactive]

/-! ## The outcome of an evaluation -/

section

variable (rules : List Rule) (context : Context) (ds : Diagnostics)

/-- Each sequence is followed by the shares of the rules, in their order. -/
theorem bucket_evaluate (severity : Severity) :
    (evaluate rules context ds).2.bucket severity =
      ds.bucket severity ++ rules.flatMap (·.share context severity) := by
  rw [evaluate_diagnostics, Diagnostics.bucket_pushAll, filter_recorded]

theorem applicable_map_fst :
    (applicable rules context.target context.profile).map (·.1) =
      rules.filter (·.appliesTo context) := by
  induction rules with
  | nil => rfl
  | cons r rules ih =>
    rw [applicable] at ih ⊢
    rw [List.filterMap_cons, List.filter_cons, appliesTo]
    cases r.severityIn context.target context.profile with
    | none => simpa using ih
    | some active => simp [ih]

/-- The rules that apply are evaluated, in their order. -/
theorem evaluated_evaluate :
    (evaluate rules context ds).1.evaluated =
      (rules.filter (·.appliesTo context)).map (·.id) := by
  rw [evaluate_evaluated, applicableIds, ← applicable_map_fst, List.map_map]
  rfl

/-- Among them, those whose check cannot run have failed. -/
theorem failed_evaluate :
    (evaluate rules context ds).1.failed =
      ((rules.filter (·.appliesTo context)).filter (·.failsOn context)).map
        (·.id) := by
  rw [evaluate, ← applicable_map_fst, List.filter_map, List.map_map]
  simp only [List.filter_map, List.map_map]
  rfl

end

/-! ## Other orders -/

/-- Two evaluations leave the same behind, except for its order. -/
structure SameUpToOrder (a b : Coverage × Diagnostics) : Prop where
  bucket : ∀ severity, (a.2.bucket severity).Perm (b.2.bucket severity)
  evaluated : a.1.evaluated.Perm b.1.evaluated
  failed : a.1.failed.Perm b.1.failed
  verdict : Verdict.of a.2 = Verdict.of b.2

/-- The order of the rules decides about nothing but the order of what they
leave behind. -/
theorem evaluate_perm {rules others : List Rule} (h : rules.Perm others)
    (context : Context) (ds : Diagnostics) :
    SameUpToOrder (evaluate rules context ds) (evaluate others context ds) := by
  have hbucket (severity : Severity) :
      ((evaluate rules context ds).2.bucket severity).Perm
        ((evaluate others context ds).2.bucket severity) := by
    rw [bucket_evaluate, bucket_evaluate]
    exact (h.flatMap_right _).append_left _
  have happlies := h.filter (·.appliesTo context)
  refine ⟨hbucket, ?_, ?_, ?_⟩
  · rw [evaluated_evaluate, evaluated_evaluate]
    exact happlies.map _
  · rw [failed_evaluate, failed_evaluate]
    exact (happlies.filter _).map _
  · exact Verdict.of_eq_of_count fun severity => (hbucket severity).length_eq

/-! ## One broken check -/

/-- The identifiers by which an evaluation names the rule as failed: its own,
or none. -/
def failedIds (r : Rule) (context : Context) : List RuleId :=
  if r.appliesTo context ∧ r.failsOn context then [r.id] else []

theorem failed_evaluate_eq_flatMap (rules : List Rule) (context : Context)
    (ds : Diagnostics) :
    (evaluate rules context ds).1.failed =
      rules.flatMap (·.failedIds context) := by
  rw [failed_evaluate]
  induction rules with
  | nil => rfl
  | cons r rules ih =>
    rw [List.filter_cons, List.flatMap_cons, ← ih, failedIds]
    by_cases happlies : r.appliesTo context
    · by_cases hfails : r.failsOn context
      · simp [happlies, hfails]
      · simp [happlies, hfails]
    · simp [happlies]

/-- All that a rule whose check cannot run has to say. -/
theorem share_of_error {r : Rule} {context : Context} {e : CheckError}
    (h : r.check context = .error e) (severity : Severity) :
    r.share context severity =
      if r.appliesTo context ∧ severity = .warning then
        [⟨.warning,
          s!"Check {r.id.key} ({r.title}) could not run: {e.message}",
          some r.id⟩]
      else [] := by
  rw [share, appliesTo, h]
  cases r.severityIn context.target context.profile with
  | none => simp
  | some active => simp

/-- What changes when the check of the rule between `front` and `back` is
exchanged for one that fails with `e`: the share of that rule, and whether it
is named as failed. -/
structure BrokenAt (front : List Rule) (r : Rule) (back : List Rule)
    (e : CheckError) (context : Context) (ds : Diagnostics)
    (sound broken : Coverage × Diagnostics) : Prop where
  sound_bucket : ∀ severity,
    sound.2.bucket severity =
      (ds.bucket severity ++ front.flatMap (·.share context severity)) ++
        r.share context severity ++ back.flatMap (·.share context severity)
  broken_bucket : ∀ severity,
    broken.2.bucket severity =
      (ds.bucket severity ++ front.flatMap (·.share context severity)) ++
        (if r.appliesTo context ∧ severity = .warning then
          [⟨.warning,
            s!"Check {r.id.key} ({r.title}) could not run: {e.message}",
            some r.id⟩]
        else []) ++ back.flatMap (·.share context severity)
  evaluated : broken.1.evaluated = sound.1.evaluated
  sound_failed :
    sound.1.failed =
      front.flatMap (·.failedIds context) ++ r.failedIds context ++
        back.flatMap (·.failedIds context)
  broken_failed :
    broken.1.failed =
      front.flatMap (·.failedIds context) ++
        (if r.appliesTo context then [r.id] else []) ++
        back.flatMap (·.failedIds context)

/-- A check that fails is seen at its own rule only. -/
theorem evaluate_broken (front : List Rule) (r : Rule) (back : List Rule)
    {check : Check} {e : CheckError} {context : Context}
    (h : check context = .error e) (ds : Diagnostics) :
    BrokenAt front r back e context ds
      (evaluate (front ++ r :: back) context ds)
      (evaluate (front ++ { r with check } :: back) context ds) := by
  have hshare := share_of_error (r := { r with check }) h
  have hfails : Rule.failsOn { r with check } context = true := by
    show (!(check context).toBool) = true
    rw [h]
    rfl
  refine ⟨fun severity => ?_, fun severity => ?_, ?_, ?_, ?_⟩
  · rw [bucket_evaluate, List.flatMap_append, List.flatMap_cons]
    simp only [List.append_assoc]
  · rw [bucket_evaluate, List.flatMap_append, List.flatMap_cons, hshare]
    simp only [List.append_assoc]
    rfl
  · rw [evaluated_evaluate, evaluated_evaluate, List.filter_append,
      List.filter_append, List.filter_cons, List.filter_cons, List.map_append,
      List.map_append]
    cases happlies : r.appliesTo context
    · simp [show Rule.appliesTo { r with check } context = false from happlies]
    · simp [show Rule.appliesTo { r with check } context = true from happlies]
  · rw [failed_evaluate_eq_flatMap, List.flatMap_append, List.flatMap_cons]
    simp only [List.append_assoc]
  · rw [failed_evaluate_eq_flatMap, List.flatMap_append, List.flatMap_cons,
      failedIds]
    simp only [hfails, and_true, List.append_assoc]
    rfl

/-! ## All of it -/

/-- The laws of evaluation.  Each sequence of diagnostics grows by the shares
of the rules in their order, and the rules that apply are evaluated.  Another
order of the rules changes only the order of what they leave behind, and a
check that is broken changes only what its own rule does. -/
theorem evaluate_shares (rules : List Rule) (context : Context)
    (ds : Diagnostics) :
    let result := evaluate rules context ds
    ((∀ severity,
        result.2.bucket severity =
          ds.bucket severity ++ rules.flatMap (·.share context severity)) ∧
      result.1.evaluated = (rules.filter (·.appliesTo context)).map (·.id) ∧
      result.1.failed =
        ((rules.filter (·.appliesTo context)).filter (·.failsOn context)).map
          (·.id)) ∧
      (∀ others, rules.Perm others →
        SameUpToOrder result (evaluate others context ds)) ∧
      ∀ front r back check e, rules = front ++ r :: back →
        check context = .error e →
        BrokenAt front r back e context ds result
          (evaluate (front ++ { r with check } :: back) context ds) := by
  refine ⟨⟨bucket_evaluate rules context ds, evaluated_evaluate rules context ds,
    failed_evaluate rules context ds⟩, fun others h => evaluate_perm h context ds,
    ?_⟩
  rintro front r back check e rfl h
  exact evaluate_broken front r back h ds

/-- Two rules for PDQ scripts, the first of which has a check that cannot run.
In the other order they leave the same behind, and with the second check
broken as well, both are named as failed. -/
theorem evaluate_shares_of_broken_pair :
    let broken : Check := fun _ => (CheckError.pattern "(unclosed").map fun _ => []
    let gui : Rule := ⟨.guiElement, "Broken", [.pdq], .uniform .error, broken⟩
    let path : Rule :=
      ⟨.hardcodedPath, "Always", [.pdq], .uniform .error,
        fun _ => .ok [.violation "always", .note "noted"]⟩
    let context : Context :=
      .resolve ⟨"t.ps1", .pdq, .none⟩ .default [] "exit 0".toList
    [gui, path].Perm [path, gui] ∧
      SameUpToOrder (evaluate [gui, path] context .empty)
        (evaluate [path, gui] context .empty) ∧
      broken context =
        .error (.invalidPattern "(unclosed" (.unclosedGroup 0)) ∧
      (evaluate [gui, { path with check := broken }] context .empty).1.failed =
        [.guiElement, .hardcodedPath] := by
  intro broken gui path context
  have hperm : [gui, path].Perm [path, gui] := .swap path gui []
  have hbroken : broken context =
      .error (.invalidPattern "(unclosed" (.unclosedGroup 0)) := by cbv
  obtain ⟨_, horder, hisolated⟩ := evaluate_shares [gui, path] context .empty
  have hfailed :=
    (hisolated [gui] path [] broken _ rfl hbroken).broken_failed
  refine ⟨hperm, horder _ hperm, hbroken, hfailed.trans ?_⟩
  decide

end Rule

end Preflight
