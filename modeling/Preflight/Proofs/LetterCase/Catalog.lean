import Preflight.Proofs.LetterCase.Checks
import Preflight.Proofs.Tags

/-!
# Evaluating the catalog on texts that differ in case

Two PowerShell texts that differ in letter case only are judged alike.

* `detect_folded`: the profile that is detected is the same, with the same
  scores, so that a run resolves its context alike (`resolve_folded`).
* `caseRole_of_mem_catalog`: every rule but the one about names finds the same
  kinds of findings, in the same order.
* `keptTags_folded`: what the catalog records has the same severities and
  rules.  Which of them are looked at is left open there: all but those about
  names, or the errors, of which the rule about names has none.

`evaluate_sameUpToCase` says what follows for the outcome of an evaluation.
-/

namespace Preflight

/-! ## Detection -/

theorem Scores.ofText_folded (text : List Char) :
    ofText (Text.folded text) = ofText text := by
  rw [ofText, ofText, Text.lowercase_folded]

theorem DetectionPolicy.detect_folded (policy : DetectionPolicy)
    (text : List Char) :
    policy.detect (Text.folded text) = policy.detect text := by
  rw [detect, detect, Scores.ofText_folded]

/-- Rules get to see the folded text with the same profile. -/
theorem Context.resolve_folded (request : Request) (policy : DetectionPolicy)
    (endpoints : List String) (text : List Char) :
    resolve request policy endpoints (Text.folded text) =
      (resolve request policy endpoints text).folded := by
  rw [resolve, resolve, policy.detect_folded]
  by_cases htarget : request.target = .pdq
  · rw [if_neg (not_not_intro htarget), if_neg (not_not_intro htarget)]
    cases request.overrides.profile <;> rfl
  · rw [if_pos htarget, if_pos htarget]
    rfl

namespace Rule

open Text

/-! ## Rules -/

/-- The check of the rule finds the same kinds of findings in the folded text,
in the same order, or fails in the same way. -/
def IgnoresCase (r : Rule) : Prop :=
  ∀ context : Context,
    (r.check context.folded).map (·.map (·.isViolation)) =
      (r.check context).map (·.map (·.isViolation))

/-- How a rule takes letter case: it ignores it, or it is the rule about
names, which warns in every column, or it has no PowerShell texts before it. -/
inductive CaseRole (r : Rule) : Prop where
  | ignoring (hcase : r.IgnoresCase)
  | naming (hid : r.id = .namingConvention)
      (hseverity : r.severity = .uniform .warning)
  | foreign (htargets : r.targets = [.flask])

theorem caseRole_of_eq {r : Rule} {check : Context → List Finding}
    (h : ∀ context : Context, check context.folded = check context)
    (hr : r.check = total check) : r.CaseRole := by
  refine .ignoring fun context => ?_
  rw [hr, total, total, h]

/-- Of the rules for PowerShell, only the one about names tells cases
apart. -/
theorem caseRole_of_mem_catalog : ∀ r ∈ catalog, r.CaseRole := by
  simp only [catalog, List.forall_mem_cons]
  exact ⟨caseRole_of_eq Checks.embeddedSecrets_folded rfl,
    caseRole_of_eq Checks.sqlInjection_folded rfl,
    caseRole_of_eq Checks.consoleOutput_folded rfl,
    caseRole_of_eq Checks.tryCatchMismatch_folded rfl,
    caseRole_of_eq Checks.noErrorHandling_folded rfl,
    caseRole_of_eq Checks.successOnlyExit_folded rfl,
    caseRole_of_eq Checks.paramValidation_folded rfl,
    .naming rfl rfl,
    caseRole_of_eq Checks.noErrorAction_folded rfl,
    caseRole_of_eq Checks.silentCatch_folded rfl,
    caseRole_of_eq Checks.adminCheck_folded rfl,
    caseRole_of_eq Checks.resultLoggingMissing_folded rfl,
    caseRole_of_eq Checks.resultLoggingSparse_folded rfl,
    .foreign rfl, .foreign rfl, .foreign rfl, .foreign rfl, .foreign rfl,
    .foreign rfl, .foreign rfl, .foreign rfl, .foreign rfl,
    caseRole_of_eq Checks.exitCodeMissing_folded rfl,
    caseRole_of_eq Checks.catchWithoutExit_folded rfl,
    caseRole_of_eq Checks.interactivePrompts_folded rfl,
    caseRole_of_eq Checks.guiElements_folded rfl,
    .ignoring (congrArg Except.ok <| Checks.kinds_hardcodedPaths_folded ·),
    caseRole_of_eq Checks.sessionCleanup_folded rfl,
    caseRole_of_eq Checks.structuredOutput_folded rfl,
    caseRole_of_eq Checks.silentInstall_folded rfl,
    caseRole_of_eq Checks.installVerification_folded rfl,
    List.forall_mem_nil _⟩

/-! ## The catalog -/

/-- Where nothing but errors of the rule about names may be kept, the tags are
the same for the folded text. -/
theorem keptTags_folded {keep : Severity × Option RuleId → Bool}
    (hkeep : ∀ severity, severity ≠ .error →
      keep (severity, some .namingConvention) = false)
    {context : Context} (hpowershell : context.target.isPowerShell = true) :
    keptTags keep context.folded = keptTags keep context := by
  refine keptTags_congr rfl rfl fun r hr active hactive => ?_
  cases caseRole_of_mem_catalog r hr with
  | ignoring hcase => rw [hcase]
  | naming hid hseverity =>
    obtain rfl := eq_of_severityIn_uniform hseverity hactive
    have hkeep := hid ▸ hkeep
    rw [filter_tagsOfKinds_eq_nil (by decide) hkeep,
      filter_tagsOfKinds_eq_nil (by decide) hkeep]
  | foreign htargets =>
    have htarget : context.target ∈ r.targets :=
      mem_targets_of_severityIn hactive
    rw [htargets, List.mem_singleton] at htarget
    rw [htarget] at hpowershell
    cases hpowershell

/-! ## The outcome of an evaluation -/

/-- The tags of the diagnostics of one severity, except those about names. -/
def tagsBesideNames (ds : Diagnostics) (severity : Severity) :
    List (Severity × Option RuleId) :=
  ((ds.bucket severity).map Diagnostic.tag).filter
    (·.2 ≠ some .namingConvention)

theorem tagsBesideNames_evaluate (context : Context) (ds : Diagnostics)
    (severity : Severity) :
    tagsBesideNames (evaluate catalog context ds).2 severity =
      tagsBesideNames ds severity ++
        keptTags (fun tag => tag.1 = severity ∧ tag.2 ≠ some .namingConvention)
          context :=
  tagsBeside_evaluate .namingConvention context ds severity

/-- PowerShell texts that differ in letter case only have the same profile and
scores.  Evaluating the catalog on them names the same rules, comes to the same
status with as many errors, and records diagnostics of the same severities and
rules in the same order, except for those about names. -/
theorem evaluate_sameUpToCase (context : Context)
    (hpowershell : context.target.isPowerShell = true) {text : List Char}
    (hcase : SameUpToCase context.content text) (policy : DetectionPolicy)
    (ds : Diagnostics) :
    let result := evaluate catalog context ds
    let other := evaluate catalog { context with content := text } ds
    policy.detect text = policy.detect context.content ∧
      other.1.evaluated = result.1.evaluated ∧
      (Verdict.of other.2).status = (Verdict.of result.2).status ∧
      (Verdict.of other.2).errorCount = (Verdict.of result.2).errorCount ∧
      ∀ severity,
        tagsBesideNames other.2 severity = tagsBesideNames result.2 severity := by
  intro result other
  have hfolded : Context.folded { context with content := text } = context.folded := by
    rw [Context.folded, Context.folded, hcase]
  have hkept {keep : Severity × Option RuleId → Bool}
      (hkeep : ∀ severity, severity ≠ .error →
        keep (severity, some .namingConvention) = false) :
      keptTags keep { context with content := text } = keptTags keep context := by
    rw [← keptTags_folded hkeep hpowershell, ← hfolded, keptTags_folded hkeep]
    exact hpowershell
  have herrors : other.2.errors.length = result.2.errors.length := by
    rw [errors_length_evaluate, errors_length_evaluate, hkept]
    exact fun severity h => decide_eq_false h
  refine ⟨?_, ?_, ?_, herrors, fun severity => ?_⟩
  · rw [← policy.detect_folded text, ← hcase, policy.detect_folded]
  · rw [evaluate_evaluated, evaluate_evaluated]
  · rw [Verdict.of, Verdict.of, Diagnostics.errors_isEmpty_congr herrors]
  · rw [tagsBesideNames_evaluate, tagsBesideNames_evaluate, hkept]
    intro severity' _
    simp

/-- A prompt in capitals fails a deployment as one in small letters does. -/
theorem evaluate_sameUpToCase_of_prompt :
    let context : Context :=
      .resolve ⟨"t.ps1", .pdq, ⟨some .deploy, false, false⟩⟩ .default []
        "Read-Host".toList
    let shouted := "READ-HOST".toList
    context.target.isPowerShell = true ∧
      SameUpToCase context.content shouted ∧
      (Verdict.of
          (evaluate catalog { context with content := shouted } .empty).2
        ).errorCount = 1 := by
  intro context shouted
  have hpowershell : context.target.isPowerShell = true := rfl
  have hcase : SameUpToCase context.content shouted := by
    show folded _ = folded _
    decide
  obtain ⟨-, -, -, hcount, -⟩ :=
    evaluate_sameUpToCase context hpowershell hcase .default .empty
  refine ⟨hpowershell, hcase, hcount.trans ?_⟩
  decide +kernel

end Rule

end Preflight
