import Preflight.Proofs.LineEnds.Checks
import Preflight.Proofs.Tags

/-!
# Evaluating the catalog on texts that differ in their line ends

A text with CR LF for every LF is judged like the text.

* `detect_crlf`: the profile that is detected is the same, with the same scores.
* `lineRole_of_mem_catalog`: every rule but the one about paths finds the same
  kinds of findings, in the same order.
* `keptTags_crlf`: what the catalog records has the same severities and rules.

`evaluate_crlf` says what follows for the outcome of an evaluation.  The text
must have no CR of its own, since a CR LF in it would become CR CR LF, and the
lines that handlers are read from would keep a CR.
-/

namespace Preflight

open Text

/-! ## Detection -/

/-- The signature does not show how lines end. -/
def Signature.LineNeutral : Signature → Prop
  | literal s => OnLine s.toList
  | pattern p => p.LineNeutral .insensitive

instance : DecidablePred Signature.LineNeutral
  | .literal s => inferInstanceAs (Decidable (OnLine s.toList))
  | .pattern p => inferInstanceAs (Decidable (p.LineNeutral .insensitive))

theorem Signature.LineNeutral.occursIn_crlf {signature : Signature}
    (h : signature.LineNeutral) (lowered : List Char) :
    signature.occursIn (crlf lowered) = signature.occursIn lowered := by
  cases signature with
  | literal s => exact contains_crlf h lowered
  | pattern p => exact Pattern.LineNeutral.occursIn_crlf h lowered

theorem Profile.lineNeutral_of_mem_signatures (p : Profile) :
    ∀ signature ∈ p.signatures, signature.LineNeutral := by
  cases p <;> decide

theorem Scores.ofText_crlf (text : List Char) :
    ofText (crlf text) = ofText text := by
  have hscore (p : Profile) :
      p.signatures.countP (·.occursIn (crlf (lowercase text))) =
        p.signatures.countP (·.occursIn (lowercase text)) := by
    refine List.countP_congr fun signature h => ?_
    rw [(p.lineNeutral_of_mem_signatures signature h).occursIn_crlf]
  simp only [ofText, lowercase_crlf, hscore]

theorem DetectionPolicy.detect_crlf (policy : DetectionPolicy)
    (text : List Char) : policy.detect (crlf text) = policy.detect text := by
  rw [detect, detect, Scores.ofText_crlf]

/-! ## Rules -/

namespace Rule

/-- The check of the rule finds the same kinds of findings in a text without CR
and in the text with other line ends, or fails in the same way. -/
def IgnoresLineEnds (r : Rule) : Prop :=
  ∀ context : Context, '\r' ∉ context.content →
    (∀ e ∈ context.endpoints, '\n' ∉ e.toList) →
    (r.check context.crlf).map (·.map (·.isViolation)) =
      (r.check context).map (·.map (·.isViolation))

/-- How a rule takes line ends: it ignores them, or it is the rule about paths,
which reports no errors. -/
inductive LineRole (r : Rule) : Prop where
  | ignoring (hlines : r.IgnoresLineEnds)
  | paths (hid : r.id = .hardcodedPath)
      (hseverity : r.severity =
        ⟨none, some .warning, some .warning, some .warning⟩)

theorem ignoresLineEnds_of_eq {r : Rule} {check : Context → List Finding}
    (h : ∀ context : Context, '\r' ∉ context.content →
      (∀ e ∈ context.endpoints, '\n' ∉ e.toList) →
      check context.crlf = check context)
    (hr : r.check = total check) : r.IgnoresLineEnds := by
  intro context hcontent hendpoints
  rw [hr, total, total, h context hcontent hendpoints]

theorem lineRole_of_eq {r : Rule} {check : Context → List Finding}
    (h : ∀ context : Context, check context.crlf = check context)
    (hr : r.check = total check) : r.LineRole :=
  .ignoring (ignoresLineEnds_of_eq (fun context _ _ => h context) hr)

/-- Only the rule about paths tells line ends apart. -/
theorem lineRole_of_mem_catalog : ∀ r ∈ catalog, r.LineRole := by
  simp only [catalog, List.forall_mem_cons]
  exact ⟨lineRole_of_eq Checks.embeddedSecrets_crlf rfl,
    lineRole_of_eq Checks.sqlInjection_crlf rfl,
    lineRole_of_eq Checks.consoleOutput_crlf rfl,
    lineRole_of_eq Checks.tryCatchMismatch_crlf rfl,
    lineRole_of_eq Checks.noErrorHandling_crlf rfl,
    lineRole_of_eq Checks.successOnlyExit_crlf rfl,
    lineRole_of_eq Checks.paramValidation_crlf rfl,
    .ignoring fun context _ _ =>
      congrArg Except.ok (Checks.kinds_namingConvention_crlf context),
    lineRole_of_eq Checks.noErrorAction_crlf rfl,
    lineRole_of_eq Checks.silentCatch_crlf rfl,
    lineRole_of_eq Checks.adminCheck_crlf rfl,
    lineRole_of_eq Checks.resultLoggingMissing_crlf rfl,
    lineRole_of_eq Checks.resultLoggingSparse_crlf rfl,
    lineRole_of_eq Checks.requiredImports_crlf rfl,
    lineRole_of_eq Checks.appInit_crlf rfl,
    lineRole_of_eq Checks.debugMode_crlf rfl,
    lineRole_of_eq Checks.hostBinding_crlf rfl,
    .ignoring fun context _ _ =>
      congrArg Except.ok (Checks.kinds_routesDefined_crlf context),
    .ignoring (ignoresLineEnds_of_eq
      (fun context _ => Checks.expectedEndpoints_crlf context) rfl),
    .ignoring (ignoresLineEnds_of_eq
      (fun context hcontent _ => Checks.routeErrorHandling_crlf context hcontent)
      rfl),
    lineRole_of_eq Checks.commandInjection_crlf rfl,
    lineRole_of_eq Checks.cors_crlf rfl,
    lineRole_of_eq Checks.exitCodeMissing_crlf rfl,
    lineRole_of_eq Checks.catchWithoutExit_crlf rfl,
    lineRole_of_eq Checks.interactivePrompts_crlf rfl,
    lineRole_of_eq Checks.guiElements_crlf rfl,
    .paths rfl rfl,
    lineRole_of_eq Checks.sessionCleanup_crlf rfl,
    lineRole_of_eq Checks.structuredOutput_crlf rfl,
    lineRole_of_eq Checks.silentInstall_crlf rfl,
    lineRole_of_eq Checks.installVerification_crlf rfl,
    List.forall_mem_nil _⟩

/-- Where nothing but errors of the rule about paths may be kept, the tags are the
same for the text with other line ends. -/
theorem keptTags_crlf {keep : Severity × Option RuleId → Bool}
    (hkeep : ∀ severity, severity ≠ .error →
      keep (severity, some .hardcodedPath) = false)
    {context : Context} (hcontent : '\r' ∉ context.content)
    (hendpoints : ∀ e ∈ context.endpoints, '\n' ∉ e.toList) :
    keptTags keep context.crlf = keptTags keep context := by
  refine keptTags_congr rfl rfl fun r hr active hactive => ?_
  cases lineRole_of_mem_catalog r hr with
  | ignoring hlines => rw [hlines context hcontent hendpoints]
  | paths hid hseverity =>
    have hkeep := hid ▸ hkeep
    have hwarns : active ≠ .error := by
      rintro rfl
      rw [severityIn, hseverity] at hactive
      split at hactive
      · generalize (if context.target = .pdq then context.profile else none) =
          profile at hactive
        rcases profile with _ | _ | _ | _ <;> cases hactive
      · cases hactive
    rw [filter_tagsOfKinds_eq_nil hwarns hkeep,
      filter_tagsOfKinds_eq_nil hwarns hkeep]

/-- A text without CR has the same profile and scores with CR LF for every LF.
Evaluating the catalog on both names the same rules, comes to the same status with
as many errors, and records diagnostics of the same severities and rules in the
same order, except for those about paths.  The handlers that are read from both
are the same, bodies included. -/
theorem evaluate_crlf (context : Context) (hcontent : '\r' ∉ context.content)
    (hendpoints : ∀ e ∈ context.endpoints, '\n' ∉ e.toList)
    (policy : DetectionPolicy) (ds : Diagnostics) :
    let text := Text.crlf context.content
    let result := evaluate catalog context ds
    let other := evaluate catalog { context with content := text } ds
    policy.detect text = policy.detect context.content ∧
      other.1.evaluated = result.1.evaluated ∧
      (Verdict.of other.2).status = (Verdict.of result.2).status ∧
      (Verdict.of other.2).errorCount = (Verdict.of result.2).errorCount ∧
      (∀ severity, tagsBeside .hardcodedPath other.2 severity =
        tagsBeside .hardcodedPath result.2 severity) ∧
      Checks.routeHandlers text = Checks.routeHandlers context.content := by
  intro text result other
  have hkept {keep : Severity × Option RuleId → Bool}
      (hkeep : ∀ severity, severity ≠ .error →
        keep (severity, some .hardcodedPath) = false) :
      keptTags keep { context with content := text } = keptTags keep context :=
    keptTags_crlf hkeep hcontent hendpoints
  have herrors : other.2.errors.length = result.2.errors.length := by
    rw [errors_length_evaluate, errors_length_evaluate, hkept]
    exact fun severity h => decide_eq_false h
  refine ⟨policy.detect_crlf _, ?_, ?_, herrors, fun severity => ?_,
    Checks.routeHandlers_crlf hcontent⟩
  · rw [evaluate_evaluated, evaluate_evaluated]
  · rw [Verdict.of, Verdict.of, Diagnostics.errors_isEmpty_congr herrors]
  · rw [tagsBeside_evaluate, tagsBeside_evaluate, hkept]
    intro severity' _
    simp

/-- An application from a machine with other line ends has the same handler and
the same error, for the application object that is not there. -/
theorem evaluate_crlf_of_handler :
    let context : Context :=
      .resolve ⟨"app.py", .flask, .none⟩ .default ["/run"]
        "@app.route('/run')\ndef run():\n  return 1\n".toList
    let text := Text.crlf context.content
    '\r' ∉ context.content ∧
      (∀ e ∈ context.endpoints, '\n' ∉ e.toList) ∧
      (Verdict.of
          (evaluate catalog { context with content := text } .empty).2
        ).errorCount = 1 ∧
      Checks.routeHandlers text = [⟨"run".toList, "  return 1".toList⟩] := by
  intro context text
  have hcontent : '\r' ∉ context.content := by decide
  have hendpoints : ∀ e ∈ context.endpoints, '\n' ∉ e.toList := by decide
  obtain ⟨-, -, -, hcount, -, hhandlers⟩ :=
    evaluate_crlf context hcontent hendpoints .default .empty
  refine ⟨hcontent, hendpoints, hcount.trans ?_, hhandlers.trans ?_⟩
  · decide +kernel
  · decide +kernel

end Rule

end Preflight
