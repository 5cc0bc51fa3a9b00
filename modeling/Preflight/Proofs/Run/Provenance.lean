import Preflight.Proofs.Catalog
import Preflight.Proofs.Run.Whole

/-!
# Where the diagnostics of a report come from

`Diagnostic.Origin` lists the four sources of a diagnostic: the load that
failed, a rule that was evaluated, the external parser and the live probe, each
with what is known of its diagnostics.

* `origin_of_text_eq_none`: without a text, there is nothing but the load that
  failed.
* `origin_of_text`: with a text, each of the three lists that a run records
  (`diagnostics_verify`) has its source.
* `coverage_of_text`: the rules that are named are those that apply, and none
  has failed.
* `filter_ruleId_verify`: of one rule, a report says what that rule's share is.

`provenance_verify` puts them together for every run.
-/

namespace Preflight

/-- Where a diagnostic of a report comes from. -/
inductive Diagnostic.Origin (request : Request) (report : Report)
    (d : Diagnostic) : Prop where
  /-- The script could not be loaded, and nothing else is reported. -/
  | load (hstage : report.stage = .failed) (hseverity : d.severity = .error)
      (honly : report.diagnostics.toList = [d])
  /-- A rule that was evaluated found it, and reports it with the severity of
  the active column or as information. -/
  | rule (r : Rule) (hr : r ∈ Rule.catalog) (hid : d.ruleId = some r.id)
      (hevaluated : r.id ∈ report.rules.coverage.evaluated)
      (hseverity : d.severity = .info ∨
        r.severityIn request.target report.profile.profile = some d.severity)
  /-- The external parser said it of a PowerShell script. -/
  | parser (hid : d.ruleId = some .parserCheck)
      (htarget : request.target.isPowerShell)
  /-- The probe of a Flask application found it, and it is no error. -/
  | probe (hid : d.ruleId = some .liveProbe) (htarget : request.target = .flask)
      (hseverity : d.severity ≠ .error)

/-- Of diagnostics that are recorded from the start, every sequence holds those
of its severity. -/
theorem Diagnostics.mem_bucket_pushAll_empty {new : List Diagnostic}
    {severity : Severity} {d : Diagnostic} :
    d ∈ (empty.pushAll new).bucket severity ↔
      d ∈ new ∧ d.severity = severity := by
  rw [bucket_pushAll, bucket_empty, List.nil_append, List.mem_filter,
    decide_eq_true_iff]

section

variable (files : FileSystem) (parser : Parser) (host : Option Host)
  (request : Request) (config : Config) (tool : Tool)

/-! ## Runs without a text -/

/-- The report is of one error, and no rule has been evaluated. -/
theorem report_of_text_eq_none (htext : files.text? request.path = none) :
    let report := (verify files parser host request config tool).1
    report.stage = .failed ∧ report.profile.profile = none ∧
      report.rules.coverage = .empty ∧
      ∃ d : Diagnostic, d.severity = .error ∧
        report.diagnostics = ⟨[d], [], []⟩ := by
  intro report
  obtain ⟨script, message, ruleId, hverify⟩ :=
    verify_of_text_eq_none files parser host request config tool htext
  have hreport : report = _ := congrArg Prod.fst hverify
  rw [hreport]
  exact ⟨rfl, rfl, rfl, ⟨.error, message, ruleId⟩, rfl, rfl⟩

/-- The one error is that of the load. -/
theorem origin_of_text_eq_none (htext : files.text? request.path = none)
    {severity : Severity} {d : Diagnostic}
    (hd : d ∈ (verify files parser host request config
      tool).1.diagnostics.bucket severity) :
    d.severity = severity ∧
      d.Origin request (verify files parser host request config tool).1 := by
  obtain ⟨hstage, -, -, error, herror, hds⟩ :=
    report_of_text_eq_none files parser host request config tool htext
  rw [hds] at hd
  cases severity with
  | error =>
    obtain rfl := List.mem_singleton.mp hd
    exact ⟨herror, .load hstage herror (by rw [hds]; rfl)⟩
  | warning | info => cases hd

/-! ## Runs with a text -/

/-- The rules that apply to the text are evaluated, and the report names the
profile that they were chosen by. -/
theorem coverage_of_text {text : List Char}
    (htext : files.text? request.path = some text) :
    let report := (verify files parser host request config tool).1
    let context : Context :=
      .resolve request config.detection config.endpoints text
    report.stage = .summarized ∧
      report.profile.profile = context.profile ∧
      report.rules.coverage.evaluated =
        Rule.applicableIds Rule.catalog request.target context.profile ∧
      report.rules.coverage.failed = [] := by
  intro report context
  obtain ⟨bytes, hfile, hdecode⟩ := FileSystem.text?_eq_some htext
  have hverify :=
    verify_of_file files parser host request config tool hfile hdecode
  have hreport : report = _ := congrArg Prod.fst hverify
  have hevaluated := Rule.evaluate_evaluated Rule.catalog context .empty
  have hfailed := Rule.failed_catalog context .empty
  rw [Context.resolve_target] at hevaluated
  rw [hreport]
  exact ⟨rfl, rfl, hevaluated, hfailed⟩

/-- Everything that is reported of a text comes from a rule, from the parser or
from the probe. -/
theorem origin_of_text {text : List Char}
    (htext : files.text? request.path = some text) {severity : Severity}
    {d : Diagnostic}
    (hd : d ∈ (verify files parser host request config
      tool).1.diagnostics.bucket severity) :
    d.severity = severity ∧
      d.Origin request (verify files parser host request config tool).1 := by
  have hds := diagnostics_verify files parser host request config tool htext
  obtain ⟨-, hprofile, hevaluated, -⟩ :=
    coverage_of_text files parser host request config tool htext
  rw [hds, Diagnostics.mem_bucket_pushAll_empty, List.mem_append,
    List.mem_append] at hd
  obtain ⟨hd, hseverity⟩ := hd
  refine ⟨hseverity, ?_⟩
  rcases hd with (hd | hd) | hd
  · obtain ⟨r, hr, active, hactive, hid, hd⟩ := Rule.origin_of_mem_recorded hd
    rw [Context.resolve_target] at hactive
    refine .rule r hr hid ?_ ?_
    · rw [hevaluated]
      exact Rule.mem_applicableIds hr hactive
    · rw [hprofile, hactive]
      exact hd.imp_right fun h => congrArg some h.symm
  · obtain ⟨hwants, hid⟩ := Verification.origin_of_mem_parserPart _ parser d hd
    exact .parser hid (Verification.isPowerShell_of_wantsParser hwants)
  · obtain ⟨hwants, hid, hnoError⟩ :=
      Verification.origin_of_mem_probePart _ host d hd
    exact .probe hid (Verification.eq_flask_of_wantsProbe hwants) hnoError

/-- The parser is heard at most once. -/
theorem countP_parserCheck_of_text {text : List Char}
    (htext : files.text? request.path = some text) :
    (verify files parser host request config
      tool).1.diagnostics.toList.countP (·.ruleId = some .parserCheck) ≤ 1 := by
  have hrules : (Rule.recorded Rule.catalog
      (.resolve request config.detection config.endpoints text)).countP
        (·.ruleId = some .parserCheck) = 0 := by
    rw [List.countP_eq_zero]
    intro d hd
    obtain ⟨r, hr, -, -, hid, -⟩ := Rule.origin_of_mem_recorded hd
    simp [hid, (Rule.id_ne_of_mem_catalog r hr).1]
  have hprobe : (Verification.start request config |>.probePart host).1.countP
      (·.ruleId = some .parserCheck) = 0 := by
    rw [List.countP_eq_zero]
    intro d hd
    obtain ⟨-, hid, -⟩ := Verification.origin_of_mem_probePart _ host d hd
    simp [hid]
  have hparser : (Verification.start request config |>.parserPart
      parser).1.countP (·.ruleId = some .parserCheck) ≤ 1 :=
    Nat.le_trans List.countP_le_length
      (Verification.length_parserPart_le _ parser)
  rw [diagnostics_verify files parser host request config tool htext,
    (Diagnostics.toList_pushAll_perm _ _).countP_eq]
  show List.countP _ ([] ++ _) ≤ 1
  rw [List.nil_append, List.countP_append, List.countP_append]
  omega

/-- What a report says of a row of the catalog is the share of that row. -/
theorem filter_ruleId_verify {text : List Char}
    (htext : files.text? request.path = some text) {r : Rule}
    (hr : r ∈ Rule.catalog) (severity : Severity) :
    ((verify files parser host request config tool).1.diagnostics.bucket
        severity).filter (·.ruleId = some r.id) =
      r.share (.resolve request config.detection config.endpoints text)
        severity := by
  obtain ⟨hnoParser, hnoProbe⟩ := Rule.id_ne_of_mem_catalog r hr
  have hparser : (Verification.start request config |>.parserPart
      parser).1.filter (fun d => d.ruleId = some r.id ∧ d.severity = severity) =
        [] := by
    rw [List.filter_eq_nil_iff]
    intro d hd
    obtain ⟨-, hid⟩ := Verification.origin_of_mem_parserPart _ parser d hd
    simp [hid, hnoParser.symm]
  have hprobe : (Verification.start request config |>.probePart
      host).1.filter (fun d => d.ruleId = some r.id ∧ d.severity = severity) =
        [] := by
    rw [List.filter_eq_nil_iff]
    intro d hd
    obtain ⟨-, hid, -⟩ := Verification.origin_of_mem_probePart _ host d hd
    simp [hid, hnoProbe.symm]
  simp only [Bool.decide_and] at hparser hprobe
  rw [diagnostics_verify files parser host request config tool htext,
    Diagnostics.bucket_pushAll, Diagnostics.bucket_empty, List.nil_append,
    List.filter_filter, List.filter_append, List.filter_append, hparser, hprobe,
    List.append_nil, List.append_nil, ← List.filter_filter,
    Rule.filter_recorded, Rule.filter_shares_catalog hr]

/-! ## All runs -/

/-- Every diagnostic of a report stands among those of its severity and has one
of the four origins; the parser is heard at most once.  The rules that are named
as evaluated are, in the order of the catalog and without repetition, those
that apply to the target and the profile of a script that was loaded, and none
otherwise.  No rule has failed. -/
theorem provenance_verify :
    let report := (verify files parser host request config tool).1
    let coverage := report.rules.coverage
    (∀ severity, ∀ d ∈ report.diagnostics.bucket severity,
        d.severity = severity ∧ d.Origin request report) ∧
      report.diagnostics.toList.countP (·.ruleId = some .parserCheck) ≤ 1 ∧
      (report.stage = .failed ↔ files.text? request.path = none) ∧
      report.profile.profile =
        ((files.text? request.path).bind fun text =>
          (Context.resolve request config.detection config.endpoints
            text).profile) ∧
      coverage.evaluated =
        (if files.text? request.path = none then []
        else
          Rule.applicableIds Rule.catalog request.target
            report.profile.profile) ∧
      coverage.evaluated.Nodup ∧
      coverage.evaluated.Sublist (Rule.catalog.map (·.id)) ∧
      coverage.failed = [] := by
  intro report coverage
  cases htext : files.text? request.path with
  | none =>
    obtain ⟨hstage, hprofile, hcoverage, error, -, hds⟩ :=
      report_of_text_eq_none files parser host request config tool htext
    have hnothing : coverage = .empty := hcoverage
    refine ⟨fun severity d hd => ?_, ?_, ⟨fun _ => rfl, fun _ => hstage⟩, hprofile,
      ?_⟩
    · exact origin_of_text_eq_none files parser host request config tool htext hd
    · rw [show report.diagnostics = _ from hds]
      exact List.countP_le_length
    · rw [hnothing]
      exact ⟨rfl, List.nodup_nil, List.nil_sublist _, rfl⟩
  | some text =>
    obtain ⟨hstage, hprofile, hevaluated, hfailed⟩ :=
      coverage_of_text files parser host request config tool htext
    have hsublist := Rule.applicableIds_sublist request.target
      report.profile.profile
    rw [← hprofile] at hevaluated
    refine ⟨fun severity d hd => ?_, ?_, ?_, hprofile, ?_, ?_, ?_, hfailed⟩
    · exact origin_of_text files parser host request config tool htext hd
    · exact countP_parserCheck_of_text files parser host request config tool
        htext
    · rw [show report.stage = .summarized from hstage]
      exact ⟨Stage.noConfusion, nofun⟩
    · rw [if_neg (Option.some_ne_none text)]
      exact hevaluated
    · rw [show coverage.evaluated = _ from hevaluated]
      exact hsublist.nodup Rule.catalog_ids_nodup
    · rw [show coverage.evaluated = _ from hevaluated]
      exact hsublist

end

end Preflight
