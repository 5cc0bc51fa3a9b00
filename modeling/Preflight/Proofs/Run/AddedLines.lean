import Preflight.Proofs.AddedLines.Checks
import Preflight.Proofs.Run.Secrets

/-!
# Runs on texts with lines around them

Four rules for PDQ scripts look for what must not be in a job: formatted
queries, prompts, windows and console writes.  What they find in a text they
find when lines are put above and below (`violations_amid`), and so a run that
fails for one of them still fails (`failsFor_amid`).

`hazards_amid` says it of contexts and of whole runs.
-/

namespace Preflight

namespace Rule

/-- The rules that look for what must not be in a job. -/
def jobHazards : List RuleId :=
  [.sqlInjection, .interactivePrompt, .guiElement, .consoleOutput]

/-- Under every profile, the rules about hazards apply. -/
theorem appliesTo_jobHazards {context : Context} (htarget : context.target = .pdq)
    (hprofile : context.profile.isSome = true) :
    ∀ r ∈ catalog, r.id ∈ jobHazards → r.appliesTo context = true := by
  obtain ⟨profile, hprofile⟩ := Option.isSome_iff_exists.mp hprofile
  simp only [appliesTo, htarget, hprofile]
  cases profile <;> decide

theorem violations_of_total {r : Rule} {check : Context → List Finding}
    (hcheck : r.check = total check) (context : Context) :
    r.violations context = (check context).filter (·.isViolation) := by
  rw [violations, hcheck, total]

section

variable {r : Rule} (hr : r ∈ catalog)

include hr

theorem violations_interactivePrompt (hid : r.id = .interactivePrompt)
    (context : Context) :
    r.violations context =
      (Checks.listed "Interactive commands found (will hang PDQ): "
        (Checks.promptItems context.content)).map .violation := by
  rw [violations_of_total (check_of_find? hr hid rfl),
    Checks.violations_interactivePrompts]

theorem violations_guiElement (hid : r.id = .guiElement) (context : Context) :
    r.violations context =
      (Checks.listed "GUI elements found (won't work in PDQ): "
        (Checks.windowItems context.content)).map .violation := by
  rw [violations_of_total (check_of_find? hr hid rfl),
    Checks.violations_guiElements]

theorem violations_consoleOutput (hid : r.id = .consoleOutput) (target : Target)
    (profile : Option Profile) :
    ∃ before after, ∀ context : Context,
      context.target = target → context.profile = profile →
      r.violations context =
        (Checks.counted before after
          (Checks.consoleWrites context.content)).map .violation := by
  obtain ⟨before, after, hwords⟩ :=
    Checks.violations_consoleOutput target profile
  refine ⟨before, after, fun context htarget hprofile => ?_⟩
  rw [violations_of_total (check_of_find? hr hid rfl),
    hwords context htarget hprofile]

/-- Lines around a text mask no hazard. -/
theorem violations_amid (hid : r.id ∈ jobHazards) {above below : List Char}
    {context wide : Context}
    (hwide : wide.content = Text.amid above below context.content)
    (h : r.violations context ≠ []) : r.violations wide ≠ [] := by
  simp only [jobHazards, List.mem_cons, List.not_mem_nil, or_false] at hid
  rcases hid with hid | hid | hid | hid
  · have hcheck := check_of_find? hr hid rfl
    rw [violations_of_total hcheck, Checks.violations_sqlInjection] at h ⊢
    exact Checks.sqlInjection_amid above below hwide h
  · rw [violations_interactivePrompt hr hid, ne_eq, List.map_eq_nil_iff,
      Checks.listed_eq_nil_iff] at h ⊢
    have hkept := Checks.promptItems_amid above below context.content
    rw [← hwide] at hkept
    exact fun hnone => h (List.sublist_nil.mp (hnone ▸ hkept))
  · rw [violations_guiElement hr hid, ne_eq, List.map_eq_nil_iff,
      Checks.listed_eq_nil_iff] at h ⊢
    have hkept := Checks.windowItems_amid above below context.content
    rw [← hwide] at hkept
    exact fun hnone => h (List.sublist_nil.mp (hnone ▸ hkept))
  · have hcounted (context : Context) :
        r.violations context = [] ↔ Checks.consoleWrites context.content = 0 := by
      obtain ⟨before, after, hwords⟩ :=
        violations_consoleOutput hr hid context.target context.profile
      rw [hwords context rfl rfl, List.map_eq_nil_iff, Checks.counted_eq_nil_iff]
    have hle := Checks.consoleWrites_amid above below context.content
    rw [← hwide] at hle
    rw [ne_eq, hcounted] at h ⊢
    omega

end

/-- Of a rule whose check always runs, the errors are its violations. -/
theorem share_error_ne_nil_iff {r : Rule} {check : Context → List Finding}
    (hcheck : r.check = total check) (context : Context) :
    r.share context .error ≠ [] ↔
      r.severityIn context.target context.profile = some .error ∧
        r.violations context ≠ [] := by
  rw [share, violations_of_total hcheck, hcheck]
  cases r.severityIn context.target context.profile with
  | none => simp
  | some active =>
    have hfinding (f : Finding) : r.findingShare active .error f = none ↔
        ¬(active = .error ∧ f.isViolation = true) := by
      cases f <;> simp [findingShare, Finding.isViolation]
    simp only [total, ne_eq, List.filterMap_eq_nil_iff, List.filter_eq_nil_iff,
      hfinding, Option.some.injEq]
    constructor
    · intro h
      by_contra hnone
      refine h fun f hf hactive => hnone ⟨hactive.1, fun hall => ?_⟩
      exact hall f hf hactive.2
    · rintro ⟨hactive, h⟩ hnone
      exact h fun f hf hviolation => hnone f hf ⟨hactive, hviolation⟩

end Rule

/-! ## Runs -/

/-- The run has failed with an error that names the rule. -/
def Report.FailsFor (report : Report) (id : RuleId) : Prop :=
  report.verdict.status = .fail ∧
    ∃ d ∈ report.diagnostics.errors, d.ruleId = some id

/-- A run on a text fails for a rule of the catalog exactly if the rule adds
errors. -/
theorem failsFor_verify_iff (files : FileSystem) (parser : Parser)
    (host : Option Host) (request : Request) (config : Config) (tool : Tool)
    {text : List Char} (htext : files.text? request.path = some text) {r : Rule}
    (hr : r ∈ Rule.catalog) :
    (verify files parser host request config tool).1.FailsFor r.id ↔
      r.share (.resolve request config.detection config.endpoints text) .error ≠
        [] := by
  rw [← filter_ruleId_verify files parser host request config tool htext hr]
  constructor
  · rintro ⟨-, d, hd, hid⟩
    exact List.ne_nil_of_mem (List.mem_filter.mpr ⟨hd, decide_eq_true hid⟩)
  · intro h
    obtain ⟨d, hd⟩ := List.exists_mem_of_ne_nil _ h
    obtain ⟨hd, hid⟩ := List.mem_filter.mp hd
    exact ⟨(fails_of_error files parser host request config tool hd).1, d, hd,
      of_decide_eq_true hid⟩

/-- The report of a run on a text for PDQ, under a profile that is named or
detected. -/
inductive Report.IsOf (profile : Profile) (text : List Char) : Report → Prop where
  | mk (files : FileSystem) (parser : Parser) (host : Option Host)
      (request : Request) (config : Config) (tool : Tool)
      (htarget : request.target = .pdq)
      (htext : files.text? request.path = some text)
      (hprofile : (verify files parser host request config
        tool).1.profile.profile = some profile) :
      IsOf profile text (verify files parser host request config tool).1

/-- Such a report fails for the rules that report errors and have violations. -/
theorem Report.IsOf.failsFor_iff {profile : Profile} {text : List Char}
    {report : Report} (h : report.IsOf profile text) {r : Rule}
    (hr : r ∈ Rule.catalog) :
    ∃ context : Context, context.content = text ∧
      (report.FailsFor r.id ↔
        r.severityIn .pdq (some profile) = some .error ∧
          r.violations context ≠ []) := by
  obtain ⟨files, parser, host, request, config, tool, htarget, htext, hprofile⟩ :=
    h
  refine ⟨_, Context.resolve_content request config.detection config.endpoints
    text, ?_⟩
  obtain ⟨-, hcontext, -⟩ :=
    coverage_of_text files parser host request config tool htext
  obtain ⟨check, hcheck⟩ := Rule.total_of_mem_catalog r hr
  rw [failsFor_verify_iff files parser host request config tool htext hr,
    Rule.share_error_ne_nil_iff hcheck, Context.resolve_target, htarget,
    ← hcontext, hprofile]

/-- A report that fails for a hazard in a text fails for it amid the lines. -/
theorem Report.IsOf.failsFor_amid {profile : Profile} {above below text : List Char}
    {report wide : Report} (h : report.IsOf profile text)
    (hwide : wide.IsOf profile (Text.amid above below text)) {id : RuleId}
    (hid : id ∈ Rule.jobHazards) (hfails : report.FailsFor id) :
    wide.FailsFor id := by
  have hrow : ∀ id ∈ Rule.jobHazards, ∃ r ∈ Rule.catalog, r.id = id := by decide
  obtain ⟨r, hr, rfl⟩ := hrow id hid
  obtain ⟨context, rfl, hiff⟩ := h.failsFor_iff hr
  obtain ⟨other, hother, hiff'⟩ := hwide.failsFor_iff hr
  obtain ⟨hseverity, hviolations⟩ := hiff.mp hfails
  exact hiff'.mpr ⟨hseverity, Rule.violations_amid hr hid hother hviolations⟩

/-! ## Nothing is masked -/

/-- All that the rule lists for the text of one context, it lists again for the
other. -/
def Rule.ListsAgain (r : Rule) (items : List Char → List String)
    (context wide : Context) : Prop :=
  (∃ heading, ∀ c ∈ [context, wide], r.violations c =
    (Checks.listed heading (items c.content)).map .violation) ∧
  (items context.content).Sublist (items wide.content)

/-- The rule counts no less in the text of the other context, in the same
words. -/
def Rule.CountsAgain (r : Rule) (number : List Char → Nat)
    (context wide : Context) : Prop :=
  (∃ before after, ∀ c ∈ [context, wide], r.violations c =
    (Checks.counted before after (number c.content)).map .violation) ∧
  number context.content ≤ number wide.content

/-- Lines above and below a text mask no hazard in it: under every profile, a
rule about hazards that has a violation for the text has one amid the lines, the
prompts and windows that it lists are listed again, and it counts no fewer
console writes.  A run that fails for such a rule still fails for it. -/
theorem hazards_amid (above below : List Char) :
    (∀ context wide : Context, context.target = .pdq →
      context.profile.isSome = true → wide.target = .pdq →
      wide.profile = context.profile →
      wide.content = Text.amid above below context.content →
      ∀ r ∈ Rule.catalog,
        (r.id ∈ Rule.jobHazards →
          r.appliesTo context = true ∧ r.appliesTo wide = true ∧
            (r.violations context ≠ [] → r.violations wide ≠ [])) ∧
        (r.id = .interactivePrompt →
          r.ListsAgain Checks.promptItems context wide) ∧
        (r.id = .guiElement → r.ListsAgain Checks.windowItems context wide) ∧
        (r.id = .consoleOutput →
          r.CountsAgain Checks.consoleWrites context wide)) ∧
    ∀ profile text report wide, Report.IsOf profile text report →
      Report.IsOf profile (Text.amid above below text) wide →
      ∀ id ∈ Rule.jobHazards, report.FailsFor id → wide.FailsFor id := by
  refine ⟨?_, fun profile text report wide h hwide id hid hfails =>
    h.failsFor_amid hwide hid hfails⟩
  intro context wide htarget hprofile htarget' hprofile' hwide r hr
  refine ⟨fun hid => ⟨?_, ?_, ?_⟩, fun hid => ⟨?_, ?_⟩, fun hid => ⟨?_, ?_⟩,
    fun hid => ⟨?_, ?_⟩⟩
  · exact Rule.appliesTo_jobHazards htarget hprofile r hr hid
  · exact Rule.appliesTo_jobHazards htarget' (hprofile' ▸ hprofile) r hr hid
  · exact Rule.violations_amid hr hid hwide
  · exact ⟨_, fun c _ => Rule.violations_interactivePrompt hr hid c⟩
  · exact hwide ▸ Checks.promptItems_amid above below context.content
  · exact ⟨_, fun c _ => Rule.violations_guiElement hr hid c⟩
  · exact hwide ▸ Checks.windowItems_amid above below context.content
  · obtain ⟨before, after, hwords⟩ :=
      Rule.violations_consoleOutput hr hid .pdq context.profile
    refine ⟨before, after, fun c hc => ?_⟩
    rcases List.mem_pair.mp hc with rfl | rfl
    · exact hwords c htarget rfl
    · exact hwords c htarget' hprofile'
  · exact hwide ▸ Checks.consoleWrites_amid above below context.content

/-- An argument on the line below does not make up for a credential prompt that
has none. -/
theorem hazards_amid_of_credential_prompt :
    let text := "Get-Credential".toList
    let wide := Text.amid [] " -Message 'Log on'".toList text
    let request : Request := ⟨"t.ps1", .pdq, ⟨some .deploy, false, false⟩⟩
    let context : Context := .resolve request .default [] text
    let report (content : List Char) : Report :=
      (verify (fun _ => .file (Utf8.encode content)) (fun _ => .valid) none
        request .default ⟨"preflight", "1", none⟩).1
    (∃ r ∈ Rule.catalog, r.id = .interactivePrompt ∧
      r.violations context ≠ [] ∧
      r.violations { context with content := wide } ≠ []) ∧
      (report text).FailsFor .interactivePrompt ∧
      (report wide).FailsFor .interactivePrompt := by
  intro text wide request context report
  obtain ⟨hcontexts, hruns⟩ := hazards_amid [] " -Message 'Log on'".toList
  have hrow : ∃ r ∈ Rule.catalog, r.id = .interactivePrompt := by decide
  obtain ⟨r, hr, hid⟩ := hrow
  have hitems : Checks.promptItems context.content ≠ [] := by decide +kernel
  have hviolations : r.violations context ≠ [] := by
    rw [Rule.violations_interactivePrompt hr hid, ne_eq, List.map_eq_nil_iff,
      Checks.listed_eq_nil_iff]
    exact hitems
  have hstill := (hcontexts context { context with content := wide } rfl rfl rfl
    rfl rfl r hr).1 (by rw [hid]; decide)
  have hreport (content : List Char)
      (htext : decodeScript (Utf8.encode content) = some content)
      (hprofile : (report content).profile.profile = some .deploy) :
      Report.IsOf .deploy content (report content) :=
    .mk _ _ none request _ _ rfl htext hprofile
  have hfails : (report text).FailsFor .interactivePrompt := by
    rw [Report.FailsFor]
    decide +kernel
  refine ⟨⟨r, hr, hid, hviolations, hstill.2.2 hviolations⟩, hfails, ?_⟩
  refine hruns .deploy text _ _ (hreport text ?_ ?_) (hreport wide ?_ ?_)
    .interactivePrompt (by decide) hfails
  all_goals decide +kernel

end Preflight
