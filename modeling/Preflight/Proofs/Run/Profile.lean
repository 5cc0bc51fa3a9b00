import Preflight.Proofs.Choice
import Preflight.Proofs.Run.Provenance
import Preflight.Proofs.Run.Reading

/-!
# The profile of a run

`ProfileInfo.resolve` gives one of four answers (`ProfileInfo.resolve_cases`).
`Report.TellsProfile` says when a report has to give which of them, and
`Report.TellsDetection` what it tells of a profile that was searched for: the
scores, the choice, and which rules run where nothing was chosen.
`profile_verify` says that every report does so.
-/

namespace Preflight

/-! ## The four answers -/

/-- The profile that is resolved, with the condition for each of the answers. -/
theorem ProfileInfo.resolve_cases (target : Target) (named : Option Profile)
    (policy : DetectionPolicy) (text : List Char) :
    (target ≠ .pdq ∧ resolve target named policy text = .notApplicable) ∨
      (target = .pdq ∧ ∃ p, named = some p ∧
        resolve target named policy text = ⟨some p, .explicit, none⟩) ∨
      (target = .pdq ∧ named = none ∧ ∃ p,
        policy.Chooses (.ofText text) p ∧
        resolve target named policy text =
          ⟨some p, .detected, some (.ofText text)⟩) ∨
      (target = .pdq ∧ named = none ∧
        (∀ p, (Scores.ofText text).get p < policy.minConfidence) ∧
        resolve target named policy text =
          ⟨none, .undetermined, some (.ofText text)⟩) := by
  unfold resolve
  by_cases htarget : target = .pdq
  · rw [if_neg (not_not_intro htarget)]
    cases named with
    | some p => exact .inr (.inl ⟨htarget, p, rfl, rfl⟩)
    | none =>
      have hscores : (policy.detect text).scores = .ofText text := rfl
      cases hdecide : (policy.detect text).profile with
      | some p =>
        have hchooses := DetectionPolicy.decide_eq_some_iff.mp hdecide
        simp only [hdecide, hscores]
        exact .inr (.inr (.inl ⟨htarget, trivial, p, hchooses, rfl⟩))
      | none =>
        have hbelow := DetectionPolicy.decide_eq_none_iff.mp hdecide
        simp only [hdecide, hscores]
        exact .inr (.inr (.inr ⟨htarget, trivial, hbelow, rfl⟩))
  · rw [if_pos htarget]
    exact .inl ⟨htarget, rfl⟩

/-- No profile is chosen where every score is below the threshold. -/
theorem DetectionPolicy.Chooses.not_below {policy : DetectionPolicy}
    {scores : Scores} {p : Profile} (h : policy.Chooses scores p) :
    ¬∀ q, scores.get q < policy.minConfidence := by
  intro hbelow
  have hlow := hbelow p
  have hhigh := h.confident
  omega

/-! ## What reports tell -/

/-- The report is of the PDQ rules with a generic column, and of no others. -/
structure Report.KeepsToUniversal (report : Report) : Prop where
  evaluated : report.rules.coverage.evaluated =
    (Rule.catalog.filter fun r =>
      r.targets.contains .pdq && r.isUniversal).map (·.id)
  isUniversal : ∀ severity, ∀ d ∈ report.diagnostics.bucket severity,
    ∀ r ∈ Rule.catalog, d.ruleId = some r.id → r.isUniversal

/-- What a report tells of a profile that was searched for in a text. -/
structure Report.TellsDetection (report : Report) (policy : DetectionPolicy)
    (text : List Char) : Prop where
  scores_eq : report.profile.scores = some (.ofText text)
  detected_iff : ∀ p,
    report.profile.source = .detected ∧ report.profile.profile = some p ↔
      policy.Chooses (.ofText text) p
  undetermined_iff :
    report.profile.source = .undetermined ∧ report.profile.profile = none ↔
      ∀ p, (Scores.ofText text).get p < policy.minConfidence
  keepsToUniversal :
    report.profile.source = .undetermined → report.KeepsToUniversal

/-- What a report tells of the profile, for a script with a text or without. -/
structure Report.TellsProfile (report : Report) (request : Request)
    (policy : DetectionPolicy) (text? : Option (List Char)) : Prop where
  failed_iff : report.stage = .failed ↔ text? = none
  notApplicable_iff : report.profile.source = .notApplicable ↔
    report.stage = .failed ∨ request.target ≠ .pdq
  of_notApplicable : report.profile.source = .notApplicable →
    report.profile.profile = none ∧ report.profile.scores = none
  explicit_iff : report.profile.source = .explicit ↔
    report.stage ≠ .failed ∧ request.target = .pdq ∧
      request.overrides.profile ≠ none
  of_explicit : report.profile.source = .explicit →
    report.profile.profile = request.overrides.profile ∧
      report.profile.scores = none
  detection : ∀ text, text? = some text → request.target = .pdq →
    request.overrides.profile = none → report.TellsDetection policy text

namespace Report

section

variable {report : Report} {request : Request} {policy : DetectionPolicy}
  {text : List Char}

/-- A failed run has no profile to tell. -/
theorem tellsProfile_of_failed (hstage : report.stage = .failed)
    (hprofile : report.profile = .notApplicable) :
    report.TellsProfile request policy none where
  failed_iff := ⟨fun _ => rfl, fun _ => hstage⟩
  notApplicable_iff := by
    rw [hprofile]
    exact ⟨fun _ => .inl hstage, fun _ => rfl⟩
  of_notApplicable := by
    rw [hprofile]
    exact fun _ => ⟨rfl, rfl⟩
  explicit_iff := by
    rw [hprofile]
    exact ⟨nofun, fun h => absurd hstage h.1⟩
  of_explicit := by
    rw [hprofile]
    exact nofun
  detection := nofun

/-- A profile is searched for in the text of a PDQ script. -/
theorem tellsDetection_of_resolve (htarget : request.target = .pdq)
    (hnamed : request.overrides.profile = none)
    (hprofile : report.profile =
      .resolve request.target request.overrides.profile policy text)
    (huniversal : report.profile.source = .undetermined →
      report.KeepsToUniversal) :
    report.TellsDetection policy text := by
  have hcases := ProfileInfo.resolve_cases request.target
    request.overrides.profile policy text
  rw [← hprofile, htarget, hnamed] at hcases
  rcases hcases with ⟨hother, -⟩ | ⟨-, p, hsome, -⟩ |
    ⟨-, -, p, hchooses, hinfo⟩ | ⟨-, -, hbelow, hinfo⟩
  · exact absurd rfl hother
  · cases hsome
  · refine ⟨by rw [hinfo], fun q => ?_, ?_, huniversal⟩
    · rw [hinfo]
      constructor
      · intro h
        have hsame : p = q := Option.some.inj h.2
        exact hsame ▸ hchooses
      · intro h
        exact ⟨rfl, congrArg some (hchooses.eq h)⟩
    · rw [hinfo]
      exact ⟨fun h => (nomatch h.1), fun h => absurd h hchooses.not_below⟩
  · refine ⟨by rw [hinfo], fun q => ?_, ?_, huniversal⟩
    · rw [hinfo]
      exact ⟨fun h => (nomatch h.1), fun h => absurd hbelow h.not_below⟩
    · rw [hinfo]
      exact ⟨fun _ => hbelow, fun _ => ⟨rfl, rfl⟩⟩

/-- A run with a text tells the profile that is resolved. -/
theorem tellsProfile_of_resolve (hstage : report.stage ≠ .failed)
    (hprofile : report.profile =
      .resolve request.target request.overrides.profile policy text)
    (huniversal : report.profile.source = .undetermined →
      report.KeepsToUniversal) :
    report.TellsProfile request policy (some text) := by
  have hdetection (other : List Char) (hother : some text = some other)
      (htarget : request.target = .pdq)
      (hnamed : request.overrides.profile = none) :
      report.TellsDetection policy other := by
    rw [← Option.some.inj hother]
    exact tellsDetection_of_resolve htarget hnamed hprofile huniversal
  have hfailed : report.stage = .failed ↔ some text = none :=
    ⟨fun h => absurd h hstage, nofun⟩
  have hcases := ProfileInfo.resolve_cases request.target
    request.overrides.profile policy text
  rw [← hprofile] at hcases
  rcases hcases with ⟨htarget, hinfo⟩ | ⟨htarget, p, hnamed, hinfo⟩ |
    ⟨htarget, hnamed, p, -, hinfo⟩ | ⟨htarget, hnamed, -, hinfo⟩
  · refine ⟨hfailed, ?_, ?_, ?_, ?_, hdetection⟩
    all_goals rw [hinfo]
    · exact ⟨fun _ => .inr htarget, fun _ => rfl⟩
    · exact fun _ => ⟨rfl, rfl⟩
    · exact ⟨nofun, fun h => absurd h.2.1 htarget⟩
    · exact nofun
  · refine ⟨hfailed, ?_, ?_, ?_, ?_, hdetection⟩
    all_goals rw [hinfo]
    · exact ⟨nofun, fun h => h.elim (absurd · hstage) (absurd htarget)⟩
    · exact nofun
    · rw [hnamed]
      exact ⟨fun _ => ⟨hstage, htarget, nofun⟩, fun _ => rfl⟩
    · exact fun _ => ⟨hnamed.symm, rfl⟩
  all_goals
    refine ⟨hfailed, ?_, ?_, ?_, ?_, hdetection⟩
    all_goals rw [hinfo]
    · exact ⟨nofun, fun h => h.elim (absurd · hstage) (absurd htarget)⟩
    · exact nofun
    · exact ⟨nofun, fun h => absurd hnamed h.2.2⟩
    · exact nofun

end

end Report

/-! ## Rules without a profile -/

namespace Rule

/-- A rule applies to a PDQ script without a profile if it is a PDQ rule with a
generic column. -/
theorem appliesTo_of_profile_eq_none (r : Rule) {context : Context}
    (htarget : context.target = .pdq) (hprofile : context.profile = none) :
    r.appliesTo context = (r.targets.contains .pdq && r.isUniversal) := by
  unfold appliesTo severityIn isUniversal
  rw [htarget, hprofile]
  by_cases hpdq : Target.pdq ∈ r.targets
  · have hcontains : r.targets.contains .pdq = true := by simpa using hpdq
    rw [if_pos hpdq, hcontains]
    rfl
  · have hcontains : r.targets.contains .pdq = false := by simpa using hpdq
    rw [if_neg hpdq, hcontains]
    rfl

/-- A rule that has a share of the diagnostics applies. -/
theorem appliesTo_of_mem_share {r : Rule} {context : Context}
    {severity : Severity} {d : Diagnostic} (hd : d ∈ r.share context severity) :
    r.appliesTo context := by
  unfold share at hd
  unfold appliesTo
  cases hactive : r.severityIn context.target context.profile with
  | none =>
    rw [hactive] at hd
    cases hd
  | some active => rfl

end Rule

section

variable (files : FileSystem) (parser : Parser) (host : Option Host)
  (request : Request) (config : Config) (tool : Tool)

/-- Where no profile is found for a PDQ script, its report is of the universal
rules. -/
theorem keepsToUniversal_verify {script : ScriptInfo} {text : List Char}
    (hread : files.script request.path = .ok (script, text))
    (hundetermined : (ProfileInfo.resolve request.target
      request.overrides.profile config.detection text).source = .undetermined) :
    (verify files parser host request config tool).1.KeepsToUniversal := by
  have htext := FileSystem.text?_of_script hread
  have hcases := ProfileInfo.resolve_cases request.target
    request.overrides.profile config.detection text
  have hpdq : request.target = .pdq ∧ (ProfileInfo.resolve request.target
      request.overrides.profile config.detection text).profile = none := by
    rcases hcases with ⟨-, hinfo⟩ | ⟨-, p, -, hinfo⟩ | ⟨-, -, p, -, hinfo⟩ |
      ⟨htarget, -, -, hinfo⟩
    · rw [hinfo] at hundetermined
      cases hundetermined
    · rw [hinfo] at hundetermined
      cases hundetermined
    · rw [hinfo] at hundetermined
      cases hundetermined
    · rw [hinfo]
      exact ⟨htarget, rfl⟩
  have happlies (r : Rule) :
      r.appliesTo (.resolve request config.detection config.endpoints text) =
        (r.targets.contains .pdq && r.isUniversal) := by
    rw [Context.resolve_eq]
    exact r.appliesTo_of_profile_eq_none hpdq.1 hpdq.2
  constructor
  · rw [verify_of_script files parser host request config tool hread]
    show (Rule.evaluate Rule.catalog (.ofProfile request config.endpoints text
      (.resolve request.target request.overrides.profile config.detection
        text)) .empty).1.evaluated = _
    rw [← Context.resolve_eq, Rule.evaluated_evaluate]
    simp only [happlies]
  · intro severity d hd r hr hid
    have hmem : d ∈ ((verify files parser host request config
        tool).1.diagnostics.bucket severity).filter (·.ruleId = some r.id) :=
      List.mem_filter.mpr ⟨hd, decide_eq_true hid⟩
    rw [filter_ruleId_verify files parser host request config tool htext hr
      severity] at hmem
    have hactive := Rule.appliesTo_of_mem_share hmem
    rw [happlies] at hactive
    exact (Bool.and_eq_true_iff.mp hactive).2

/-- Every report tells the profile of its run. -/
theorem profile_verify :
    (verify files parser host request config tool).1.TellsProfile request
      config.detection (files.text? request.path) := by
  cases hread : files.script request.path with
  | error refusal =>
    have hverify := verify_of_refusal files parser host request config tool hread
    rw [FileSystem.text?_of_refusal hread, hverify]
    exact Report.tellsProfile_of_failed rfl rfl
  | ok script =>
    have hverify := verify_of_script files parser host request config tool hread
    have hprofile : (verify files parser host request config tool).1.profile =
        .resolve request.target request.overrides.profile config.detection
          script.2 := by
      rw [hverify]
      rfl
    have hstage :
        (verify files parser host request config tool).1.stage ≠ .failed := by
      rw [hverify]
      exact Stage.noConfusion
    rw [FileSystem.text?_of_script hread]
    apply Report.tellsProfile_of_resolve hstage hprofile
    intro hundetermined
    rw [hprofile] at hundetermined
    exact keepsToUniversal_verify files parser host request config tool hread
      hundetermined

end

end Preflight
