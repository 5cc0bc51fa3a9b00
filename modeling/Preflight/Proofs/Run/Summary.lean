import Preflight.Proofs.Run.Stages

/-!
# What a summary stands for

A run can be summarized after any calls.  `Covered` says that the report
stands for a script that has been read and on which every rule that applies
has run.

Of the stages that a run reaches only `failed` is kept by a summary.  The
summary of a run whose rules were never called therefore looks like that of a
clean script, and it passes: `covered_of_passing_iff` says exactly when a
summary can be relied on.
-/

namespace Preflight.History

/-- The script was read and is text, and the report lists every rule that
applies to its target and profile. -/
def Covered (request : Request) (config : Config) (calls : List Call)
    (report : Report) : Prop :=
  ∃ text, firstRead? request.path calls = some (some text) ∧
    report.rules.coverage.evaluated =
      Rule.applicableIds Rule.catalog request.target
        (Context.resolve request config.detection config.endpoints text).profile

/-- The report claims that the run was completed, or that the script passed. -/
def Passing (report : Report) : Prop :=
  report.stage = .summarized ∨ report.verdict.status = .pass

variable {request : Request} {config : Config} {calls : List Call}

/-- A report without rules covers nothing, since some rule always applies. -/
theorem not_covered_of_evaluated_nil {report : Report}
    (h : report.rules.coverage.evaluated = []) :
    ¬Covered request config calls report := by
  rintro ⟨text, _, hevaluated⟩
  rw [h] at hevaluated
  exact Rule.applicableIds_catalog_ne_nil _ _ hevaluated.symm

/-- Before the rules have been called, nothing is covered. -/
theorem Stands.covered_iff {h : History} (hstands : Stands request config calls h)
    (tool : Tool) :
    Covered request config calls (h.state.summarize tool) ↔
      RulesCalled calls ∧ firstRead? request.path calls ≠ some none := by
  cases hstands with
  | fresh hread =>
    refine iff_of_false (not_covered_of_evaluated_nil rfl) ?_
    rintro ⟨hrules, _⟩
    exact load_mem_iff.mp hrules.load_mem hread
  | failed script message ruleId hread =>
    exact iff_of_false (not_covered_of_evaluated_nil rfl) fun hfound => hfound.2 hread
  | loaded script text hread hrules =>
    exact iff_of_false (not_covered_of_evaluated_nil rfl) fun hfound => hrules hfound.1
  | evaluated script text stage coverage diagnostics events hread hrules hpast
      hcoverage =>
    exact iff_of_true ⟨text, hread, hcoverage⟩ ⟨hrules, by simp [hread]⟩

/-- Only a script that could not be read keeps a run from passing before its
rules are called. -/
theorem Stands.passing_iff {h : History} (hstands : Stands request config calls h)
    (tool : Tool) :
    Passing (h.state.summarize tool) ↔
      firstRead? request.path calls ≠ some none := by
  cases hstands with
  | fresh hread => exact iff_of_true (.inl rfl) (by simp [hread])
  | failed script message ruleId hread =>
    refine iff_of_false ?_ fun hfound => hfound hread
    rintro (hstage | hstatus)
    · cases hstage
    · cases hstatus
  | loaded script text hread => exact iff_of_true (.inl rfl) (by simp [hread])
  | evaluated script text stage coverage diagnostics events hread hrules hpast =>
    refine iff_of_true ?_ (by simp [hread])
    cases hpast <;> exact .inl rfl

/-- The stages of a run whose rules have not run, although nothing failed. -/
theorem Stands.unevaluated_iff {h : History}
    (hstands : Stands request config calls h) :
    (h.state.stage = .notStarted ∨ h.state.stage = .contentLoaded) ↔
      ¬RulesCalled calls ∧ firstRead? request.path calls ≠ some none := by
  cases hstands with
  | fresh hread =>
    have hrules : ¬RulesCalled calls :=
      fun hcalled => load_mem_iff.mp hcalled.load_mem hread
    exact iff_of_true (.inl rfl) ⟨hrules, by simp [hread]⟩
  | failed script message ruleId hread =>
    refine iff_of_false ?_ fun hfound => hfound.2 hread
    rintro (hstage | hstage) <;> cases hstage
  | loaded script text hread hrules =>
    exact iff_of_true (.inr rfl) ⟨hrules, by simp [hread]⟩
  | evaluated script text stage coverage diagnostics events hread hrules hpast =>
    refine iff_of_false ?_ fun hfound => hfound.1 hrules
    rintro (hstage | hstage) <;> cases hpast <;> cases hstage

/-- A run whose rules have not run, although nothing failed, passes. -/
theorem Stands.passes_of_unevaluated {h : History}
    (hstands : Stands request config calls h)
    (hstage : h.state.stage = .notStarted ∨ h.state.stage = .contentLoaded)
    (tool : Tool) :
    (h.state.summarize tool).stage = .summarized ∧
      (h.state.summarize tool).verdict.status = .pass ∧
      (h.state.summarize tool).verdict.exitCode = 0 := by
  cases hstands with
  | fresh | loaded => exact ⟨rfl, rfl, rfl⟩
  | failed => rcases hstage with hstage | hstage <;> cases hstage
  | evaluated _ _ _ _ _ _ _ _ hpast =>
    rcases hstage with hstage | hstage <;> cases hpast <;> cases hstage

/-- A passing summary can be relied on exactly if the rules have been called
after a load, or the script could not be read.  All other runs are summarized
before their rules have run, and pass. -/
theorem covered_of_passing_iff (request : Request) (config : Config)
    (tool : Tool) (calls : List Call) :
    let h := after request config calls
    let report := h.state.summarize tool
    ((Passing report → Covered request config calls report) ↔
        RulesCalled calls ∨ firstRead? request.path calls = some none) ∧
      ((h.state.stage = .notStarted ∨ h.state.stage = .contentLoaded) ↔
        ¬RulesCalled calls ∧ firstRead? request.path calls ≠ some none) ∧
      (h.state.stage = .notStarted ∨ h.state.stage = .contentLoaded →
        report.stage = .summarized ∧ report.verdict.status = .pass ∧
          report.verdict.exitCode = 0) := by
  intro h report
  have hstands : Stands request config calls h := stands_after request config calls
  refine ⟨?_, hstands.unevaluated_iff, fun hstage => ?_⟩
  · rw [hstands.passing_iff, hstands.covered_iff]
    by_cases hread : firstRead? request.path calls = some none
    · simp [hread]
    · simp [hread]
  · exact hstands.passes_of_unevaluated hstage tool

/-- Without any call, the summary passes and covers nothing. -/
theorem not_covered_without_calls :
    ¬∀ (request : Request) (config : Config) (tool : Tool) (calls : List Call),
      Passing ((after request config calls).state.summarize tool) →
        Covered request config calls
          ((after request config calls).state.summarize tool) := by
  intro hall
  have hcovered := hall ⟨"deploy.ps1", .pdq, .none⟩ .default
    ⟨"preflight", "0.1.0", none⟩ [] (.inl rfl)
  exact not_covered_of_evaluated_nil rfl hcovered

end Preflight.History
