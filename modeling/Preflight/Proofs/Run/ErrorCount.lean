import Preflight.Proofs.Run.Whole

/-!
# The number of errors of a whole run

`errorsOf` says how many errors a run is to find: one where there is no text,
and otherwise the violations of the rules that report errors, and one more
for a script that the parser rejects.  It knows nothing of the host, of
warnings or of notes.

`errorCount_verify` is the result: the verdict of every run counts these
errors, and passes exactly if there are none.
-/

namespace Preflight

/-- The script has parse errors. -/
def ParseOutcome.isInvalid : ParseOutcome → Bool
  | invalid _ => true
  | valid | toolUnavailable _ | failed _ => false

/-- How many errors a whole run is to find. -/
def errorsOf (files : FileSystem) (parser : Parser) (request : Request)
    (config : Config) : Nat :=
  match files.text? request.path with
  | none => 1
  | some text =>
    (Rule.errorViolations Rule.catalog
        (.resolve request config.detection config.endpoints text)).length +
      if request.target.isPowerShell ∧ !request.overrides.skipSyntaxCheck ∧
          config.parserCheck.enabled ∧ (parser request.path).isInvalid then 1
      else 0

/-- The verdict follows from the number of errors. -/
theorem Verdict.of_eq (ds : Diagnostics) :
    (of ds).errorCount = ds.errors.length ∧
      (of ds).status = (if ds.errors.length = 0 then .pass else .fail) ∧
      (of ds).exitCode = (if ds.errors.length = 0 then 0 else 1) := by
  cases herrors : ds.errors with
  | nil => simp [of, herrors, Status.exitCode]
  | cons d errors => simp [of, herrors, Status.exitCode]

/-- The parser adds an error exactly where it is wanted and rejects the
script. -/
theorem countP_error_parserPart (parser : Parser) (request : Request)
    (config : Config) :
    ((Verification.start request config).parserPart parser).1.countP
        (·.severity = .error) =
      if request.target.isPowerShell ∧ !request.overrides.skipSyntaxCheck ∧
          config.parserCheck.enabled ∧ (parser request.path).isInvalid then 1
      else 0 := by
  have hwants : (Verification.start request config).wantsParser =
      (request.target.isPowerShell && !request.overrides.skipSyntaxCheck &&
        config.parserCheck.enabled) := rfl
  rw [Verification.parserPart, hwants]
  cases request.target.isPowerShell
  · simp
  cases request.overrides.skipSyntaxCheck
  · cases config.parserCheck.enabled
    · simp
    · cases houtcome : parser request.path <;>
        simp [Verification.start, houtcome, ParseOutcome.diagnostic,
          ParseOutcome.isInvalid]
  · simp

/-- The probe adds no error. -/
theorem countP_error_probePart (v : Verification) (host : Option Host) :
    (v.probePart host).1.countP (·.severity = .error) = 0 := by
  rw [List.countP_eq_zero]
  intro d hd
  simpa using Verification.severity_ne_error_of_probePart v host d hd

/-- A report has the verdict on its diagnostics. -/
theorem verdict_verify (files : FileSystem) (parser : Parser)
    (host : Option Host) (request : Request) (config : Config) (tool : Tool) :
    (verify files parser host request config tool).1.verdict =
      .of (verify files parser host request config tool).1.diagnostics := by
  cases host <;> rfl

/-- The verdict of every run counts the errors that it is to find, and the
run passes, with exit code 0, exactly if there are none. -/
theorem errorCount_verify (files : FileSystem) (parser : Parser)
    (host : Option Host) (request : Request) (config : Config) (tool : Tool) :
    let verdict := (verify files parser host request config tool).1.verdict
    let errors := errorsOf files parser request config
    verdict.errorCount = errors ∧
      verdict.status = (if errors = 0 then .pass else .fail) ∧
      verdict.exitCode = (if errors = 0 then 0 else 1) := by
  intro verdict errors
  have hcount :
      (verify files parser host request config tool).1.diagnostics.errors.length =
        errors := by
    rw [show errors = errorsOf files parser request config from rfl, errorsOf]
    cases htext : files.text? request.path with
    | none =>
      obtain ⟨script, message, ruleId, hverify⟩ :=
        verify_of_text_eq_none files parser host request config tool htext
      rw [hverify]
      rfl
    | some text =>
      obtain ⟨bytes, hfile, hdecode⟩ := FileSystem.text?_eq_some htext
      rw [verify_of_file files parser host request config tool hfile hdecode]
      simp only [Report.assemble, Diagnostics.errors_length_pushAll,
        Rule.evaluate_diagnostics, Rule.countP_error_recorded, countP_error_parserPart,
        countP_error_probePart]
      simp [Diagnostics.empty]
  have hverdict := verdict_verify files parser host request config tool
  have hof := Verdict.of_eq (verify files parser host request config tool).1.diagnostics
  rw [← hverdict, hcount] at hof
  exact hof

end Preflight
