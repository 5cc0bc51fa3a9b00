import Preflight.Proofs.Run.ErrorCount
import Preflight.Proofs.Run.Provenance
import Preflight.Proofs.Secrets

/-!
# Runs on scripts that hold secrets

The rule about secrets has one severity, that of an error, for every target and
under every profile, and so its share of a report is decided by the text alone
(`share_embeddedSecret`).  `embeddedSecret_verify` says it of whole runs: a
script that holds a secret has one error more for it and fails, whatever stands
before and behind the secret and whatever the run is asked to do.
-/

namespace Preflight

open Text

/-- The catalog has a row about secrets, which is an error in every column. -/
theorem Rule.exists_embeddedSecret :
    ∃ r ∈ catalog, r.id = .embeddedSecret ∧
      r.check = total Checks.embeddedSecrets ∧
      ∀ target profile, r.severityIn target profile = some .error := by
  refine ⟨_, List.mem_cons_self, rfl, rfl, fun target profile => ?_⟩
  cases target <;> rcases profile with _ | _ | _ | _ <;> rfl

/-- The share of a rule that looks for secrets is one error where the text holds
a secret. -/
theorem Rule.share_embeddedSecret {r : Rule} {context : Context}
    (hcheck : r.check = total Checks.embeddedSecrets)
    (hactive : r.severityIn context.target context.profile = some .error) :
    (HoldsSecret context.content ∧ ∃ message,
        r.share context .error = [⟨.error, message, some r.id⟩]) ∨
      ¬HoldsSecret context.content ∧ r.share context .error = [] := by
  rw [share, hactive, hcheck]
  simp only [total]
  rcases Checks.embeddedSecrets_cases context with
    ⟨hholds, message, hfound⟩ | ⟨hnone, hfound⟩
  · rw [hfound]
    exact .inl ⟨hholds, message, rfl⟩
  · rw [hfound]
    exact .inr ⟨hnone, rfl⟩

/-- A report with an error fails. -/
theorem fails_of_error (files : FileSystem) (parser : Parser)
    (host : Option Host) (request : Request) (config : Config) (tool : Tool)
    {d : Diagnostic}
    (hd : d ∈ (verify files parser host request config tool).1.diagnostics.errors) :
    let verdict := (verify files parser host request config tool).1.verdict
    verdict.status = .fail ∧ verdict.exitCode = 1 := by
  intro verdict
  have hverdict : verdict = _ :=
    verdict_verify files parser host request config tool
  have herrors : ¬(verify files parser host request config
      tool).1.diagnostics.errors.length = 0 := by
    have := List.length_pos_of_mem hd
    omega
  obtain ⟨-, hstatus, hexit⟩ := Verdict.of_eq
    (verify files parser host request config tool).1.diagnostics
  rw [if_neg herrors] at hstatus hexit
  rw [hverdict]
  exact ⟨hstatus, hexit⟩

/-- The errors of a report on a text name the rule about secrets exactly if some
piece of the text is a secret.  Then one of them does, and the run fails. -/
theorem embeddedSecret_verify (files : FileSystem) (parser : Parser)
    (host : Option Host) (request : Request) (config : Config) (tool : Tool)
    {bytes : List UInt8} {text : List Char}
    (hfile : files request.path = .file bytes)
    (htext : decodeScript bytes = some text) :
    let report := (verify files parser host request config tool).1
    let found :=
      report.diagnostics.errors.filter (·.ruleId = some .embeddedSecret)
    (found ≠ [] ↔
        ∃ front secret back, text = front ++ secret ++ back ∧ Secret secret) ∧
      (found ≠ [] →
        found.length = 1 ∧ report.verdict.status = .fail ∧
          report.verdict.exitCode = 1) := by
  intro report found
  have htext : files.text? request.path = some text := by
    rw [FileSystem.text?, hfile]
    exact htext
  obtain ⟨r, hr, hid, hcheck, hseverity⟩ := Rule.exists_embeddedSecret
  have hfound : found = r.share _ .error :=
    hid ▸ filter_ruleId_verify files parser host request config tool htext hr
      .error
  have hcases := Rule.share_embeddedSecret hcheck (hseverity
    (Context.resolve request config.detection config.endpoints text).target _)
  rw [Context.resolve_content] at hcases
  rcases hcases with ⟨hholds, message, hshare⟩ | ⟨hnone, hshare⟩
  · rw [hfound, hshare]
    refine ⟨⟨fun _ => hholds, fun _ => List.cons_ne_nil _ _⟩, fun _ => ⟨rfl, ?_⟩⟩
    have hmem : ⟨.error, message, some r.id⟩ ∈ found := by
      rw [hfound, hshare]
      exact List.mem_singleton_self _
    exact fails_of_error files parser host request config tool
      (List.mem_filter.mp hmem).1
  · rw [hfound, hshare]
    exact ⟨⟨fun h => absurd rfl h, fun h => absurd h hnone⟩,
      fun h => absurd rfl h⟩

/-- A password between two other lines of a Flask application, with the Kelvin
sign for a letter, is one error. -/
theorem embeddedSecret_verify_of_kelvin_sign :
    let text := "import os\nAPI_\u212AEY\t= 'abc'\nprint(1)".toList
    let bytes := Utf8.encode text
    let files : FileSystem := fun _ => .file bytes
    let report :=
      (verify files (fun _ => .valid) none ⟨"app.py", .flask, .none⟩ .default
        ⟨"preflight", "1", none⟩).1
    files "app.py" = .file bytes ∧ decodeScript bytes = some text ∧
      (report.diagnostics.errors.filter
        (·.ruleId = some .embeddedSecret)).length = 1 ∧
      report.verdict.status = .fail := by
  intro text bytes files report
  have hfile : files "app.py" = .file bytes := rfl
  have hdecode : decodeScript bytes = some text := by decide +kernel
  obtain ⟨hiff, hone⟩ := embeddedSecret_verify files (fun _ => .valid) none
    ⟨"app.py", .flask, .none⟩ .default ⟨"preflight", "1", none⟩ hfile hdecode
  have hliteral : Quoted "'abc'".toList :=
    @Quoted.mk '\'' '\'' "abc".toList (by decide) (by decide)
      (by simp [IsQuote]) (by decide)
  have hsecret : Secret "API_\u212AEY\t= 'abc'".toList :=
    @Secret.assigned "API_\u212AEY".toList "\t".toList " ".toList _
      (.inr (.inr (by decide))) (by decide) (by decide) hliteral
  have hholds := hiff.mpr
    ⟨"import os\n".toList, _, "\nprint(1)".toList, by decide, hsecret⟩
  obtain ⟨hlength, hstatus, -⟩ := hone hholds
  have hreport : report = (verify files (fun _ => .valid) none
    ⟨"app.py", .flask, .none⟩ .default ⟨"preflight", "1", none⟩).1 := rfl
  rw [hreport]
  exact ⟨hfile, hdecode, hlength, hstatus⟩

end Preflight
