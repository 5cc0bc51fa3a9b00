import Preflight.Proofs.LetterCase.Words
import Preflight.Proofs.LineEnds.Search
import Preflight.Proofs.Run.AddedLines

/-!
# Runs on scripts that write to the console

The check for console output has one finding for every text: a violation if the text
writes to the console, and otherwise a note that says that it does not.  What it takes
for a console write is the name of the command with white space behind it
(`WritesHost`).

* `count_consoleWrite_ne_zero_iff`: console writes are counted exactly if there are any.
* `consoleOutput_verify`: an Inventory scanner fails for its console output exactly if
  it has such a write in it.

A call may go on without white space, with a parenthesis or a quote or at the end of a
line of statements.  A script that has only calls like these (`CallsHost`) is told
that it does not write to the console.
-/

namespace Preflight

namespace Text

/-- The name of the command stands in the text with white space behind it. -/
def WritesHost (text : List Char) : Prop :=
  ∃ front name gap back, text = front ++ (name ++ gap :: back) ∧
    Spells "Write-Host" name ∧ isSpace gap = true

/-- What continues the name of a command. -/
def InName (c : Char) : Prop := isWord c = true ∨ c = '-'

/-- The name of the command stands in the text, and is not part of a longer name. -/
def CallsHost (text : List Char) : Prop :=
  ∃ front name back, text = front ++ (name ++ back) ∧ Reads "Write-Host" name ∧
    (∀ c ∈ front.getLast?, ¬InName c) ∧ ∀ c ∈ back.head?, ¬InName c

end Text

open Text Pattern

namespace Checks

/-- What the text is told that has no console write in it. -/
def noConsoleWrites : Finding :=
  .note "Properly uses Write-Output instead of Write-Host"

/-- A console write is the name and one character of white space, if not more. -/
theorem count_consoleWrite_ne_zero_iff (content : List Char) :
    consoleWrites content ≠ 0 ↔ WritesHost content := by
  rw [consoleWrites, count_ne_zero_iff, occursIn_iff, consoleWrite]
  simp only [finds_append_iff, finds_text_insensitive_iff, finds_someSpace_iff]
  constructor
  · rintro ⟨front, _, back, rfl, name, blanks, rfl, hname, hne, hblanks⟩
    obtain ⟨gap, more, rfl⟩ := List.exists_cons_of_ne_nil hne
    refine ⟨front, name, gap, more ++ back, ?_, hname, hblanks gap List.mem_cons_self⟩
    rw [List.append_assoc, List.cons_append]
  · rintro ⟨front, name, gap, back, rfl, hname, hgap⟩
    refine ⟨front, name ++ [gap], back, ?_, name, [gap], rfl, hname,
      List.cons_ne_nil _ _, List.forall_mem_singleton.mpr hgap⟩
    rw [List.append_assoc, List.singleton_append]

/-- The check always has one finding. -/
theorem consoleOutput_cases (context : Context) :
    (WritesHost context.content ∧
        ∃ message, consoleOutput context = [.violation message]) ∨
      ¬WritesHost context.content ∧ consoleOutput context = [noConsoleWrites] := by
  rw [← count_consoleWrite_ne_zero_iff, not_not]
  by_cases hnone : consoleWrites context.content = 0
  · exact .inr ⟨hnone, if_pos hnone⟩
  · refine .inl ⟨hnone, ?_⟩
    rw [consoleWrites, consoleWrite] at hnone
    rw [consoleOutput, if_neg hnone]
    split_ifs <;> exact ⟨_, rfl⟩

end Checks

/-! ## Inventory scanners -/

/-- Console output is an error in an Inventory scanner. -/
theorem Rule.exists_consoleOutput :
    ∃ r ∈ catalog, r.id = .consoleOutput ∧ r.check = total Checks.consoleOutput ∧
      r.severityIn .pdq (some .inventory) = some .error := by
  have hrow : ∃ r ∈ catalog, r.id = .consoleOutput ∧
      r.severityIn .pdq (some .inventory) = some .error := by
    decide
  obtain ⟨r, hr, hid, hseverity⟩ := hrow
  exact ⟨r, hr, hid, check_of_find? hr hid rfl, hseverity⟩

/-- Every text gets the violation or the note.  The report on an Inventory scanner has
the violation as an error, and the run fails, exactly if the name of the command stands
in the text with white space behind it. -/
theorem consoleOutput_verify (files : FileSystem) (parser : Parser)
    (host : Option Host) (request : Request) (config : Config) (tool : Tool)
    {text : List Char} (htext : files.text? request.path = some text) :
    let report := (verify files parser host request config tool).1
    (∀ context : Context, context.content = text →
      (WritesHost text ∧
          ∃ message, Checks.consoleOutput context = [.violation message]) ∨
        ¬WritesHost text ∧ Checks.consoleOutput context = [Checks.noConsoleWrites]) ∧
    (request.target = .pdq → report.profile.profile = some .inventory →
      (report.FailsFor .consoleOutput ↔ WritesHost text) ∧
      (WritesHost text →
        report.verdict.status = .fail ∧ report.verdict.exitCode = 1)) := by
  intro report
  refine ⟨?_, fun htarget hprofile => ?_⟩
  · rintro context rfl
    exact Checks.consoleOutput_cases context
  · obtain ⟨r, hr, hid, hcheck, hseverity⟩ := Rule.exists_consoleOutput
    have hreport : report.IsOf .inventory text :=
      .mk files parser host request config tool htarget htext hprofile
    obtain ⟨context, hcontent, hfails⟩ := hreport.failsFor_iff hr
    have hiff : report.FailsFor .consoleOutput ↔ WritesHost text := by
      rw [← hid, hfails, hseverity, Rule.violations_of_total hcheck, ← hcontent]
      rcases Checks.consoleOutput_cases context with
        ⟨hwrites, message, hfound⟩ | ⟨hnone, hfound⟩
      · rw [hfound]
        exact iff_of_true ⟨rfl, List.cons_ne_nil _ _⟩ hwrites
      · rw [hfound]
        exact iff_of_false (fun h => h.2 rfl) hnone
    refine ⟨hiff, fun hwrites => ?_⟩
    obtain ⟨-, d, hd, -⟩ := hiff.mpr hwrites
    exact fails_of_error files parser host request config tool hd

/-- A call in capitals with two spaces behind it fails an Inventory scanner. -/
theorem consoleOutput_verify_of_capitals :
    let text := "WRITE-HOST  'done'".toList
    let files : FileSystem := fun _ => .file (Utf8.encode text)
    let request : Request := ⟨"t.ps1", .pdq, ⟨some .inventory, false, false⟩⟩
    let report := (verify files (fun _ => .valid) none request .default
      ⟨"preflight", "1", none⟩).1
    files.text? request.path = some text ∧ request.target = .pdq ∧
      report.profile.profile = some .inventory ∧ report.FailsFor .consoleOutput ∧
      report.verdict.status = .fail ∧ report.verdict.exitCode = 1 := by
  intro text files request report
  have htext : files.text? request.path = some text := by decide +kernel
  have hreport : report = (verify files (fun _ => .valid) none request .default
    ⟨"preflight", "1", none⟩).1 := rfl
  have hprofile : report.profile.profile = some .inventory := by decide +kernel
  have hwrites : WritesHost text :=
    ⟨[], "WRITE-HOST".toList, ' ', " 'done'".toList, by decide, by decide, by decide⟩
  obtain ⟨-, hscanner⟩ := consoleOutput_verify files (fun _ => .valid) none request
    .default ⟨"preflight", "1", none⟩ htext
  rw [hreport] at hprofile ⊢
  obtain ⟨hiff, hverdict⟩ := hscanner rfl hprofile
  exact ⟨htext, rfl, hprofile, hiff.mpr hwrites, hverdict hwrites⟩

/-- A call with a parenthesis gets the note, and an Inventory scanner that makes it
passes. -/
theorem callsHost_and_passes :
    let text := "Write-Host(\"done\")".toList
    let report := (verify (fun _ => .file (Utf8.encode text)) (fun _ => .valid) none
      ⟨"t.ps1", .pdq, ⟨some .inventory, false, false⟩⟩ .default
      ⟨"preflight", "1", none⟩).1
    CallsHost text ∧
      (∀ context : Context, context.content = text →
        Checks.consoleOutput context = [Checks.noConsoleWrites]) ∧
      report.IsOf .inventory text ∧ report.verdict.status = .pass := by
  intro text report
  refine ⟨?_, ?_, .mk _ _ _ _ _ _ rfl ?_ ?_, ?_⟩
  · refine ⟨[], "Write-Host".toList, "(\"done\")".toList, by decide, by decide, nofun, ?_⟩
    rintro _ ⟨⟩
    rw [InName]
    decide
  · rintro context hcontent
    have hnone : Checks.consoleWrites text = 0 := by decide +kernel
    rcases Checks.consoleOutput_cases context with ⟨hwrites, -⟩ | ⟨-, hfound⟩
    · rw [hcontent] at hwrites
      exact absurd hnone ((Checks.count_consoleWrite_ne_zero_iff text).mpr hwrites)
    · exact hfound
  all_goals decide +kernel

end Preflight
