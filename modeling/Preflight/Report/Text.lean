import Preflight.Report.Basic

/-!
# Reports as text

Four lines of heading, the diagnostics in three sections, and a banner with the verdict.
-/

namespace Preflight.Report

/-- The program's name in the heading. -/
def toolName : String := "psverify"

/-- The scores behind a profile. -/
def scoresText : Option Scores → String
  | none => ""
  | some s => s!" [scores: inventory={s.inventory} deploy={s.deploy} connect={s.connect}]"

/-- The profile and how it was found. -/
def profileText (p : ProfileInfo) : String :=
  match p.source, p.profile with
  | .notApplicable, _ => "n/a"
  | .undetermined, _ | _, none => "undetermined (universal rules only)" ++ scoresText p.scores
  | .explicit, some profile => s!"{profile.label} (explicit)"
  | .detected, some profile => s!"{profile.label} (detected)" ++ scoresText p.scores

/-- The entry of a diagnostic in its section. -/
def entryText (d : Diagnostic) : String :=
  match d.ruleId with
  | some id => s!"  - [{id.key}] {d.message}\n"
  | none => s!"  - {d.message}\n"

/-- A section: a title with the number of entries, and the entries. -/
def sectionText (title : String) (ds : List Diagnostic) : String :=
  let entries := if ds.isEmpty then "  (none)\n" else String.join (ds.map entryText)
  s!"\n{title} ({ds.length}):\n" ++ entries

/-- The last line. -/
def bannerText (v : Verdict) : String :=
  if v.passed then s!"PASS: no errors ({v.warningCount} warning(s), {v.infoCount} info)\n"
  else s!"FAIL: {v.errorCount} error(s), {v.warningCount} warning(s)\n"

/-- The report as text. -/
def toText (r : Report) : String :=
  s!"{toolName} {r.tool.version}\n" ++
  s!"Script: {r.script.path} ({r.script.size} bytes)\n" ++
  s!"Target: {r.target.label}\n" ++
  s!"Profile: {profileText r.profile}\n" ++
  sectionText "ERRORS" r.diagnostics.errors ++
  sectionText "WARNINGS" r.diagnostics.warnings ++
  sectionText "INFO" r.diagnostics.info ++
  "\n" ++ bannerText r.verdict

theorem toText_ne_empty (r : Report) : r.toText ≠ "" := by
  intro h
  unfold toText at h
  simp only [String.append_eq_empty_iff] at h
  exact absurd h.1.2 (by decide)

end Preflight.Report
