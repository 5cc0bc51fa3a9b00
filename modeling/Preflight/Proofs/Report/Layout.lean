import Mathlib.Data.List.Forall2
import Preflight.Report.Text
import Preflight.Proofs.Lines

/-!
# How a report is laid out as text

The last line of a report tells its verdict (`Diagnostics.Tells`), whatever stands
in the lines above it: line ends in a path or in a message add lines, but all of
them come before (`Report.splitOn_toText`).

If what is shown holds no line end, the text is made of paragraphs with a blank
line between any two: the heading, three sections, and the verdict.
`Diagnostic.Shows` says what line a diagnostic has, and `Diagnostic.Lists` which
lines a section has.  Inside of a paragraph no line is blank, so the paragraphs can
be told apart again, and each diagnostic is in the section of its severity, once.

`toText_assemble` puts these together.
-/

namespace Preflight

/-! ## Texts that are made of lines -/

namespace Text

/-- Lines, each with its line end. -/
def closed (lines : List String) : List Char :=
  lines.flatMap fun line => line.toList ++ ['\n']

@[simp] theorem closed_nil : closed [] = [] := rfl

@[simp] theorem closed_cons (line : String) (lines : List String) :
    closed (line :: lines) = line.toList ++ '\n' :: closed lines := by
  simp [closed]

@[simp] theorem closed_append (lines more : List String) :
    closed (lines ++ more) = closed lines ++ closed more := by
  simp [closed]

/-- Lines without line ends of their own are what lies between the line ends. -/
theorem splitOn_closed {lines : List String}
    (h : ∀ line ∈ lines, '\n' ∉ line.toList) :
    List.splitOn '\n' (closed lines) = lines.map String.toList ++ [[]] := by
  induction lines with
  | nil => rfl
  | cons line lines ih =>
    obtain ⟨hline, hlines⟩ := List.forall_mem_cons.mp h
    rw [closed_cons, List.splitOn_append_cons_self_of_not_mem hline, ih hlines]
    rfl

/-- The line has something in it and no line end of its own. -/
def FullLine (line : String) : Prop := line.toList ≠ [] ∧ '\n' ∉ line.toList

theorem FullLine.ne_empty {line : String} (h : FullLine line) : line ≠ "" := by
  rintro rfl
  exact h.1 rfl

@[simp] theorem lineEnd_notMem_toDigits (n : Nat) : '\n' ∉ Nat.toDigits 10 n := by
  intro h
  have hdigit : '\n'.isDigit = true :=
    Nat.isDigit_of_mem_toDigits (by omega) (by omega) h
  exact absurd hdigit (by decide)

end Text

/-! ## Sections -/

namespace Diagnostic

/-- The line shows the diagnostic: a bullet, the rule in square brackets if there is
one, and the message. -/
inductive Shows : Diagnostic → String → Prop where
  | ofRule (severity : Severity) (message : String) (id : RuleId) :
      Shows ⟨severity, message, some id⟩ s!"  - [{id.key}] {message}"
  | bare (severity : Severity) (message : String) :
      Shows ⟨severity, message, none⟩ s!"  - {message}"

/-- The lines of a section: a title with the number of diagnostics, and one line for
each of them in their order, or a line that says that there are none. -/
inductive Lists (title : String) : List Diagnostic → List String → Prop where
  | empty : Lists title [] [s!"{title} (0):", "  (none)"]
  | entries {ds : List Diagnostic} {lines : List String} (hne : ds ≠ [])
      (h : List.Forall₂ Shows ds lines) :
      Lists title ds (s!"{title} ({ds.length}):" :: lines)

variable {d : Diagnostic} {ds : List Diagnostic} {title line : String}
  {lines : List String}

theorem exists_shows (d : Diagnostic) :
    ∃ line, d.Shows line ∧
      (Report.entryText d).toList = line.toList ++ ['\n'] := by
  obtain ⟨severity, message, ruleId⟩ := d
  cases ruleId with
  | some id => exact ⟨_, .ofRule severity message id, by simp [Report.entryText, toString]⟩
  | none => exact ⟨_, .bare severity message, by simp [Report.entryText, toString]⟩

theorem exists_forall₂_shows (ds : List Diagnostic) :
    ∃ lines, List.Forall₂ Shows ds lines ∧
      (String.join (ds.map Report.entryText)).toList = Text.closed lines := by
  induction ds with
  | nil => exact ⟨[], .nil, rfl⟩
  | cons d ds ih =>
    obtain ⟨line, hline, htext⟩ := exists_shows d
    obtain ⟨lines, hlines, hjoin⟩ := ih
    refine ⟨line :: lines, .cons hline hlines, ?_⟩
    simp [htext, hjoin]

theorem exists_lists (title : String) (ds : List Diagnostic) :
    ∃ lines, Lists title ds lines ∧
      (Report.sectionText title ds).toList = '\n' :: Text.closed lines := by
  by_cases hne : ds = []
  · subst hne
    exact ⟨_, .empty, by simp [Report.sectionText, toString]⟩
  · obtain ⟨lines, hlines, hjoin⟩ := exists_forall₂_shows ds
    exact ⟨_, .entries hne hlines, by simp [Report.sectionText, toString, hne, hjoin]⟩

theorem Shows.fullLine (h : d.Shows line) (hmessage : '\n' ∉ d.message.toList) :
    Text.FullLine line := by
  cases h with
  | ofRule severity message id =>
    have hkey : '\n' ∉ id.key.toList := by cases id <;> decide
    exact ⟨by simp [toString], by simpa [toString, hkey] using hmessage⟩
  | bare severity message =>
    exact ⟨by simp [toString], by simpa [toString] using hmessage⟩

theorem Lists.fullLine (htitle : '\n' ∉ title.toList) (h : Lists title ds lines)
    (hmessages : ∀ d ∈ ds, '\n' ∉ d.message.toList) :
    ∀ line ∈ lines, Text.FullLine line := by
  cases h with
  | empty =>
    refine List.forall_mem_cons.mpr ⟨?_, List.forall_mem_singleton.mpr ?_⟩
    · exact ⟨by simp [toString], by simp [toString, htitle]⟩
    · exact ⟨by decide, by decide⟩
  | entries hne hlines =>
    refine List.forall_mem_cons.mpr ⟨?_, ?_⟩
    · exact ⟨by simp [toString], by simp [toString, htitle]⟩
    clear hne
    induction hlines with
    | nil => exact nofun
    | cons hline _ ih =>
      obtain ⟨hmessage, hmessages⟩ := List.forall_mem_cons.mp hmessages
      exact List.forall_mem_cons.mpr ⟨hline.fullLine hmessage, ih hmessages⟩

end Diagnostic

/-! ## The verdict -/

namespace Diagnostics

/-- The line tells whether there are errors, and how many diagnostics there are. -/
inductive Tells (ds : Diagnostics) : String → Prop where
  | pass (h : ds.errors = []) :
      Tells ds s!"PASS: no errors ({ds.warnings.length} warning(s), {ds.info.length} info)"
  | fail (h : ds.errors ≠ []) :
      Tells ds s!"FAIL: {ds.errors.length} error(s), {ds.warnings.length} warning(s)"

variable {ds : Diagnostics} {line : String}

theorem exists_tells (ds : Diagnostics) :
    ∃ line, ds.Tells line ∧
      (Report.bannerText (.of ds)).toList = line.toList ++ ['\n'] := by
  by_cases h : ds.errors = []
  · refine ⟨_, .pass h, ?_⟩
    simp [Report.bannerText, Verdict.passed, Verdict.of, h, toString]
  · refine ⟨_, .fail h, ?_⟩
    simp [Report.bannerText, Verdict.passed, Verdict.of, h, toString]

theorem Tells.fullLine (h : ds.Tells line) : Text.FullLine line := by
  cases h with
  | pass | fail => exact ⟨by simp [toString], by simp [toString]⟩

/-- The first word tells whether there are errors. -/
theorem Tells.first_word (h : ds.Tells line) :
    ("PASS".toList <+: line.toList ↔ ds.errors = []) ∧
      ("FAIL".toList <+: line.toList ↔ ds.errors ≠ []) := by
  cases h with
  | pass h => simp [toString, h]
  | fail h => simp [toString, h]

end Diagnostics

/-! ## Reports -/

namespace Report

/-- The lines of the heading. -/
def heading (r : Report) : List String :=
  [s!"{toolName} {r.tool.version}",
    s!"Script: {r.script.path} ({r.script.size} bytes)",
    s!"Target: {r.target.label}",
    s!"Profile: {profileText r.profile}"]

/-- The paragraphs are those of the report: the heading, the three sections, and the
verdict. -/
inductive Paragraphs (r : Report) : List (List String) → Prop where
  | intro {errors warnings info : List String} {verdict : String}
      (herrors : Diagnostic.Lists "ERRORS" r.diagnostics.errors errors)
      (hwarnings : Diagnostic.Lists "WARNINGS" r.diagnostics.warnings warnings)
      (hinfo : Diagnostic.Lists "INFO" r.diagnostics.info info)
      (hverdict : r.diagnostics.Tells verdict) :
      Paragraphs r [r.heading, errors, warnings, info, [verdict]]

/-- The strings that the text shows. -/
def shown (r : Report) : List String :=
  r.tool.version :: r.script.path :: r.diagnostics.toList.map (·.message)

/-- Nothing that is shown holds a line end. -/
def Unbroken (r : Report) : Prop := ∀ s ∈ r.shown, '\n' ∉ s.toList

instance (r : Report) : Decidable r.Unbroken :=
  inferInstanceAs (Decidable (∀ s ∈ r.shown, '\n' ∉ s.toList))

variable {r : Report} {parts : List (List String)}

/-- The text is made of the lines of the paragraphs, with a blank line between any
two paragraphs. -/
theorem exists_paragraphs (hverdict : r.verdict = .of r.diagnostics) :
    ∃ parts, r.Paragraphs parts ∧
      r.toText.toList = Text.closed ([""].intercalate parts) := by
  obtain ⟨errors, herrors, herrorText⟩ :=
    Diagnostic.exists_lists "ERRORS" r.diagnostics.errors
  obtain ⟨warnings, hwarnings, hwarningText⟩ :=
    Diagnostic.exists_lists "WARNINGS" r.diagnostics.warnings
  obtain ⟨info, hinfo, hinfoText⟩ :=
    Diagnostic.exists_lists "INFO" r.diagnostics.info
  obtain ⟨verdict, htells, hbanner⟩ := r.diagnostics.exists_tells
  refine ⟨_, .intro herrors hwarnings hinfo htells, ?_⟩
  rw [← hverdict] at hbanner
  simp [toText, heading, toString, List.intercalate, herrorText, hwarningText,
    hinfoText, hbanner]

theorem lineEnd_notMem_profileText (p : ProfileInfo) :
    '\n' ∉ (profileText p).toList := by
  have hscores (scores : Option Scores) : '\n' ∉ (scoresText scores).toList := by
    unfold scoresText
    cases scores with
    | none => decide
    | some scores => simp [toString]
  have hlabel (profile : Profile) : '\n' ∉ profile.label.toList := by
    cases profile <;> decide
  obtain ⟨profile, source, scores⟩ := p
  cases source <;> cases profile <;> simp [profileText, toString, hscores, hlabel]

theorem Unbroken.fullLine_heading (h : r.Unbroken) :
    ∀ line ∈ r.heading, Text.FullLine line := by
  have hversion : '\n' ∉ r.tool.version.toList := h _ (by simp [shown])
  have hpath : '\n' ∉ r.script.path.toList := h _ (by simp [shown])
  have htarget : '\n' ∉ r.target.label.toList := by
    cases r.target <;> decide
  have hprofile := lineEnd_notMem_profileText r.profile
  simp only [heading, List.mem_cons, List.not_mem_nil, or_false, forall_eq_or_imp,
    forall_eq]
  refine ⟨?_, ?_, ?_, ?_⟩ <;> constructor <;>
    simp [toString, toolName, hversion, hpath, htarget, hprofile]

theorem Paragraphs.fullLine (hparts : r.Paragraphs parts) (h : r.Unbroken) :
    ∀ part ∈ parts, ∀ line ∈ part, Text.FullLine line := by
  have hmessage {d : Diagnostic} (hd : d ∈ r.diagnostics.toList) :
      '\n' ∉ d.message.toList := by
    apply h
    simp only [shown, List.mem_cons, List.mem_map]
    exact .inr (.inr ⟨d, hd, rfl⟩)
  cases hparts with
  | intro herrors hwarnings hinfo hverdict =>
    intro part hpart
    simp only [List.mem_cons, List.not_mem_nil, or_false] at hpart
    rcases hpart with rfl | rfl | rfl | rfl | rfl
    · exact h.fullLine_heading
    · exact herrors.fullLine (by decide) fun d hd =>
        hmessage (by simp [Diagnostics.toList, hd])
    · exact hwarnings.fullLine (by decide) fun d hd =>
        hmessage (by simp [Diagnostics.toList, hd])
    · exact hinfo.fullLine (by decide) fun d hd =>
        hmessage (by simp [Diagnostics.toList, hd])
    · exact List.forall_mem_singleton.mpr hverdict.fullLine

/-- The last of the lines tells the verdict. -/
theorem Paragraphs.exists_last (hparts : r.Paragraphs parts) :
    ∃ above verdict, r.diagnostics.Tells verdict ∧
      [""].intercalate parts = above ++ ["", verdict] := by
  cases hparts with
  | @intro errors warnings info verdict _ _ _ hverdict =>
    refine ⟨r.heading ++ "" :: errors ++ "" :: warnings ++ "" :: info, verdict,
      hverdict, ?_⟩
    simp [List.intercalate]

/-- The last line of the text tells the verdict, whatever stands above it. -/
theorem splitOn_toText (hverdict : r.verdict = .of r.diagnostics) :
    ∃ front verdict, r.diagnostics.Tells verdict ∧
      List.splitOn '\n' r.toText.toList = front ++ [verdict.toList, []] := by
  obtain ⟨parts, hparts, htext⟩ := exists_paragraphs hverdict
  obtain ⟨above, verdict, htells, hlines⟩ := hparts.exists_last
  refine ⟨List.splitOn '\n' (Text.closed above), verdict, htells, ?_⟩
  calc List.splitOn '\n' r.toText.toList
    _ = List.splitOn '\n'
        (Text.closed above ++ '\n' :: (verdict.toList ++ '\n' :: [])) := by
      rw [htext, hlines]
      simp
    -- The cut is at the blank line, so nothing is asked of the lines above it.
    _ = List.splitOn '\n' (Text.closed above) ++
        List.splitOn '\n' (verdict.toList ++ '\n' :: []) := by
      rw [List.splitOn_append_cons_self]
    _ = List.splitOn '\n' (Text.closed above) ++ [verdict.toList, []] := by
      rw [List.splitOn_append_cons_self_of_not_mem htells.fullLine.2]
      rfl

/-- The paragraphs are what lies between the blank lines. -/
theorem Paragraphs.splitOn_eq (hparts : r.Paragraphs parts) (h : r.Unbroken) :
    ([""].intercalate parts).splitOn "" = parts := by
  apply List.splitOn_intercalate
  · intro part hpart hblank
    exact (hparts.fullLine h part hpart "" hblank).ne_empty rfl
  · cases hparts with
    | intro => exact List.cons_ne_nil _ _

/-- If nothing that is shown holds a line end, the lines of the text are those of the
paragraphs and the blank lines between them. -/
theorem Unbroken.splitOn_toText (h : r.Unbroken)
    (hverdict : r.verdict = .of r.diagnostics) :
    ∃ parts, r.Paragraphs parts ∧
      List.splitOn '\n' r.toText.toList =
        ([""].intercalate parts).map String.toList ++ [[]] ∧
      ([""].intercalate parts).splitOn "" = parts := by
  obtain ⟨parts, hparts, htext⟩ := exists_paragraphs hverdict
  refine ⟨parts, hparts, ?_, hparts.splitOn_eq h⟩
  rw [htext]
  apply Text.splitOn_closed
  intro line hline
  rcases Text.mem_intercalate hline with hblank | ⟨part, hpart, hmem⟩
  · rw [List.mem_singleton.mp hblank]
    decide
  · exact (hparts.fullLine h part hpart line hmem).2

/-- The last line of a report tells the verdict by its first word and by its counts,
whatever strings the report is put together from.  If nothing that is shown holds a
line end, the text is the heading, the three sections, and the verdict, with a blank
line between any two of them and none inside. -/
theorem toText_assemble (tool : Tool) (script : ScriptInfo) (target : Target)
    (profile : ProfileInfo) (rules : RulesInfo) (ds : Diagnostics) (stage : Stage) :
    let r := assemble tool script target profile rules ds stage
    (∃ (front : List (List Char)) (verdict : String),
      List.splitOn '\n' r.toText.toList = front ++ [verdict.toList, []] ∧
        ds.Tells verdict ∧
        ("PASS".toList <+: verdict.toList ↔ ds.errors = []) ∧
        ("FAIL".toList <+: verdict.toList ↔ ds.errors ≠ [])) ∧
      r.verdict.exitCode = (if ds.errors = [] then 0 else 1) ∧
      r.heading.length = 4 ∧
      (r.Unbroken → ∃ parts, r.Paragraphs parts ∧
        List.splitOn '\n' r.toText.toList =
          ([""].intercalate parts).map String.toList ++ [[]] ∧
        ([""].intercalate parts).splitOn "" = parts) := by
  intro r
  have hverdict : r.verdict = .of r.diagnostics := rfl
  obtain ⟨front, verdict, htells, hlast⟩ := splitOn_toText hverdict
  refine ⟨⟨front, verdict, hlast, htells, htells.first_word⟩, ?_, rfl, ?_⟩
  · rw [hverdict]
    show (if ds.errors.isEmpty then Status.pass else Status.fail).exitCode = _
    by_cases h : ds.errors = [] <;> simp [h, Status.exitCode]
  · intro h
    exact h.splitOn_toText hverdict

/-- A message that looks like the verdict of a run without errors. -/
def lookalike : Diagnostics :=
  .record .empty .error "PASS: no errors (0 warning(s), 0 info)" none

theorem toText_assemble_of_lookalike :
    let r := assemble ⟨"psverify", "0.1.0", none⟩ (.unread "tool.ps1") .powerShell
      .notApplicable ⟨"1", .empty⟩ lookalike .rulesRun
    (∃ front : List (List Char), List.splitOn '\n' r.toText.toList =
        front ++ ["FAIL: 1 error(s), 0 warning(s)".toList, []]) ∧
      r.verdict.exitCode = 1 ∧ r.Unbroken ∧
      ∃ parts, r.Paragraphs parts ∧ ([""].intercalate parts).splitOn "" = parts := by
  intro r
  have herrors : lookalike.errors ≠ [] := by decide
  have hshown : r.Unbroken := by decide
  obtain ⟨⟨front, verdict, hlast, htells, _⟩, hcode, _, hparts⟩ :=
    toText_assemble ⟨"psverify", "0.1.0", none⟩ (.unread "tool.ps1") .powerShell
      .notApplicable ⟨"1", .empty⟩ lookalike .rulesRun
  obtain ⟨parts, hparagraphs, _, hsplit⟩ := hparts hshown
  rw [if_neg herrors] at hcode
  cases htells with
  | pass h => exact absurd h herrors
  | fail => exact ⟨⟨front, hlast⟩, hcode, hshown, parts, hparagraphs, hsplit⟩

end Report

end Preflight
