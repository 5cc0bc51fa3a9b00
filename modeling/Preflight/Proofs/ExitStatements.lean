import Preflight.Proofs.Catalog
import Preflight.Proofs.ExitCodes
import Preflight.Proofs.Pattern.Keyword

/-!
# Exit statements and their codes

A `ScriptLine` is an exit statement, with a number written in decimal or in
hexadecimal (`Renders`), or any text that does not hold the word `exit`.

* `definite_exitStatement`: at no place a search has a choice between two exit
  statements.  White space, the code and what follows it are told apart by their
  characters.
* `ScriptLine.scans_exitStatement`: on a line that exits, a search finds the code as
  it is written; on other lines it finds nothing.  From the lines one comes to the
  script by induction (`exitCodes_script`).

`reports_exits` says what the two rules about exit codes report.
-/

namespace Preflight

open Text

/-! ## What an exit statement finds -/

namespace Pattern

variable {front piece rest back code : List Char}

/-- The code of an exit statement. -/
def exitCode : Pattern :=
  alt (text "0x" ++ some hexDigits) (some .digit)

/-- Codes are made of word characters. -/
theorem isWord_of_finds_exitCode (h : exitCode.Finds .insensitive front code back) :
    code ≠ [] ∧ ∀ c ∈ code, isWord c = true := by
  have hmark : TwoCased "0x" := by decide
  simp only [exitCode, finds_alt_iff, finds_append_iff, finds_word_iff hmark,
    finds_some_iff] at h
  rcases h with ⟨mark, digits, rfl, hmark, hne, hdigits⟩ | ⟨hne, hdigits⟩
  · refine ⟨List.append_ne_nil_of_right_ne_nil _ hne, fun c hc => ?_⟩
    rcases List.mem_append.mp hc with hc | hc
    · have hletters : (folded "0x".toList).all isWord = true := by decide
      rw [← isWord_toLower]
      exact List.all_eq_true.mp hletters _ (hmark ▸ mem_folded hc)
    · exact isWord_of_hexDigits (hdigits c hc)
  · refine ⟨hne, fun c hc => isWord_of_isDigit ?_⟩
    have hdigit := hdigits c hc
    rw [accepts_eq_of_caseless (by decide)] at hdigit
    simpa [CharClass.accepts, CharClass.digit, ClassItem.holds] using hdigit

/-- A written number is found as a code. -/
theorem finds_exitCode_of_renders {number : Nat} (h : Renders number code)
    (front back : List Char) : exitCode.Finds .insensitive front code back := by
  have hmark : TwoCased "0x" := by decide
  simp only [exitCode, finds_alt_iff, finds_append_iff, finds_word_iff hmark,
    finds_some_iff]
  cases h with
  | decimal hne h =>
    refine .inr ⟨hne, fun c hc => ?_⟩
    obtain ⟨digit, hdigit, hlt⟩ := h c hc
    rw [accepts_eq_of_caseless (by decide)]
    simpa [CharClass.accepts, CharClass.digit, ClassItem.holds]
      using (accepts_of_hexValue? hdigit).2 hlt
  | @hexadecimal mark digits hmark hne h =>
    refine .inl ⟨['0', mark], digits, rfl, ?_, hne, fun c hc => ?_⟩
    · rcases hmark with rfl | rfl
      · decide
      · decide
    · obtain ⟨digit, hdigit, -⟩ := h c hc
      exact (accepts_of_hexValue? hdigit).1

/-- The parts of an exit statement in front of `back`. -/
structure Exit (head gap code back : List Char) : Prop where
  reads : Reads "exit" head
  gap_ne_nil : gap ≠ []
  blank : Blank gap
  code_ne_nil : code ≠ []
  isWord_code : ∀ c ∈ code, isWord c = true
  clear : StartsClear back

/-- The parts of an exit statement are told apart by their characters. -/
theorem Exit.unique {head gap head' gap' code' back' : List Char}
    (h : Exit head gap code back) (h' : Exit head' gap' code' back')
    (hsplit : head ++ (gap ++ (code ++ back)) = head' ++ (gap' ++ (code' ++ back'))) :
    head = head' ∧ gap = gap' ∧ code = code' := by
  have hcode {code back : List Char} (hne : code ≠ [])
      (hword : ∀ c ∈ code, isWord c = true) :
      ∀ c ∈ (code ++ back).head?, isSpace c = false := by
    cases code with
    | nil => exact absurd rfl hne
    | cons d code =>
      rintro _ ⟨⟩
      have hd := hword d List.mem_cons_self
      cases hspace : isSpace d with
      | false => rfl
      | true => rw [isWord_of_isSpace hspace] at hd; cases hd
  have hlength : head.length = head'.length := by
    rw [h.reads.length, h'.reads.length]
  obtain ⟨rfl, hrest⟩ := List.append_inj hsplit hlength
  obtain ⟨rfl, hcodes⟩ := append_inj_of_kind hrest h.blank h'.blank
    (hcode h.code_ne_nil h.isWord_code) (hcode h'.code_ne_nil h'.isWord_code)
  obtain ⟨rfl, -⟩ := append_inj_of_kind hcodes h.isWord_code h'.isWord_code h.clear
    h'.clear
  exact ⟨rfl, rfl, rfl⟩

/-- What an exit statement starts with. -/
def exitLead : Pattern := wordBoundary ++ text "exit" ++ someSpace

theorem exitStatement_eq :
    Checks.exitStatement = exitLead ++ group 1 exitCode ++ wordBoundary :=
  rfl

theorem finds_exitLead_iff :
    exitLead.Finds .insensitive front piece back ↔
      BoundaryBetween front (piece ++ back) ∧ ∃ head gap, piece = head ++ gap ∧
        Reads "exit" head ∧ gap ≠ [] ∧ Blank gap := by
  have hword : TwoCased "exit" := by decide
  simp only [exitLead, finds_keyword_iff hword, finds_someSpace_iff]

theorem getLast?_any_isWord (hne : code ≠ []) (h : ∀ c ∈ code, isWord c = true) :
    code.getLast?.any isWord = true := by
  rw [List.getLast?_eq_some_getLast hne]
  exact h _ (List.getLast_mem hne)

theorem exit_of_finds {left right : List Char}
    (hlead : exitLead.Finds .insensitive front left (code ++ (right ++ back)))
    (hcode : exitCode.Finds .insensitive (front ++ left) code (right ++ back))
    (hright : Finds .insensitive wordBoundary (front ++ left ++ code) right back) :
    right = [] ∧ ∃ head gap, left = head ++ gap ∧ Exit head gap code back := by
  obtain ⟨-, head, gap, rfl, hhead, hgap, hblank⟩ := finds_exitLead_iff.mp hlead
  obtain ⟨hne, hword⟩ := isWord_of_finds_exitCode hcode
  obtain ⟨rfl, hbound⟩ := finds_wordBoundary_iff.mp hright
  exact ⟨rfl, head, gap, rfl, hhead, hgap, hblank, hne, hword,
    (boundaryBetween_last_iff (getLast?_any_isWord hne hword)).mp hbound⟩

theorem exit_of_finds_exitStatement
    (h : Checks.exitStatement.Finds .insensitive front piece back) :
    ∃ head gap code, piece = head ++ (gap ++ code) ∧ Exit head gap code back := by
  rw [exitStatement_eq] at h
  obtain ⟨_, right, rfl, hleft, hright⟩ := finds_append_iff.mp h
  obtain ⟨left, code, rfl, hlead, hcode⟩ := finds_append_iff.mp hleft
  rw [← List.append_assoc] at hright
  obtain ⟨rfl, head, gap, rfl, hexit⟩ :=
    exit_of_finds hlead (finds_group_iff.mp hcode) hright
  exact ⟨head, gap, code, by simp, hexit⟩

theorem begins_exitStatement : Checks.exitStatement.Begins "exit" := by
  intro front piece back hfinds
  obtain ⟨head, gap, code, rfl, hexit⟩ := exit_of_finds_exitStatement hfinds
  exact ⟨head, gap ++ code, rfl, hexit.reads⟩

theorem solid_exitStatement : Checks.exitStatement.Solid .insensitive := by
  intro front back hfinds
  obtain ⟨head, gap, code, hnil, hexit⟩ := exit_of_finds_exitStatement hfinds
  obtain ⟨-, hrest⟩ := List.append_eq_nil_iff.mp hnil.symm
  exact hexit.code_ne_nil (List.append_eq_nil_iff.mp hrest).2

/-- At no place a search has a choice between two exit statements. -/
theorem definite_exitStatement : Checks.exitStatement.Definite .insensitive := by
  intro front piece back piece' back' hsplit hfinds hfinds'
  obtain ⟨head, gap, code, rfl, hexit⟩ := exit_of_finds_exitStatement hfinds
  obtain ⟨head', gap', code', rfl, hexit'⟩ := exit_of_finds_exitStatement hfinds'
  simp only [List.append_assoc] at hsplit
  obtain ⟨rfl, rfl, rfl⟩ := hexit.unique hexit' hsplit
  rfl

/-- A search finds an exit statement and keeps its code. -/
theorem scans_exit {head gap : List Char} {number : Nat} (hfront : EndsClear front)
    (hnumber : Renders number code) (hexit : Exit head gap code back) :
    ∃ found, found.group? (front ++ (head ++ (gap ++ (code ++ back)))) 1 =
        Option.some code ∧
      Checks.exitStatement.Scans .insensitive front (head ++ (gap ++ code)) back
        [found] := by
  have hfinds : Checks.exitStatement.Finds .insensitive front (head ++ (gap ++ code))
      back := by
    have hlead : exitLead.Finds .insensitive front (head ++ gap) (code ++ back) := by
      refine finds_exitLead_iff.mpr
        ⟨?_, head, gap, rfl, hexit.reads, hexit.gap_ne_nil, hexit.blank⟩
      rw [List.append_assoc]
      exact (boundaryBetween_head_iff (hexit.reads.wordy (by decide)).1).mpr hfront
    have hcode := finds_exitCode_of_renders hnumber (front ++ (head ++ gap)) back
    have hlast := getLast?_any_isWord hexit.code_ne_nil hexit.isWord_code
    have hbehind : Finds .insensitive wordBoundary
        (front ++ (head ++ gap ++ code)) [] back := by
      refine finds_wordBoundary_iff.mpr ⟨rfl, ?_⟩
      rw [← List.append_assoc]
      exact (boundaryBetween_last_iff hlast).mpr hexit.clear
    rw [exitStatement_eq, ← List.append_assoc]
    exact finds_append_iff.mpr ⟨head ++ gap ++ code, [], (List.append_nil _).symm,
      finds_append_iff.mpr ⟨head ++ gap, code, rfl, hlead, finds_group_iff.mpr hcode⟩,
      hbehind⟩
  obtain ⟨found, -, hmatch, hscans⟩ :=
    definite_exitStatement.scans solid_exitStatement hfinds
  refine ⟨found, ?_, hscans⟩
  rw [exitStatement_eq] at hmatch
  obtain ⟨left, code', right, back', hsplit, hlead, hcode, hright, hgroup⟩ :=
    captured_of_matchAt? rfl rfl rfl hmatch
  obtain ⟨rfl, head', gap', rfl, hexit'⟩ := exit_of_finds hlead hcode hright
  simp only [List.append_assoc, List.nil_append] at hsplit hgroup
  obtain ⟨-, -, rfl⟩ := hexit.unique hexit' hsplit
  exact hgroup

end Pattern

/-! ## Scripts -/

/-- A line that exits, with white space behind the code, or some text that does not
hold the word. -/
inductive ScriptLine where
  | exit (word gap : List Char) (number : Nat) (code behind : List Char)
    (reads_word : Reads "exit" word) (gap_ne_nil : gap ≠ []) (blank_gap : Blank gap)
    (renders : Renders number code) (blank_behind : Blank behind)
  | other (text : List Char) (no_exit : ¬Holds "exit" text)

namespace ScriptLine

/-- The line as text. -/
def text : ScriptLine → List Char
  | exit word gap _ code behind .. => word ++ (gap ++ (code ++ behind))
  | other text _ => text

/-- The number that a line exits with, and how it is written. -/
def exit? : ScriptLine → Option (Nat × List Char)
  | exit _ _ number code .. => some (number, code)
  | other _ _ => none

/-- The lines one below the other. -/
def script (lines : List ScriptLine) : List Char := List.intercalate ['\n'] (lines.map text)

/-- The numbers that a script exits with, in order, and how they are written. -/
def exits (lines : List ScriptLine) : List (Nat × List Char) := lines.filterMap exit?

theorem exits_cons (l : ScriptLine) (more : List ScriptLine) :
    exits (l :: more) = l.exit?.toList ++ exits more := by
  unfold exits
  rw [List.filterMap_cons]
  cases l.exit? with
  | none => rfl
  | some _ => rfl

theorem script_singleton (l : ScriptLine) : script [l] = l.text :=
  List.intercalate_singleton

theorem script_cons_cons (l next : ScriptLine) (more : List ScriptLine) :
    script (l :: next :: more) = l.text ++ ('\n' :: script (next :: more)) :=
  List.intercalate_cons_cons.trans (List.append_assoc _ _ _)

/-- On a line that exits, a search finds the exit statement; on others it finds
nothing.  `back` is the end of the text or goes on with the next line. -/
theorem scans_exitStatement (l : ScriptLine) {front back : List Char}
    (hfront : EndsClear front) (hback : ∀ c ∈ back.head?, c = '\n') :
    ∃ trail : List Match,
      trail.filterMap (·.group? (front ++ (l.text ++ back)) 1) =
          l.exit?.toList.map (·.2) ∧
        Checks.exitStatement.Scans .insensitive front l.text back trail := by
  have hunbroken : Unbroken "exit" := by decide
  have hend : ∀ c ∈ back.head?, isSpace c = true := by
    intro c hc
    rw [hback c hc]
    decide
  cases l with
  | exit word gap number code behind reads_word gap_ne_nil blank_gap renders
      blank_behind =>
    have hclear : StartsClear (behind ++ back) := by
      intro c hc
      apply isWord_of_isSpace
      cases behind with
      | nil => exact hend c hc
      | cons d behind =>
        obtain rfl : d = c := Option.some.inj hc
        exact blank_behind d List.mem_cons_self
    obtain ⟨hne, hword⟩ := Pattern.isWord_of_finds_exitCode
      (Pattern.finds_exitCode_of_renders renders [] [])
    obtain ⟨found, hgroup, hscans⟩ := Pattern.scans_exit hfront renders
      ⟨reads_word, gap_ne_nil, blank_gap, hne, hword, hclear⟩
    have hrest := (Pattern.begins_exitStatement.silent
      (Pattern.quiet_of_blank hunbroken blank_behind)
      (front ++ (word ++ (gap ++ code))) back).scans
    have hall := hscans.append hrest
    have htext : text (exit word gap number code behind reads_word gap_ne_nil blank_gap
        renders blank_behind) = word ++ (gap ++ code) ++ behind := by
      simp [text]
    refine ⟨[found], ?_, htext ▸ hall⟩
    rw [htext, List.append_assoc, List.append_assoc, List.append_assoc]
    rw [List.filterMap_cons, hgroup]
    rfl
  | other text no_exit =>
    refine ⟨[], rfl, ?_⟩
    have hback : ∀ c ∈ back.head?, c.toLower ∉ folded "exit".toList :=
      fun c hc => hunbroken.notMem_of_isSpace (hend c hc)
    exact (Pattern.begins_exitStatement.silent_of_free no_exit hback front).scans

/-- A search through a script finds the exit statements and keeps their codes. -/
theorem scans_exitStatement_script : ∀ (lines : List ScriptLine) {front : List Char},
    EndsClear front → ∃ trail : List Match,
      trail.filterMap (·.group? (front ++ script lines) 1) =
          (exits lines).map (·.2) ∧
        Checks.exitStatement.Scans .insensitive front (script lines) [] trail
  | [], front, _ => ⟨[], rfl, (Pattern.silent_nil front []).scans⟩
  | [l], front, hfront => by
    obtain ⟨trail, hcodes, hscans⟩ :=
      @scans_exitStatement l front [] hfront (by intro c hc; cases hc)
    rw [List.append_nil] at hcodes
    rw [script_singleton]
    refine ⟨trail, ?_, hscans⟩
    rw [exits_cons, List.map_append]
    exact hcodes.trans (List.append_nil _).symm
  | l :: next :: more, front, hfront => by
    have hback : ∀ c ∈ ('\n' :: script (next :: more) ++ []).head?, c = '\n' := by
      rintro _ ⟨⟩
      rfl
    have hclear : EndsClear (front ++ l.text ++ ['\n']) := by
      intro c hc
      rw [List.getLast?_concat] at hc
      rw [← Option.some.inj hc]
      decide
    have hlineEnd : Pattern.Quiet "exit" ['\n'] :=
      Pattern.quiet_of_blank (by decide) (by decide)
    obtain ⟨trail, hcodes, hscans⟩ := l.scans_exitStatement hfront hback
    obtain ⟨later, hlater, hrest⟩ :=
      scans_exitStatement_script (next :: more) hclear
    have hsilent := Pattern.begins_exitStatement.silent hlineEnd (front ++ l.text)
      (script (next :: more) ++ [])
    refine ⟨trail ++ later, ?_, ?_⟩
    · rw [exits_cons, List.map_append, List.filterMap_append, ← hcodes, ← hlater,
        script_cons_cons, List.append_nil, List.append_assoc, List.append_assoc]
      rfl
    · rw [script_cons_cons]
      exact hscans.append (hsilent.scans.append hrest)

/-- The codes that are kept are those of the lines, as they are written. -/
theorem exitCodes_script (lines : List ScriptLine) :
    Checks.exitCodes (script lines) = (exits lines).map (·.2) := by
  obtain ⟨trail, hcodes, hscans⟩ :=
    scans_exitStatement_script lines endsClear_nil
  rw [Checks.exitCodes, Pattern.captures,
    Pattern.solid_exitStatement.findAll_of_scans hscans]
  exact hcodes

/-! ## What the rules report -/

/-- The numbers that a script exits with, in order. -/
def numbers (lines : List ScriptLine) : List Nat := (exits lines).map (·.1)

theorem renders_of_mem_exits {lines : List ScriptLine} {number : Nat}
    {code : List Char} (h : (number, code) ∈ exits lines) : Renders number code := by
  obtain ⟨l, -, hl⟩ := List.mem_filterMap.mp h
  cases l with
  | exit _ _ _ _ _ _ _ _ renders _ =>
    cases hl
    exact renders
  | other _ _ => cases hl

/-- What is asked of the codes may be asked of the numbers. -/
theorem any_code_iff {asks : List Char → Bool} {holds : Nat → Prop}
    (h : ∀ {number code}, Renders number code → (asks code = true ↔ holds number))
    (lines : List ScriptLine) :
    ((exits lines).map (·.2)).any asks = true ↔ ∃ n ∈ numbers lines, holds n := by
  rw [List.any_map, List.any_eq_true]
  constructor
  · intro hcode
    obtain ⟨⟨number, code⟩, hmem, hasks⟩ := hcode
    refine ⟨number, List.mem_map_of_mem hmem, ?_⟩
    exact (h (renders_of_mem_exits hmem)).mp hasks
  · intro hnumber
    obtain ⟨n, hn, hholds⟩ := hnumber
    obtain ⟨⟨number, code⟩, hmem, rfl⟩ := List.mem_map.mp hn
    exact ⟨(number, code), hmem, (h (renders_of_mem_exits hmem)).mpr hholds⟩

theorem codes_eq_nil_iff (lines : List ScriptLine) :
    (exits lines).map (·.2) = [] ↔ numbers lines = [] := by
  rw [numbers, List.map_eq_nil_iff, List.map_eq_nil_iff]

section

variable (c : Context) (lines : List ScriptLine)

theorem exitCodeMissing_script :
    (∃ message, Finding.violation message ∈
        Checks.exitCodeMissing { c with content := script lines }) ↔
      numbers lines = [] := by
  rw [← codes_eq_nil_iff, ← exitCodes_script, Checks.exitCodeMissing]
  by_cases hcodes : Checks.exitCodes (script lines) = []
  · rw [if_neg (not_not_intro hcodes)]
    exact iff_of_true ⟨_, List.mem_singleton_self _⟩ hcodes
  · rw [if_pos hcodes]
    exact iff_of_false nofun hcodes

/-- What is found of the codes depends on which numbers are zero. -/
theorem successOnlyExit_script :
    Checks.successOnlyExit { c with content := script lines } =
      if numbers lines = [] then []
      else if ∀ n ∈ numbers lines, n = 0 then
        [.violation "Only success exit codes found. Consider adding failure exit codes."]
      else if 0 ∈ numbers lines then
        [.note s!"Uses exit codes properly ({(numbers lines).length} exit statements)"]
      else [.note "Exit codes found but no explicit success (exit 0)"] := by
  have hsuccess : ((exits lines).map (·.2)).any Checks.isSuccessCode = true ↔
      0 ∈ numbers lines := by
    rw [any_code_iff Checks.isSuccessCode_of_renders, exists_eq_right]
  have hfailure : ((exits lines).map (·.2)).any (!Checks.isSuccessCode ·) = true ↔
      ¬∀ n ∈ numbers lines, n = 0 := by
    simp only [not_forall, exists_prop]
    refine any_code_iff (fun h => ?_) lines
    rw [Bool.not_eq_true', ← Bool.not_eq_true, Checks.isSuccessCode_of_renders h]
  have hlength : ((exits lines).map (·.2)).length = (numbers lines).length := by
    rw [numbers, List.length_map, List.length_map]
  have hnil := codes_eq_nil_iff lines
  rw [Checks.successOnlyExit, exitCodes_script]
  generalize (exits lines).map (·.2) = codes at hsuccess hfailure hlength hnil
  cases codes with
  | nil => exact (if_pos (hnil.mp rfl)).symm
  | cons code codes =>
    have hne : numbers lines ≠ [] := fun h => List.cons_ne_nil _ _ (hnil.mpr h)
    rw [if_neg hne]
    by_cases hall : ∀ n ∈ numbers lines, n = 0
    · -- Some number is zero, because there is one.
      obtain ⟨n, hn⟩ := List.exists_mem_of_ne_nil _ hne
      have hzero := hsuccess.mpr (hall n hn ▸ hn)
      have hnone := Bool.not_eq_true _ ▸ mt hfailure.mp (not_not_intro hall)
      rw [if_pos hall]
      simp only [hzero, hnone]
    · have hsome := hfailure.mpr hall
      rw [if_neg hall]
      by_cases hzero : 0 ∈ numbers lines
      · have hany := hsuccess.mpr hzero
        rw [if_pos hzero]
        simp only [hany, hsome, hlength]
      · have hnone := Bool.not_eq_true _ ▸ mt hsuccess.mp hzero
        rw [if_neg hzero]
        simp only [hnone]

end

/-- The rules about exit codes, on a script whose lines exit or do not hold the word.
The codes are kept as they are written, and each of them has its number as its
value, unless that takes more than 64 bits.  A code is missed exactly if no line
exits.  Failure codes are missed exactly if some line exits and all of them with
zero. -/
theorem reports_exits (c : Context) (lines : List ScriptLine) :
    let scripted : Context := { c with content := script lines }
    Checks.exitCodes scripted.content = (exits lines).map (·.2) ∧
      (∀ number code, (number, code) ∈ exits lines →
        Checks.exitCodeValue? code =
          if number < 18446744073709551616 then some number else none) ∧
      (∃ findings, Rule.Reports .exitCodeMissing scripted findings ∧
        ((∃ message, .violation message ∈ findings) ↔ numbers lines = [])) ∧
      Rule.Reports .successOnlyExit scripted
        (if numbers lines = [] then []
        else if ∀ n ∈ numbers lines, n = 0 then
          [.violation "Only success exit codes found. Consider adding failure exit codes."]
        else if 0 ∈ numbers lines then
          [.note s!"Uses exit codes properly ({(numbers lines).length} exit statements)"]
        else [.note "Exit codes found but no explicit success (exit 0)"]) := by
  intro scripted
  have hsuccess := successOnlyExit_script c lines
  refine ⟨exitCodes_script lines, fun number code hmem => ?_,
    ⟨_, .of_row rfl scripted, exitCodeMissing_script c lines⟩, ?_⟩
  · exact Checks.exitCodeValue?_of_renders (renders_of_mem_exits hmem)
  · exact hsuccess ▸ .of_row rfl scripted

end ScriptLine

end Preflight
