import Preflight.Proofs.Catalog
import Preflight.Proofs.Lines
import Preflight.Proofs.Pattern.Captures
import Preflight.Proofs.Pattern.Keyword
import Preflight.Proofs.Pattern.Sensitive

/-!
# Functions and their names

A `FunctionLine` declares a function, or it is any line that does not hold the word
`function`.

* `scans_declaration`: at the start of a line, a search finds a declaration and keeps its
  name.  White space, the word and the name are told apart by their characters.
* `silent_amidLine`, `silent_line`: behind the name, and on lines without the word, it
  finds nothing.
* `FunctionLine.scans_line` puts this together for a line, `scans_script` for a script,
  by induction on its lines.

White space goes over line ends, so a declaration may begin with blank lines above it.
The induction takes them along: a blank line has nothing to find until the next line that
is not blank.

`reports_functions` says what the rules about functions report.
-/

namespace Preflight

namespace Text

/-- A character of a function's name. -/
def Nameable (c : Char) : Prop := isSpace c = false ∧ c ≠ '{' ∧ c ≠ '('

/-- A line starts behind the text: the text is empty or ends with a line end. -/
def EndsLine (text : List Char) : Prop := ∀ c ∈ text.getLast?, c = '\n'

theorem not_endsLine_append {line : List Char} (hne : line ≠ []) (h : '\n' ∉ line)
    (front : List Char) : ¬EndsLine (front ++ line) := by
  obtain ⟨init, c, rfl⟩ := line.eq_nil_or_concat.resolve_left hne
  rw [List.concat_eq_append] at h ⊢
  intro hends
  rw [← List.append_assoc, EndsLine, List.getLast?_concat] at hends
  apply h
  rw [hends c rfl]
  exact List.mem_append_right _ (List.mem_singleton_self _)

end Text

open Text

namespace Pattern

variable {front piece back indent word gap name : List Char} {groups : List Group}

/-! ## What a declaration finds -/

/-- What stands in front of a function's name. -/
def functionLead : Pattern := lineStart ++ spaces ++ text "function" ++ someSpace

theorem functionDeclaration_eq : Checks.functionDeclaration =
    functionLead ++ group 1 (some ⟨[.space, .char '{', .char '('], true⟩) :=
  rfl

theorem nameable_iff {c : Char} :
    (CharClass.mk [.space, .char '{', .char '('] true).accepts .insensitive c = true ↔
      Nameable c := by
  rw [accepts_eq_of_caseless (by decide)]
  simp [CharClass.accepts, ClassItem.holds, Nameable]

/-- The parts of a declaration, up to the end of the name. -/
structure Declares (indent word gap name : List Char) : Prop where
  blank_indent : Blank indent
  reads : Reads "function" word
  gap_ne_nil : gap ≠ []
  blank_gap : Blank gap
  name_ne_nil : name ≠ []
  nameable : ∀ c ∈ name, Nameable c

theorem finds_functionLead_iff :
    functionLead.Finds .insensitive front piece back ↔
      EndsLine front ∧ ∃ indent word gap, piece = indent ++ (word ++ gap) ∧
        Blank indent ∧ Reads "function" word ∧ gap ≠ [] ∧ Blank gap := by
  have hword : TwoCased "function" := by decide
  simp only [functionLead, finds_append_iff, finds_lineStart_iff, finds_spaces_iff,
    finds_word_iff hword, finds_someSpace_iff]
  constructor
  · rintro ⟨_, gap, rfl, ⟨_, word, rfl, ⟨_, indent, rfl, ⟨rfl, hfront⟩, hindent⟩, hword⟩,
      hne, hgap⟩
    refine ⟨hfront, indent, word, gap, ?_, hindent, hword, hne, hgap⟩
    rw [List.nil_append, List.append_assoc]
  · rintro ⟨hfront, indent, word, gap, rfl, hindent, hword, hne, hgap⟩
    refine ⟨indent ++ word, gap, (List.append_assoc _ _ _).symm, ⟨indent, word, rfl,
      ⟨[], indent, rfl, ⟨rfl, hfront⟩, hindent⟩, hword⟩, hne, hgap⟩

theorem captures_functionDeclaration_iff :
    Checks.functionDeclaration.Captures .insensitive front piece back groups ↔
      EndsLine front ∧ ∃ indent word gap name,
        piece = indent ++ (word ++ (gap ++ name)) ∧ Declares indent word gap name ∧
        groups = [⟨1, (front ++ (indent ++ (word ++ gap))).length,
          (front ++ (indent ++ (word ++ gap)) ++ name).length⟩] := by
  have hlead : functionLead.groupless = true := by decide
  have hname : (some ⟨[.space, .char '{', .char '('], true⟩).groupless = true := rfl
  simp only [functionDeclaration_eq, captures_append_group_iff hname,
    captures_groupless_iff hlead, finds_functionLead_iff, finds_some_iff, nameable_iff]
  constructor
  · rintro ⟨_, name, _, rfl, rfl, ⟨rfl, hfront, indent, word, gap, rfl, hindent, hword,
      hne, hgap⟩, hname, hnameable⟩
    refine ⟨hfront, indent, word, gap, name, ?_,
      ⟨hindent, hword, hne, hgap, hname, hnameable⟩, rfl⟩
    simp only [List.append_assoc]
  · rintro ⟨hfront, indent, word, gap, name, rfl,
      ⟨hindent, hword, hne, hgap, hname, hnameable⟩, rfl⟩
    refine ⟨indent ++ (word ++ gap), name, [], ?_, rfl, ⟨rfl, hfront, indent, word, gap,
      rfl, hindent, hword, hne, hgap⟩, hname, hnameable⟩
    simp only [List.append_assoc]

theorem exhausts_functionDeclaration : Checks.functionDeclaration.Exhausts .insensitive
    ⟨[.space, .char '{', .char '('], true⟩ :=
  ((exhausts_run _).seq _ |>.group 1).seq _

theorem not_isSpace_head_word (h : Reads "function" word) (more : List Char) :
    ∀ c ∈ (word ++ more).head?, isSpace c = false := by
  have hunbroken : Unbroken "function" := by decide
  have hlength := h.length
  cases word with
  | nil => cases hlength
  | cons d word =>
    rintro _ ⟨⟩
    rw [← isSpace_toLower]
    exact hunbroken.2 _ (h ▸ mem_folded List.mem_cons_self)

/-- The parts of a declaration are told apart by their characters. -/
theorem Declares.unique {indent' word' gap' name' back' : List Char}
    (h : Declares indent word gap name) (h' : Declares indent' word' gap' name')
    (hback : ∀ c ∈ back.head?, ¬Nameable c) (hback' : ∀ c ∈ back'.head?, ¬Nameable c)
    (hsplit : indent ++ (word ++ (gap ++ (name ++ back))) =
      indent' ++ (word' ++ (gap' ++ (name' ++ back')))) :
    indent = indent' ∧ word = word' ∧ gap = gap' ∧ name = name' := by
  have hstart {name more : List Char} (hne : name ≠ []) (hname : ∀ c ∈ name, Nameable c) :
      ∀ c ∈ (name ++ more).head?, isSpace c = false := by
    cases name with
    | nil => exact absurd rfl hne
    | cons d name =>
      rintro _ ⟨⟩
      exact (hname d List.mem_cons_self).1
  have hstop {c : Char} (hc : ¬Nameable c) :
      (CharClass.mk [.space, .char '{', .char '('] true).accepts .insensitive c =
        false := by
    rwa [← Bool.not_eq_true, nameable_iff]
  obtain ⟨rfl, hrest⟩ := append_inj_of_kind hsplit h.blank_indent h'.blank_indent
    (not_isSpace_head_word h.reads _) (not_isSpace_head_word h'.reads _)
  have hlength : word.length = word'.length := by
    rw [h.reads.length, h'.reads.length]
  obtain ⟨rfl, hgaps⟩ := List.append_inj hrest hlength
  obtain ⟨rfl, hnames⟩ := append_inj_of_kind hgaps h.blank_gap h'.blank_gap
    (hstart h.name_ne_nil h.nameable) (hstart h'.name_ne_nil h'.nameable)
  obtain ⟨rfl, -⟩ := append_inj_of_kind hnames
    (fun c hc => nameable_iff.mpr (h.nameable c hc))
    (fun c hc => nameable_iff.mpr (h'.nameable c hc))
    (fun c hc => hstop (hback c hc)) (fun c hc => hstop (hback' c hc))
  exact ⟨rfl, rfl, rfl, rfl⟩

/-- At the start of a line, a search finds a declaration and keeps its name. -/
theorem scans_declaration (hfront : EndsLine front) (h : Declares indent word gap name)
    (hback : ∀ c ∈ back.head?, ¬Nameable c) :
    ∃ found, found.group? (front ++ (indent ++ (word ++ (gap ++ (name ++ back))))) 1 =
        Option.some name ∧
      Checks.functionDeclaration.Scans .insensitive front
        (indent ++ (word ++ (gap ++ name))) back [found] := by
  have htext : indent ++ (word ++ (gap ++ name)) ++ back =
      indent ++ (word ++ (gap ++ (name ++ back))) := by
    simp only [List.append_assoc]
  have hfinds : Checks.functionDeclaration.Finds .insensitive front
      (indent ++ (word ++ (gap ++ name))) back :=
    (captures_functionDeclaration_iff.mpr
      ⟨hfront, indent, word, gap, name, rfl, h, rfl⟩).finds
  obtain ⟨found, hmatch⟩ := Option.isSome_iff_exists.mp <|
    matchAt?_isSome_iff.mpr ⟨_, back, rfl, hfinds⟩
  obtain ⟨piece, back', hsplit, hcuts, hcaptures⟩ := captures_of_matchAt? hmatch
  obtain ⟨-, indent', word', gap', name', rfl, h', hgroups⟩ :=
    captures_functionDeclaration_iff.mp hcaptures
  have hback' : ∀ c ∈ back'.head?, ¬Nameable c := by
    intro c hc
    rw [← nameable_iff, exhausts_functionDeclaration.not_accepts hmatch c
      (hcuts.after.symm ▸ hc)]
    exact Bool.false_ne_true
  simp only [List.append_assoc] at hsplit
  obtain ⟨rfl, rfl, rfl, rfl⟩ := h.unique h' hback hback' hsplit
  obtain rfl : back = back' := by
    simpa only [List.append_cancel_left_eq] using hsplit
  have hne : indent ++ (word ++ (gap ++ name)) ≠ [] := by
    simp [h.name_ne_nil]
  refine ⟨found, ?_, findBehind_of_eq_some hcuts hne hmatch⟩
  have hlead : front ++ (indent ++ (word ++ (gap ++ (name ++ back)))) =
      front ++ (indent ++ (word ++ gap)) ++ (name ++ back) := by
    simp only [List.append_assoc]
  rw [hlead]
  exact Match.group?_of_groups hgroups

theorem solid_functionDeclaration : Checks.functionDeclaration.Solid .insensitive := by
  intro front back hfinds
  obtain ⟨groups, hcaptures⟩ := finds_iff_exists_captures.mp hfinds
  obtain ⟨-, indent, word, gap, name, hnil, h, -⟩ :=
    captures_functionDeclaration_iff.mp hcaptures
  apply h.name_ne_nil
  simp only [List.nil_eq, List.append_eq_nil_iff] at hnil
  exact hnil.2.2.2

/-! ## Where nothing is declared -/

theorem endsLine_of_finds
    (h : Checks.functionDeclaration.Finds .insensitive front piece back) :
    EndsLine front := by
  obtain ⟨groups, hcaptures⟩ := finds_iff_exists_captures.mp h
  exact (captures_functionDeclaration_iff.mp hcaptures).1

/-- Amid a line, no declaration begins before the next one. -/
theorem silent_amidLine (hfront : ¬EndsLine front) (hpiece : '\n' ∉ piece.dropLast)
    (back : List Char) :
    Checks.functionDeclaration.Silent .insensitive front piece back := by
  intro skipped rest hsplit hne left right _ hfinds
  have hline := endsLine_of_finds hfinds
  cases hlast : skipped.getLast? with
  | none =>
    rw [List.getLast?_eq_none_iff.mp hlast, List.append_nil] at hline
    exact hfront hline
  | some c =>
    rw [EndsLine, List.getLast?_append, hlast] at hline
    obtain rfl := hline c rfl
    apply hpiece
    rw [hsplit, List.dropLast_append_of_ne_nil hne]
    exact List.mem_append_left _ (List.mem_of_getLast? hlast)

/-- In front of a line without the word, white space does not lead to a declaration. -/
theorem not_finds_of_line {blank line left right : List Char} (hblank : Blank blank)
    (hline : ¬Holds "function" line) (hback : ∀ c ∈ back.head?, c = '\n')
    (hend : Blank line → back = []) (hsplit : blank ++ (line ++ back) = left ++ right) :
    ¬Checks.functionDeclaration.Finds .insensitive front left right := by
  intro hfinds
  obtain ⟨groups, hcaptures⟩ := finds_iff_exists_captures.mp hfinds
  obtain ⟨-, indent, word, gap, name, rfl, h, -⟩ :=
    captures_functionDeclaration_iff.mp hcaptures
  obtain ⟨lead, hlead, hspaces, hkept⟩ := exists_run isSpace line
  generalize line.dropWhile isSpace = kept at hlead hkept
  have hword := not_isSpace_head_word h.reads
  have hparts : (blank ++ lead) ++ (kept ++ back) =
      indent ++ (word ++ (gap ++ name ++ right)) := by
    rw [hlead] at hsplit
    simpa only [List.append_assoc] using hsplit
  have hhead : ∀ c ∈ (kept ++ back).head?, isSpace c = false := by
    cases kept with
    | nil =>
      rw [List.append_nil] at hlead
      rw [hend (hlead ▸ hspaces)]
      exact nofun
    | cons d kept => exact hkept
  obtain ⟨rfl, hrest⟩ := append_inj_of_kind hparts
    (List.forall_mem_append.mpr ⟨hblank, hspaces⟩) h.blank_indent hhead (hword _)
  -- The word ends in front of the line end.
  have hlineEnd : '\n'.toLower ∉ folded "function".toList := by decide
  obtain ⟨more, rfl⟩ :=
    exists_append_of_reads h.reads (fun c hc => (hback c hc).symm ▸ hlineEnd) hrest
  apply hline
  rw [hlead]
  exact h.reads.holds lead more

/-- Nothing is declared on a line without the word, nor on blank lines above it. -/
theorem silent_line {blank line : List Char} (hblank : Blank blank)
    (hline : '\n' ∉ line) (hfree : ¬Holds "function" line)
    (hback : ∀ c ∈ back.head?, c = '\n') (hend : Blank line → back = [])
    (front : List Char) :
    Checks.functionDeclaration.Silent .insensitive front (blank ++ line) back := by
  intro skipped rest hsplit hne left right hrest hfinds
  rcases List.append_eq_append_iff.mp hsplit with ⟨more, rfl, rfl⟩ | ⟨more, rfl, rfl⟩
  · cases hlast : more.getLast? with
    | none =>
      obtain rfl := List.getLast?_eq_none_iff.mp hlast
      have hnone : Blank [] := List.forall_mem_nil _
      exact not_finds_of_line hnone hfree hback hend hrest hfinds
    | some c =>
      have hstart := endsLine_of_finds hfinds
      rw [EndsLine, ← List.append_assoc, List.getLast?_append, hlast] at hstart
      obtain rfl := hstart c rfl
      exact hline (List.mem_append_left _ (List.mem_of_getLast? hlast))
  · rw [List.append_assoc] at hrest
    have hmore : Blank more := (List.forall_mem_append.mp hblank).2
    exact not_finds_of_line hmore hfree hback hend hrest hfinds

end Pattern

open Pattern

/-! ## Scripts -/

/-- A line that declares a function, with something behind the name that is no part of
it, or a line that does not hold the word. -/
inductive FunctionLine where
  | declares (indent word gap name behind : List Char)
    (parts : Declares indent word gap name) (stops : ∀ c ∈ behind.head?, ¬Nameable c)
    (on_line : '\n' ∉ indent ++ (word ++ (gap ++ (name ++ behind))))
  | other (text : List Char) (no_function : ¬Holds "function" text)
    (on_line : '\n' ∉ text)

namespace FunctionLine

/-- The line as text. -/
def text : FunctionLine → List Char
  | declares indent word gap name behind .. =>
    indent ++ (word ++ (gap ++ (name ++ behind)))
  | other text .. => text

/-- The name of the function that a line declares. -/
def name? : FunctionLine → Option (List Char)
  | declares _ _ _ name .. => some name
  | other .. => none

/-- The lines one below the other. -/
def script (lines : List FunctionLine) : List Char := List.intercalate ['\n'] (lines.map text)

/-- The names of the functions that are declared, in order. -/
def declared (lines : List FunctionLine) : List (List Char) := lines.filterMap name?

theorem lineEnd_notMem_text (l : FunctionLine) : '\n' ∉ l.text := by
  cases l with
  | declares _ _ _ _ _ _ _ on_line => exact on_line
  | other _ _ on_line => exact on_line

/-- A blank line declares nothing. -/
theorem name?_of_blank {l : FunctionLine} (h : Blank l.text) : l.name? = none := by
  cases l with
  | declares indent word gap name behind parts =>
    exfalso
    obtain ⟨c, tail, hname⟩ := List.exists_cons_of_ne_nil parts.name_ne_nil
    have hc : Nameable c := parts.nameable c (hname ▸ List.mem_cons_self)
    have hspace := h c (by simp [text, hname])
    rw [hc.1] at hspace
    cases hspace
  | other => rfl

theorem declared_cons (l : FunctionLine) (more : List FunctionLine) :
    declared (l :: more) = l.name?.toList ++ declared more := by
  unfold declared
  rw [List.filterMap_cons]
  cases l.name? <;> rfl

theorem script_singleton (l : FunctionLine) : script [l] = l.text :=
  List.intercalate_singleton

theorem script_cons_cons (l next : FunctionLine) (more : List FunctionLine) :
    script (l :: next :: more) = l.text ++ ('\n' :: script (next :: more)) :=
  List.intercalate_cons_cons.trans (List.append_assoc _ _ _)

/-- From a blank line above it on, a search finds what a line declares.  `back` is the
end of the text or goes on with the next line. -/
theorem scans_line (l : FunctionLine) {front blank back : List Char}
    (hfront : EndsLine front) (hblank : Blank blank) (hback : ∀ c ∈ back.head?, c = '\n')
    (hend : Blank l.text → back = []) :
    ∃ trail : List Match,
      trail.filterMap (·.group? (front ++ (blank ++ (l.text ++ back))) 1) =
          l.name?.toList ∧
        Checks.functionDeclaration.Scans .insensitive front (blank ++ l.text) back
          trail := by
  cases l with
  | declares indent word gap name behind parts stops on_line =>
    have hparts : Declares (blank ++ indent) word gap name :=
      { parts with blank_indent := List.forall_mem_append.mpr ⟨hblank, parts.blank_indent⟩ }
    have hstops : ∀ c ∈ (behind ++ back).head?, ¬Nameable c := by
      intro c hc
      cases behind with
      | nil =>
        rw [hback c hc]
        unfold Nameable
        decide
      | cons d behind => exact stops c hc
    obtain ⟨found, hgroup, hscans⟩ := scans_declaration hfront hparts hstops
    have hname : '\n' ∉ name ∧ '\n' ∉ behind := by
      simp only [List.mem_append, not_or] at on_line
      exact on_line.2.2.2
    -- What stands behind the name is still on its line.
    have hamid : ¬EndsLine (front ++ (blank ++ indent ++ (word ++ (gap ++ name)))) := by
      simp only [← List.append_assoc]
      exact not_endsLine_append parts.name_ne_nil hname.1 _
    have hrest := (silent_amidLine hamid
      (fun hmem => hname.2 (List.dropLast_subset _ hmem)) back).scans
    have hall := hscans.append hrest
    simp only [List.append_assoc] at hgroup hall
    refine ⟨[found], ?_, ?_⟩
    · simp only [text, List.append_assoc, List.filterMap_cons, hgroup]
      rfl
    · simp only [text]
      exact hall
  | other text no_function on_line =>
    exact ⟨[], rfl, (silent_line hblank on_line no_function hback hend front).scans⟩

/-- From blank lines above a script on, a search finds its functions and keeps their
names.  A blank line is one of those above the next line, because a declaration may
begin with it. -/
theorem scans_script : ∀ (lines : List FunctionLine) {front blank : List Char},
    EndsLine front → Blank blank → ∃ trail : List Match,
      trail.filterMap (·.group? (front ++ (blank ++ script lines)) 1) = declared lines ∧
        Checks.functionDeclaration.Scans .insensitive front (blank ++ script lines) []
          trail
  | [], front, blank, _, hblank => by
    have hfree : ¬Holds "function" [] := by decide
    have hback : ∀ c ∈ ([] : List Char).head?, c = '\n' := nofun
    exact ⟨[], rfl, (silent_line hblank List.not_mem_nil hfree hback (fun _ => rfl)
      front).scans⟩
  | [l], front, blank, hfront, hblank => by
    obtain ⟨trail, hnames, hscans⟩ :=
      @scans_line l front blank [] hfront hblank nofun fun _ => rfl
    rw [List.append_nil] at hnames
    rw [script_singleton]
    refine ⟨trail, ?_, hscans⟩
    rw [declared_cons]
    exact hnames.trans (List.append_nil _).symm
  | l :: next :: more, front, blank, hfront, hblank => by
    have hlineEnd : Blank ['\n'] := by decide
    by_cases hl : Blank l.text
    · have hblank' : Blank (blank ++ (l.text ++ ['\n'])) :=
        List.forall_mem_append.mpr ⟨hblank, List.forall_mem_append.mpr ⟨hl, hlineEnd⟩⟩
      have htext : blank ++ script (l :: next :: more) =
          blank ++ (l.text ++ ['\n']) ++ script (next :: more) := by
        rw [script_cons_cons, List.append_assoc, List.append_assoc, List.singleton_append]
      rw [htext, declared_cons, name?_of_blank hl]
      exact scans_script (next :: more) hfront hblank'
    · have hback : ∀ c ∈ ('\n' :: script (next :: more) ++ []).head?, c = '\n' := by
        rintro _ ⟨⟩
        rfl
      have hamid : ¬EndsLine (front ++ (blank ++ l.text)) := by
        rw [← List.append_assoc]
        refine not_endsLine_append (fun hnil => hl ?_) l.lineEnd_notMem_text _
        rw [hnil]
        exact List.forall_mem_nil _
      have hfront' : EndsLine (front ++ (blank ++ l.text) ++ ['\n']) := by
        rw [EndsLine, List.getLast?_concat]
        rintro _ ⟨⟩
        rfl
      obtain ⟨trail, hnames, hscans⟩ :=
        l.scans_line hfront hblank hback fun h => absurd h hl
      obtain ⟨later, hlater, hrest⟩ :=
        scans_script (next :: more) hfront' (List.forall_mem_nil _)
      have hstays : '\n' ∉ ['\n'].dropLast := List.not_mem_nil
      have hsilent := silent_amidLine hamid hstays (script (next :: more) ++ [])
      have htext : blank ++ script (l :: next :: more) =
          (blank ++ l.text) ++ (['\n'] ++ script (next :: more)) := by
        rw [script_cons_cons, List.append_assoc, List.singleton_append]
      refine ⟨trail ++ later, ?_, ?_⟩
      · rw [declared_cons, List.filterMap_append, ← hnames, ← hlater, htext]
        simp only [List.append_assoc, List.singleton_append, List.nil_append,
          List.append_nil]
      · rw [htext]
        exact hscans.append (hsilent.scans.append hrest)

/-- The names that are kept are those of the functions that are declared. -/
theorem functionNames_script (lines : List FunctionLine) :
    Checks.functionNames (script lines) = declared lines := by
  have hfront : EndsLine [] := nofun
  obtain ⟨trail, hnames, hscans⟩ := scans_script lines hfront (List.forall_mem_nil _)
  rw [List.nil_append] at hnames hscans
  rw [Checks.functionNames, captures, solid_functionDeclaration.findAll_of_scans hscans]
  exact hnames

end FunctionLine

-- Blank lines above a declaration are passed over, and the rest of its line is not read.
example : Checks.functionNames "\n\n  function Get-A\nFUNCTION b(1) function c".toList =
    ["Get-A".toList, "b".toList] := by
  decide +kernel

/-! ## The form of a name -/

/-- The name begins like `Verb-Noun`. -/
inductive Conforms : List Char → Prop where
  | mk {first next : Char} {lowers more : List Char} (hfirst : 'A' ≤ first ∧ first ≤ 'Z')
      (hne : lowers ≠ []) (hlowers : ∀ c ∈ lowers, 'a' ≤ c ∧ c ≤ 'z')
      (hnext : 'A' ≤ next ∧ next ≤ 'Z') :
      Conforms (first :: (lowers ++ '-' :: next :: more))

theorem occursIn_verbNoun_iff (name : List Char) :
    Checks.verbNoun.occursIn .sensitive name = true ↔ Conforms name := by
  have hrange {low high c : Char} :
      (CharClass.mk [.range low high] false).accepts .sensitive c = true ↔
        low ≤ c ∧ c ≤ high := by
    simp [accepts_sensitive_iff, ClassItem.holds]
  simp only [Checks.verbNoun, occursIn_iff, finds_append_iff, finds_textStart_iff,
    finds_one_iff, finds_some_iff, finds_text_sensitive_iff, hrange]
  constructor
  · rintro ⟨_, _, back, rfl, _, _, rfl, ⟨_, _, rfl, ⟨_, lowers, rfl, ⟨_, _, rfl,
      ⟨rfl, rfl⟩, first, rfl, hfirst⟩, hne, hlowers⟩, rfl⟩, next, rfl, hnext⟩
    have hname : first :: (lowers ++ '-' :: next :: back) =
        [] ++ ([] ++ [first] ++ lowers ++ "-".toList ++ [next] ++ back) := by
      simp
    exact hname ▸ .mk hfirst hne hlowers hnext
  · rintro @⟨first, next, lowers, more, hfirst, hne, hlowers, hnext⟩
    refine ⟨[], first :: (lowers ++ ['-', next]), more, by simp, first :: (lowers ++ ['-']),
      [next], by simp, ⟨first :: lowers, ['-'], rfl, ⟨[first], lowers, rfl,
      ⟨[], [first], rfl, ⟨rfl, rfl⟩, first, rfl, hfirst⟩, hne, hlowers⟩, rfl⟩, next, rfl,
      hnext⟩

instance (name : List Char) : Decidable (Conforms name) :=
  decidable_of_iff _ (occursIn_verbNoun_iff name)

/-- A name and what is wrong with it. -/
def complaint (name : List Char) : String :=
  if '-' ∈ name then s!"{String.ofList name} (non-standard casing)"
  else s!"{String.ofList name} (missing verb-noun format)"

theorem Conforms.hyphen_mem {name : List Char} (h : Conforms name) : '-' ∈ name := by
  cases h
  simp

/-- A name that does not conform is told with what is wrong with it. -/
theorem namingIssue?_eq (name : List Char) :
    Checks.namingIssue? name =
      if Conforms name then none else some (complaint name) := by
  have hoccurs := occursIn_verbNoun_iff name
  unfold Checks.namingIssue? complaint
  by_cases hform : Conforms name
  · simp [hform, hform.hyphen_mem, hoccurs.mpr hform]
  · have hnone := Bool.not_eq_true _ ▸ mt hoccurs.mp hform
    by_cases hyphen : '-' ∈ name
    · simp [hform, hyphen, hnone]
    · simp [hform, hyphen]

theorem filterMap_namingIssue? (names : List (List Char)) :
    names.filterMap Checks.namingIssue? =
      (names.filter (¬Conforms ·)).map complaint := by
  induction names with
  | nil => rfl
  | cons name names ih =>
    rw [List.filterMap_cons, namingIssue?_eq]
    by_cases hform : Conforms name
    · simp [hform, ih]
    · simp [hform, ih]

namespace FunctionLine

/-! ## What the rules report -/

/-- The names that do not conform, in the order of the script. -/
def misfits (lines : List FunctionLine) : List (List Char) :=
  (declared lines).filter (¬Conforms ·)

/-- The message about names that do not conform: the first three complaints, and the
number of the others. -/
def namingMessage (complaints : List String) : String :=
  let shown := String.intercalate ", " (complaints.take 3)
  let hidden :=
    if complaints.length > 3 then s!" (and {complaints.length - 3} more)" else ""
  s!"Function naming issues: {shown}{hidden}"

/-- What is reported where functions log no result. -/
def missingLogging (functions calls : Nat) : List Finding :=
  if functions ≠ 0 ∧ calls = 0 then
    [.violation "No Add-ToolResult calls found - tools must log results"]
  else []

/-- What is reported of the number of logged results. -/
def sparseLogging (functions calls : Nat) : List Finding :=
  if functions = 0 ∨ calls = 0 then []
  else if calls * 2 < functions then
    [.violation (s!"Only {calls} Add-ToolResult calls for {functions} functions - " ++
      "ensure all tools log results")]
  else [.note s!"Found {calls} result logging calls"]

/-- Without functions there is no report on their results, and otherwise there is one. -/
theorem logging_cases (functions calls : Nat) :
    (functions = 0 ∧ missingLogging functions calls = [] ∧
        sparseLogging functions calls = []) ∨
      functions ≠ 0 ∧ (missingLogging functions calls = [] ↔
        sparseLogging functions calls ≠ []) := by
  unfold missingLogging sparseLogging
  by_cases hfunctions : functions = 0
  · simp [hfunctions]
  · by_cases hcalls : calls = 0
    · simp [hfunctions, hcalls]
    · by_cases hfew : calls * 2 < functions
      · simp [hfunctions, hcalls, hfew]
      · simp [hfunctions, hcalls, hfew]

section

variable (c : Context) (lines : List FunctionLine)

theorem misfits_eq_nil_iff :
    misfits lines = [] ↔ ∀ name ∈ declared lines, Conforms name := by
  simp [misfits, List.filter_eq_nil_iff]

theorem namingConvention_script :
    Checks.namingConvention { c with content := script lines } =
      if declared lines = [] then []
      else if ∀ name ∈ declared lines, Conforms name then
        [.note s!"Function naming follows conventions ({(declared lines).length} functions)"]
      else [.violation (namingMessage ((misfits lines).map complaint))] := by
  rw [Checks.namingConvention, functionNames_script]
  simp only [← misfits_eq_nil_iff, filterMap_namingIssue?]
  unfold misfits
  generalize declared lines = names
  cases names with
  | nil => rfl
  | cons name names =>
    rw [if_neg (List.cons_ne_nil _ _)]
    dsimp only
    generalize (name :: names).filter (¬Conforms ·) = misfits
    cases misfits with
    | nil => exact (if_pos rfl).symm
    | cons misfit misfits => exact (if_neg (List.cons_ne_nil _ _)).symm

/-- The two rules about logged results count the same functions. -/
theorem resultLogging_script :
    let scripted : Context := { c with content := script lines }
    let functions := (declared lines).length
    let calls := Checks.resultCalls scripted.content
    Checks.resultLoggingMissing scripted = missingLogging functions calls ∧
      Checks.resultLoggingSparse scripted = sparseLogging functions calls := by
  intro scripted functions calls
  have hsome : declared lines ≠ [] ↔ functions ≠ 0 := List.length_eq_zero_iff.not.symm
  unfold Checks.resultLoggingMissing Checks.resultLoggingSparse
  rw [functionNames_script]
  simp only [hsome]
  exact ⟨rfl, rfl⟩

end

/-- The rules about functions, on a script whose lines declare functions or do not hold
the word.  The names are kept as they are written, and in order.  Those that do not
conform are told, the first three of them with what is wrong.  Both rules about logged
results go by the number of functions: if there are any, one of the rules reports on
them and the other does not. -/
theorem reports_functions (c : Context) (lines : List FunctionLine) :
    let scripted : Context := { c with content := script lines }
    let functions := (declared lines).length
    let missing := missingLogging functions (Checks.resultCalls scripted.content)
    let sparse := sparseLogging functions (Checks.resultCalls scripted.content)
    Checks.functionNames scripted.content = declared lines ∧
      Rule.Reports .namingConvention scripted
        (if declared lines = [] then []
        else if ∀ name ∈ declared lines, Conforms name then
          [.note s!"Function naming follows conventions ({functions} functions)"]
        else [.violation (namingMessage ((misfits lines).map complaint))]) ∧
      Rule.Reports .resultLoggingMissing scripted missing ∧
      Rule.Reports .resultLoggingSparse scripted sparse ∧
      (missing = [] ∨ sparse = []) ∧
      (declared lines ≠ [] ↔ missing ≠ [] ∨ sparse ≠ []) := by
  intro scripted functions missing sparse
  have hnames := namingConvention_script c lines
  obtain ⟨hmissing, hsparse⟩ := resultLogging_script c lines
  have hsome : declared lines ≠ [] ↔ functions ≠ 0 := List.length_eq_zero_iff.not.symm
  have hmissing : Checks.resultLoggingMissing scripted = missing := hmissing
  have hsparse : Checks.resultLoggingSparse scripted = sparse := hsparse
  refine ⟨functionNames_script lines, hnames ▸ .of_row rfl scripted,
    hmissing ▸ .of_row rfl scripted, hsparse ▸ .of_row rfl scripted, ?_⟩
  rw [hsome]
  rcases logging_cases functions (Checks.resultCalls scripted.content) with
    ⟨hzero, hnone, hnone'⟩ | ⟨hsome, hone⟩
  · exact ⟨.inl hnone, iff_of_false (not_not_intro hzero) fun h =>
      h.elim (· hnone) (· hnone')⟩
  · by_cases hnone : missing = []
    · exact ⟨.inl hnone, iff_of_true hsome (.inr (hone.mp hnone))⟩
    · have hsparse : sparse = [] := not_not.mp (mt hone.mpr hnone)
      exact ⟨.inr hsparse, iff_of_true hsome (.inl hnone)⟩

end FunctionLine

end Preflight
