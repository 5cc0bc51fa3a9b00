import Preflight.Proofs.Nesting

/-!
# What opens a try or a catch block

`finds_tryOpener_iff` and `finds_catchOpener_iff` say what the openers find: the
word in any case, white space, for a catch the exception types, and a brace.

From the word on, both openers read a `Header`: white space, commas and bracketed
names up to a brace.  No header is the start of another one (`Header.unique`),
so at no place an opener finds two pieces (`Announced.definite`), and nothing is
found in front of a square bracket that stands before the brace
(`tryOpener_silent`).
-/

namespace Preflight

open Text

/-! ## Headers -/

/-- White space, commas and names in square brackets, up to a brace. -/
inductive Header : List Char → Prop where
  | brace : Header ['{']
  | skip {c : Char} {rest : List Char} (hc : isSpace c = true ∨ c = ',')
      (h : Header rest) : Header (c :: rest)
  | type {name rest : List Char} (hname : ']' ∉ name) (h : Header rest) :
      Header ('[' :: (name ++ ']' :: rest))

theorem Header.blank {gap rest : List Char} (hgap : Blank gap) (h : Header rest) :
    Header (gap ++ rest) := by
  induction gap with
  | nil => exact h
  | cons c gap ih =>
    obtain ⟨hc, hgap⟩ := List.forall_mem_cons.mp hgap
    exact .skip (.inl hc) (ih hgap)

theorem skip_ne {c : Char} (hc : isSpace c = true ∨ c = ',') :
    c ≠ '{' ∧ c ≠ '[' := by
  constructor
  · rintro rfl
    exact absurd hc (by decide)
  · rintro rfl
    exact absurd hc (by decide)

/-- No header is the start of another one. -/
theorem Header.unique {header other back back' : List Char} (h : Header header)
    (h' : Header other) (hsplit : header ++ back = other ++ back') :
    header = other := by
  induction h generalizing other with
  | brace =>
    cases h' with
    | brace => rfl
    | skip hc _ => exact absurd (List.cons.inj hsplit).1.symm (skip_ne hc).1
    | type _ _ => exact absurd (List.cons.inj hsplit).1 (by decide)
  | @skip c rest hc _ ih =>
    cases h' with
    | brace => exact absurd (List.cons.inj hsplit).1 (skip_ne hc).1
    | skip _ h' =>
      obtain ⟨rfl, hrest⟩ := List.cons.inj hsplit
      rw [ih h' hrest]
    | type _ _ => exact absurd (List.cons.inj hsplit).1 (skip_ne hc).2
  | @type name rest hname _ ih =>
    cases h' with
    | brace => exact absurd (List.cons.inj hsplit).1 (by decide)
    | skip hc _ => exact absurd (List.cons.inj hsplit).1.symm (skip_ne hc).2
    | @type name' rest' hname' h' =>
      rw [List.cons_append, List.cons_append, List.append_assoc,
        List.append_assoc] at hsplit
      obtain ⟨-, htail⟩ := List.cons.inj hsplit
      -- Both names end at the first closing bracket.
      obtain ⟨rfl, hrest⟩ := append_cons_inj_of_notMem hname hname' htail
      rw [ih h' hrest]

namespace Pattern

variable {word : String} {opener : Pattern} {front piece back : List Char}

/-- The opener finds the word, and behind it a header. -/
def Announced (word : String) (opener : Pattern) : Prop :=
  ∀ front piece back, opener.Finds .insensitive front piece back →
    ∃ head header, piece = head ++ header ∧ Reads word head ∧ Header header

theorem Announced.begins (h : opener.Announced word) : opener.Begins word := by
  intro front piece back hfinds
  obtain ⟨head, header, hpiece, hhead, -⟩ := h _ _ _ hfinds
  exact ⟨head, header, hpiece, hhead⟩

theorem Announced.definite (h : opener.Announced word) :
    opener.Definite .insensitive := by
  intro front piece back piece' back' hsplit hfinds hfinds'
  obtain ⟨head, header, rfl, hhead, hheader⟩ := h _ _ _ hfinds
  obtain ⟨head', header', rfl, hhead', hheader'⟩ := h _ _ _ hfinds'
  rw [List.append_assoc, List.append_assoc] at hsplit
  have hlength : head.length = head'.length := by
    rw [hhead.length, hhead'.length]
  obtain ⟨rfl, htail⟩ := List.append_inj hsplit hlength
  rw [hheader.unique hheader' htail]

theorem Announced.solid (h : opener.Announced word) : opener.Solid .insensitive := by
  intro front back hfinds
  obtain ⟨head, header, hnil, -, hheader⟩ := h _ _ _ hfinds
  obtain ⟨-, rfl⟩ := List.append_eq_nil_iff.mp hnil.symm
  cases hheader

/-- Behind what is found, a search goes through a text without the word. -/
theorem Announced.scans (h : opener.Announced word) {rest : List Char}
    (hfinds : opener.Finds .insensitive front piece (rest ++ back))
    (hquiet : Quiet word rest) :
    ∃ found, found.after = rest ++ back ∧
      opener.Scans .insensitive front (piece ++ rest) back [found] := by
  obtain ⟨found, hcuts, -, hscans⟩ := h.definite.scans h.solid hfinds
  exact ⟨found, hcuts.after, hscans.append (h.begins.silent hquiet _ back).scans⟩

/-! ## What the openers find -/

theorem finds_brace_iff :
    Finds .insensitive (char '{') front piece back ↔ piece = ['{'] :=
  finds_symbol_iff (by decide)

theorem finds_tryOpener_iff :
    Finds .insensitive Checks.tryOpener front piece back ↔
      BoundaryBetween front (piece ++ back) ∧ ∃ head gap,
        piece = head ++ (gap ++ ['{']) ∧ Reads "try" head ∧ Blank gap := by
  have hword : TwoCased "try" := by decide
  rw [Checks.tryOpener, finds_append_iff]
  simp only [finds_keyword_iff hword, finds_spaces_iff, finds_brace_iff]
  constructor
  · rintro ⟨_, _, rfl, ⟨hbound, head, gap, rfl, hhead, hgap⟩, rfl⟩
    rw [← List.append_assoc] at hbound
    exact ⟨hbound, head, gap, List.append_assoc _ _ _, hhead, hgap⟩
  · rintro ⟨hbound, head, gap, rfl, hhead, hgap⟩
    rw [← List.append_assoc, List.append_assoc (head ++ gap)] at hbound
    exact ⟨head ++ gap, ['{'], (List.append_assoc _ _ _).symm,
      ⟨hbound, head, gap, rfl, hhead, hgap⟩, rfl⟩

/-- An exception type of a catch, and what separates it from the next one. -/
def typeEntry : Pattern :=
  text "[" ++ run (.noneOf "]\n") ++ text "]" ++ spaces ++ optional (text ",") ++
    spaces

/-- White space with at most one comma in it. -/
def Separator (gap : List Char) : Prop :=
  ∃ before comma after, gap = before ++ (comma ++ after) ∧ Blank before ∧
    (comma = [','] ∨ comma = []) ∧ Blank after

/-- A name between square brackets, on one line. -/
def TypeName (name : List Char) : Prop := ']' ∉ name ∧ '\n' ∉ name

theorem finds_typeEntry_iff :
    Finds .insensitive typeEntry front piece back ↔
      ∃ name gap, piece = '[' :: (name ++ ']' :: gap) ∧ TypeName name ∧
        Separator gap := by
  have hopen : text "[" = char '[' := by decide
  have hclose : text "]" = char ']' := by decide
  have hcomma : text "," = char ',' := by decide
  have hchar (c : Char) :
      (CharClass.noneOf "]\n").accepts .insensitive c = true ↔
        c ≠ ']' ∧ c ≠ '\n' := by
    rw [accepts_noneOf_iff (by decide)]
    simp
  have hname (name : List Char) :
      (∀ c ∈ name, (CharClass.noneOf "]\n").accepts .insensitive c = true) ↔
        TypeName name := by
    simp only [hchar, forall₂_and, List.forall_mem_ne', TypeName]
  have hsymbols :
      '[' ∉ casedLetters ∧ ']' ∉ casedLetters ∧ ',' ∉ casedLetters := by
    decide
  rw [typeEntry, hopen, hclose, hcomma]
  simp only [finds_append_iff, finds_optional_iff, finds_run_iff, hname,
    finds_symbol_iff hsymbols.1, finds_symbol_iff hsymbols.2.1,
    finds_symbol_iff hsymbols.2.2, finds_spaces_iff]
  constructor
  · rintro ⟨_, after, rfl, ⟨_, comma, rfl, ⟨_, before, rfl, ⟨_, _, rfl,
      ⟨_, name, rfl, rfl, hname⟩, rfl⟩, hbefore⟩, hcomma⟩, hafter⟩
    refine ⟨name, before ++ (comma ++ after), ?_, hname,
      before, comma, after, rfl, hbefore, hcomma, hafter⟩
    simp
  · rintro ⟨name, _, rfl, hname, before, comma, after, rfl, hbefore, hcomma, hafter⟩
    refine ⟨_, after, ?_, ⟨_, comma, rfl, ⟨_, before, rfl, ⟨_, _, rfl,
      ⟨_, name, rfl, rfl, hname⟩, rfl⟩, hbefore⟩, hcomma⟩, hafter⟩
    simp

/-- Exception types one after the other. -/
inductive TypeList : List Char → Prop where
  | nil : TypeList []
  | cons {name gap rest : List Char} (hname : TypeName name) (hgap : Separator gap)
      (h : TypeList rest) : TypeList ('[' :: (name ++ ']' :: (gap ++ rest)))

theorem finds_types_iff :
    Finds .insensitive (star typeEntry) front piece back ↔ TypeList piece := by
  constructor
  · intro h
    induction hlength : piece.length using Nat.strongRecOn generalizing front piece with
    | ind n ih =>
      rcases finds_star_iff.mp h with rfl | ⟨left, right, rfl, honce, hrest⟩
      · exact .nil
      · obtain ⟨name, gap, rfl, hname, hgap⟩ := finds_typeEntry_iff.mp honce
        have htypes := ih right.length (by simp at hlength; omega) hrest rfl
        have hsame : '[' :: (name ++ ']' :: gap) ++ right =
            '[' :: (name ++ ']' :: (gap ++ right)) := by simp
        rw [hsame]
        exact .cons hname hgap htypes
  · intro h
    induction h generalizing front with
    | nil => exact finds_star_iff.mpr (.inl rfl)
    | @cons name gap rest hname hgap _ ih =>
      refine finds_star_iff.mpr (.inr ⟨'[' :: (name ++ ']' :: gap), rest, ?_, ?_, ih⟩)
      · simp
      · exact finds_typeEntry_iff.mpr ⟨name, gap, rfl, hname, hgap⟩

theorem finds_catchOpener_iff :
    Finds .insensitive Checks.catchOpener front piece back ↔
      BoundaryBetween front (piece ++ back) ∧ ∃ head gap types,
        piece = head ++ (gap ++ (types ++ ['{'])) ∧ Reads "catch" head ∧
          Blank gap ∧ TypeList types := by
  have hword : TwoCased "catch" := by decide
  have hopener : Checks.catchOpener =
      .seq (.seq (wordBoundary ++ text "catch" ++ spaces) (star typeEntry))
        (char '{') := rfl
  rw [hopener]
  simp only [finds_seq_iff, finds_keyword_iff hword, finds_spaces_iff,
    finds_brace_iff, finds_types_iff]
  constructor
  · rintro ⟨_, _, rfl, ⟨_, types, rfl, ⟨hbound, head, gap, rfl, hhead, hgap⟩,
      htypes⟩, rfl⟩
    refine ⟨?_, head, gap, types, ?_, hhead, hgap, htypes⟩
    · simpa using hbound
    · simp
  · rintro ⟨hbound, head, gap, types, rfl, hhead, hgap, htypes⟩
    refine ⟨head ++ gap ++ types, ['{'], ?_, ⟨head ++ gap, types, rfl,
      ⟨?_, head, gap, rfl, hhead, hgap⟩, htypes⟩, rfl⟩
    · simp
    · simpa using hbound

/-! ## Where they match -/

theorem Separator.header {gap rest : List Char} (hgap : Separator gap)
    (h : Header rest) : Header (gap ++ rest) := by
  obtain ⟨before, comma, after, rfl, hbefore, hcomma, hafter⟩ := hgap
  rw [List.append_assoc, List.append_assoc]
  apply Header.blank hbefore
  have htail : Header (after ++ rest) := .blank hafter h
  rcases hcomma with rfl | rfl
  · exact .skip (.inr rfl) htail
  · exact htail

theorem TypeList.header {types rest : List Char} (htypes : TypeList types)
    (h : Header rest) : Header (types ++ rest) := by
  induction htypes with
  | nil => exact h
  | @cons name gap types hname hgap _ ih =>
    rw [List.cons_append, List.append_assoc, List.cons_append, List.append_assoc]
    exact .type hname.1 (hgap.header ih)

theorem announced_tryOpener : Checks.tryOpener.Announced "try" := by
  intro front piece back hfinds
  obtain ⟨-, head, gap, rfl, hhead, hgap⟩ := finds_tryOpener_iff.mp hfinds
  exact ⟨head, gap ++ ['{'], rfl, hhead, .blank hgap .brace⟩

theorem announced_catchOpener : Checks.catchOpener.Announced "catch" := by
  intro front piece back hfinds
  obtain ⟨-, head, gap, types, rfl, hhead, hgap, htypes⟩ :=
    finds_catchOpener_iff.mp hfinds
  exact ⟨head, gap ++ (types ++ ['{']), rfl, hhead,
    .blank hgap (htypes.header .brace)⟩

/-- No try block is opened before a square bracket that stands in front of the
brace. -/
theorem tryOpener_silent {region : List Char} (h : '{' ∉ region)
    (front back : List Char) :
    Checks.tryOpener.Silent .insensitive front (region ++ [']']) back := by
  intro skipped rest hpiece hne left right hsplit hfinds
  obtain ⟨-, head, gap, rfl, hhead, hgap⟩ := finds_tryOpener_iff.mp hfinds
  have hbracket : ']' ∈ rest := by
    obtain ⟨init, c, rfl⟩ := rest.eq_nil_or_concat.resolve_left hne
    rw [List.concat_eq_append, ← List.append_assoc] at hpiece
    obtain ⟨-, hlast⟩ := List.append_inj' hpiece rfl
    rw [List.concat_eq_append, ← hlast]
    exact List.mem_concat_self
  rcases List.append_eq_append_iff.mp hsplit
    with ⟨more, hmore, -⟩ | ⟨more, hmore, -⟩
  · -- What is found would hold the bracket.
    have hmem : ']' ∈ head ++ (gap ++ ['{']) := by
      rw [hmore]
      exact List.mem_append_left _ hbracket
    rcases List.mem_append.mp hmem with hmem | hmem
    · have hfolded := mem_folded hmem
      rw [hhead] at hfolded
      exact absurd hfolded (by decide)
    rcases List.mem_append.mp hmem with hmem | hmem
    · exact absurd (hgap _ hmem) (by decide)
    · exact absurd hmem (by decide)
  · -- What is found would stand in front of the bracket, with its brace.
    have hmem : '{' ∈ region ++ [']'] := by
      rw [hpiece, hmore]
      simp
    rcases List.mem_append.mp hmem with hmem | hmem
    · exact h hmem
    · exact absurd hmem (by decide)

end Pattern

end Preflight
