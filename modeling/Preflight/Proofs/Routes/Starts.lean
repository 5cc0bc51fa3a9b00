import Preflight.Proofs.Routes.Decorator

/-!
# Lines that start a decorator or a function

`StartsRoute` and `Defines` say what a line has to look like to start a route decorator
or a function, without the patterns that look for it.  The patterns find exactly these
lines (`occursIn_decoratorLine_iff`, `definedName?_eq_some_iff`), and no line is of both
kinds (`Defines.not_startsRoute`).
-/

namespace Preflight

open Text Checks

/-! ## What the lines look like -/

/-- The line starts a route decorator: the mark, an object and the name of a
decorator, in front of a bracket. -/
inductive StartsRoute : List Char → Prop where
  | mk {object verb rest : List Char} (pad : Gap) (hne : object ≠ [])
      (hobject : ∀ c ∈ object, isWord c = true)
      (hverb : verb ∈ routeNames.map String.toList) :
      StartsRoute (pad.text ++ '@' :: (object ++ '.' :: (verb ++ '(' :: rest)))

/-- The word that makes a function asynchronous, with white space behind it. -/
def asyncText (async? : Option Gap) : List Char :=
  (async?.map fun gap => "async".toList ++ gap.text).getD []

/-- What a line has to begin with to start a function. -/
structure FunctionHead where
  pad : Gap
  /-- The white space behind the word that makes a function asynchronous. -/
  async? : Option Gap
  gap : Gap
  name : List Char
  behind : Gap
  async_ne_nil : ∀ gap ∈ async?, gap.text ≠ []
  gap_ne_nil : gap.text ≠ []
  name_ne_nil : name ≠ []
  isWord_name : ∀ c ∈ name, isWord c = true

namespace FunctionHead

/-- What stands in front of the name. -/
def beforeName (h : FunctionHead) : List Char :=
  h.pad.text ++ (asyncText h.async? ++ ("def".toList ++ h.gap.text))

def text (h : FunctionHead) : List Char :=
  h.beforeName ++ (h.name ++ (h.behind.text ++ ['(']))

end FunctionHead

/-- The line starts a function of this name. -/
def Defines (line name : List Char) : Prop :=
  ∃ (h : FunctionHead) (rest : List Char), line = h.text ++ rest ∧ h.name = name

theorem trimStart_gap (gap : Gap) {c : Char} (hc : isSpace c = false)
    (rest : List Char) : trimStart (gap.text ++ c :: rest) = c :: rest := by
  rw [trimStart, List.dropWhile_append_of_pos gap.blank]
  exact List.dropWhile_cons_of_neg (Bool.eq_false_iff.mp hc)

theorem StartsRoute.startsDecorator {line : List Char} (h : StartsRoute line) :
    startsDecorator line = true := by
  obtain ⟨pad, -, -, -⟩ := h
  rw [Checks.startsDecorator, trimStart_gap pad (by decide)]
  rfl

/-- Behind the white space, a function starts with a letter. -/
theorem exists_asyncText (async? : Option Gap) (rest : List Char) :
    ∃ c more, asyncText async? ++ ("def".toList ++ rest) = c :: more ∧
      (c = 'a' ∨ c = 'd') := by
  cases async? with
  | none => exact ⟨'d', _, rfl, .inr rfl⟩
  | some gap => exact ⟨'a', _, rfl, .inl rfl⟩

theorem not_isSpace_of_asyncText (async? : Option Gap) (rest : List Char) :
    ∀ c ∈ (asyncText async? ++ ("def".toList ++ rest)).head?, isSpace c = false := by
  obtain ⟨c, more, hmore, hc⟩ := exists_asyncText async? rest
  rw [hmore]
  rintro _ ⟨⟩
  rcases hc with rfl | rfl <;> decide

/-- The letters of the words tell whether a function is asynchronous. -/
theorem asyncText_unique {async? async?' : Option Gap} {rest rest' : List Char}
    (h : asyncText async? ++ ("def".toList ++ rest) =
      asyncText async?' ++ ("def".toList ++ rest')) : rest = rest' := by
  have hdef : ∀ more : List Char, ∀ c ∈ ("def".toList ++ more).head?, isSpace c = false :=
    not_isSpace_head (by decide)
  cases async? with
  | none =>
    cases async?' with
    | none => exact List.append_cancel_left h
    | some gap => exact absurd (List.cons.inj h).1 (by decide)
  | some gap =>
    cases async?' with
    | none => exact absurd (List.cons.inj h).1 (by decide)
    | some gap' =>
      have h : "async".toList ++ gap.text ++ ("def".toList ++ rest) =
          "async".toList ++ gap'.text ++ ("def".toList ++ rest') := h
      rw [List.append_assoc, List.append_assoc] at h
      obtain ⟨-, h⟩ := Gap.unique (List.append_cancel_left h) (hdef _) (hdef _)
      exact List.append_cancel_left h

/-- The start of a function is read with one name. -/
theorem FunctionHead.name_unique {h h' : FunctionHead} {rest rest' : List Char}
    (hsplit : h.text ++ rest = h'.text ++ rest') : h.name = h'.name := by
  have hname (h : FunctionHead) (more : List Char) :
      ∀ c ∈ (h.name ++ more).head?, isSpace c = false := by
    intro c hc
    rw [List.head?_append_of_ne_nil _ h.name_ne_nil] at hc
    exact not_isSpace_of_isWord (h.isWord_name c (List.mem_of_head? hc))
  have hbehind (h : FunctionHead) (more : List Char) :
      ∀ c ∈ (h.behind.text ++ '(' :: more).head?, isWord c = false := by
    cases hgap : h.behind.text with
    | nil =>
      rintro _ ⟨⟩
      decide
    | cons d gap =>
      rintro _ ⟨⟩
      exact isWord_of_isSpace (h.behind.blank d (hgap ▸ List.mem_cons_self))
  simp only [text, beforeName, List.append_assoc, List.singleton_append] at hsplit
  obtain ⟨-, hsplit⟩ := Gap.unique hsplit (not_isSpace_of_asyncText _ _)
    (not_isSpace_of_asyncText _ _)
  obtain ⟨-, hnames⟩ := Gap.unique (asyncText_unique hsplit) (hname h _) (hname h' _)
  exact (append_inj_of_kind hnames h.isWord_name h'.isWord_name (hbehind h _)
    (hbehind h' _)).1

theorem Defines.head?_trimStart {line name : List Char} (h : Defines line name) :
    (trimStart line).head? = some 'a' ∨ (trimStart line).head? = some 'd' := by
  obtain ⟨head, rest, rfl, -⟩ := h
  obtain ⟨c, more, hmore, hc⟩ := exists_asyncText head.async?
    (head.gap.text ++ (head.name ++ (head.behind.text ++ '(' :: rest)))
  have hline : head.text ++ rest = head.pad.text ++ c :: more := by
    rw [← hmore]
    simp [FunctionHead.text, FunctionHead.beforeName]
  rw [hline]
  rcases hc with rfl | rfl
  · exact .inl (congrArg List.head? (trimStart_gap head.pad (by decide) more))
  · exact .inr (congrArg List.head? (trimStart_gap head.pad (by decide) more))

theorem Defines.not_startsDecorator {line name : List Char} (h : Defines line name) :
    startsDecorator line = false := by
  rw [Checks.startsDecorator]
  rcases h.head?_trimStart with hhead | hhead
  · rw [hhead]
    rfl
  · rw [hhead]
    rfl

theorem Defines.not_startsRoute {line name : List Char} (h : Defines line name) :
    ¬StartsRoute line := by
  intro hroute
  have hdecorator := hroute.startsDecorator
  rw [h.not_startsDecorator] at hdecorator
  cases hdecorator

theorem occursIn_decoratorLine_iff {line : List Char} :
    decoratorLine.occursIn .sensitive line = true ↔ StartsRoute line := by
  rw [Pattern.occursIn_iff]
  simp only [decoratorLine, Pattern.finds_append_iff, Pattern.finds_textStart_iff,
    Pattern.finds_spaces_sensitive_iff, Pattern.finds_text_sensitive_iff,
    Pattern.finds_some_iff, Pattern.accepts_word_sensitive_iff, Pattern.finds_group_iff,
    finds_routeVerbs_iff]
  constructor
  · rintro ⟨_, _, back, rfl, _, _, rfl, ⟨_, verb, rfl, ⟨_, _, rfl, ⟨_, object, rfl,
      ⟨_, _, rfl, ⟨_, pad, rfl, ⟨rfl, rfl⟩, hpad⟩, rfl⟩, hne, hobject⟩, rfl⟩, hverb⟩, rfl⟩
    have hstarts : StartsRoute (pad ++ '@' :: (object ++ '.' :: (verb ++ '(' :: back))) :=
      .mk ⟨pad, hpad⟩ hne hobject hverb
    simpa using hstarts
  · rintro ⟨pad, hne, hobject, hverb⟩
    rename_i object verb rest
    refine ⟨[], _, rest, ?_, _, ['('], rfl, ⟨_, verb, rfl, ⟨_, ['.'], rfl, ⟨_, object, rfl,
      ⟨_, ['@'], rfl, ⟨[], pad.text, rfl, ⟨rfl, rfl⟩, pad.blank⟩, rfl⟩, hne, hobject⟩, rfl⟩,
      hverb⟩, rfl⟩
    simp

instance (line : List Char) : Decidable (StartsRoute line) :=
  decidable_of_iff _ occursIn_decoratorLine_iff

namespace Checks

open Pattern

variable {front piece rest back : List Char} {groups : List Group} {found : Match}

theorem finds_async_iff :
    Finds .sensitive (optional (text "async" ++ someSpace)) front piece back ↔
      ∃ async? : Option Gap, (∀ gap ∈ async?, gap.text ≠ []) ∧
        piece = asyncText async? := by
  simp only [finds_optional_iff, finds_append_iff, finds_text_sensitive_iff,
    finds_someSpace_sensitive_iff]
  constructor
  · rintro (⟨_, gap, rfl, rfl, hne, hgap⟩ | rfl)
    · refine ⟨Option.some ⟨gap, hgap⟩, fun other hother => ?_, rfl⟩
      rw [← Option.some.inj hother]
      exact hne
    · refine ⟨none, fun other hother => ?_, rfl⟩
      cases hother
  · rintro ⟨async?, hne, rfl⟩
    cases async? with
    | none => exact .inr rfl
    | some gap => exact .inl ⟨_, gap.text, rfl, rfl, hne gap rfl, gap.blank⟩

/-- What is read of the start of a function, with the group that a match keeps. -/
theorem captures_definitionLine_iff :
    definitionLine.Captures .sensitive front piece back groups ↔
      front = [] ∧ ∃ h : FunctionHead, piece = h.text ∧
        groups = [⟨1, h.beforeName.length, (h.beforeName ++ h.name).length⟩] := by
  have hasync : (optional (text "async" ++ someSpace)).groupless = true := by decide
  have hspaces : spaces.groupless = true := rfl
  have hgap : someSpace.groupless = true := rfl
  have hword : (Pattern.some .word).groupless = true := rfl
  have hstart : textStart.groupless = true := rfl
  simp only [definitionLine, captures_append_group_iff hword,
    captures_append_groupless_iff hasync, captures_append_groupless_iff hspaces,
    captures_append_groupless_iff hgap, captures_append_groupless_iff (groupless_text _),
    captures_groupless_iff hstart, finds_async_iff, finds_text_sensitive_iff,
    finds_some_iff, finds_spaces_sensitive_iff, finds_someSpace_sensitive_iff,
    finds_textStart_iff, accepts_word_sensitive_iff]
  constructor
  · rintro ⟨_, _, rfl, ⟨_, behind, rfl, ⟨_, name, _, rfl, rfl, ⟨_, gap, rfl, ⟨_, _, rfl,
      ⟨_, _, rfl, ⟨_, pad, rfl, ⟨rfl, rfl, rfl⟩, hpad⟩, async?, hasyncs, rfl⟩, rfl⟩,
      hne, hgap⟩, hname, hword⟩, hbehind⟩, rfl⟩
    refine ⟨rfl, ⟨⟨pad, hpad⟩, async?, ⟨gap, hgap⟩, name, ⟨behind, hbehind⟩, hasyncs, hne,
      hname, hword⟩, ?_, ?_⟩
    · simp [FunctionHead.text, FunctionHead.beforeName]
    · simp [FunctionHead.beforeName]
  · rintro ⟨rfl, h, rfl, rfl⟩
    refine ⟨_, ['('], ?_, ⟨_, h.behind.text, rfl, ⟨_, h.name, [], rfl, ?_,
      ⟨_, h.gap.text, rfl, ⟨_, _, rfl, ⟨_, asyncText h.async?, rfl, ⟨[], h.pad.text, rfl,
      ⟨rfl, rfl, rfl⟩, h.pad.blank⟩, h.async?, h.async_ne_nil, rfl⟩, rfl⟩, h.gap_ne_nil,
      h.gap.blank⟩, h.name_ne_nil, h.isWord_name⟩, h.behind.blank⟩, rfl⟩
    · simp [FunctionHead.text, FunctionHead.beforeName]
    · simp [FunctionHead.beforeName]

/-- What a search takes of the start of a function. -/
theorem head_of_matchAt?_definitionLine
    (h : definitionLine.matchAt? .sensitive front.getLast? rest front.length =
      Option.some found) :
    ∃ (head : FunctionHead) (back : List Char), front = [] ∧ rest = head.text ++ back ∧
      found.Cuts [] head.text back ∧
      found.group? rest 1 = Option.some head.name := by
  obtain ⟨piece, back, rfl, hcuts, hcaptures⟩ := captures_of_matchAt? h
  obtain ⟨rfl, head, rfl, hgroups⟩ := captures_definitionLine_iff.mp hcaptures
  refine ⟨head, back, rfl, rfl, hcuts, ?_⟩
  have htext : head.text ++ back = head.beforeName ++
      (head.name ++ (head.behind.text ++ '(' :: back)) := by
    simp [FunctionHead.text]
  rw [htext]
  exact Match.group?_of_groups hgroups

/-- The name that is read off a line is the name of the function that it starts. -/
theorem definedName?_eq_some_iff {line name : List Char} :
    definedName? line = Option.some name ↔ Defines line name := by
  rw [definedName?, captures]
  constructor
  · intro h
    obtain ⟨found, hmem, hname⟩ := List.mem_filterMap.mp (List.mem_of_head? h)
    obtain ⟨front, rest, rfl, hmatch⟩ := exists_matchAt?_of_mem_findAll hmem
    obtain ⟨head, back, rfl, rfl, -, hgroup⟩ := head_of_matchAt?_definitionLine hmatch
    exact ⟨head, back, rfl, Option.some.inj (hgroup.symm.trans hname)⟩
  · rintro ⟨head, rest, rfl, rfl⟩
    have hfinds : definitionLine.Finds .sensitive [] head.text rest :=
      (captures_definitionLine_iff.mpr ⟨rfl, head, rfl, rfl⟩).finds
    obtain ⟨found, hmatch⟩ := Option.isSome_iff_exists.mp <|
      matchAt?_isSome_iff.mpr ⟨_, rest, rfl, hfinds⟩
    obtain ⟨head', back, -, hsplit, hcuts, hgroup⟩ :=
      head_of_matchAt?_definitionLine hmatch
    have hne : head'.text ≠ [] := by simp [FunctionHead.text]
    rw [hsplit] at hmatch hgroup ⊢
    have hfirst : definitionLine.findAll .sensitive (head'.text ++ back) = found :: _ :=
      findBehind_of_eq_some hcuts hne hmatch
    simp only [hfirst, List.filterMap_cons, hgroup, List.head?_cons,
      FunctionHead.name_unique hsplit]

end Checks

end Preflight
