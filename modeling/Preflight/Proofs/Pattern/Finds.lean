import Mathlib.Data.List.Forall2
import Preflight.Proofs.Pattern.Ends

/-!
# What a pattern finds

`Finds` says that a pattern matches a piece of a text where it stands, between
the text before and the text behind.  Nothing is said of offsets, groups and
preferences: those are for searches that have to take one of several matches.

* `occursIn_iff`: a pattern occurs in a text exactly if it finds some piece of
  it.
* `finds_seq_iff`, `finds_alt_iff`, `finds_text_iff` and their like: what a
  pattern finds, constructor by constructor.  By them a pattern is spelled out
  without its matcher.
-/

namespace Preflight

/-- The place between two parts of a text. -/
def Place.between (front back : List Char) : Place :=
  ⟨front.getLast?, back, front.length, []⟩

namespace Place

theorem leads_between (front piece back : List Char) :
    (between front (piece ++ back)).Leads piece (between (front ++ piece) back) :=
  ⟨rfl, List.getLast?_append, List.length_append⟩

/-- Where a piece leads from a place in a text. -/
theorem Leads.eq_between {front piece back : List Char} {q : Place}
    (h : (between front (piece ++ back)).Leads piece q) :
    q = (between (front ++ piece) back).regroup q.groups :=
  (leads_between front piece back).eq_regroup h
    (h.offset.trans (leads_between front piece back).offset.symm)

end Place

namespace Pattern

/-- The pattern matches `piece` where it stands, behind `front` and in front of
`back`. -/
def Finds (casing : Casing) (pattern : Pattern) (front piece back : List Char) :
    Prop :=
  ∃ q, (Place.between front (piece ++ back)).Leads piece q ∧
    Matches casing pattern (.between front (piece ++ back)) q

variable {casing : Casing} {front piece back : List Char}

/-- A match that starts in a text finds a piece of it. -/
theorem Matches.finds {pattern : Pattern} {rest : List Char} {q : Place}
    (h : Matches casing pattern (.between front rest) q) :
    ∃ piece, rest = piece ++ q.rest ∧
      pattern.Finds casing front piece q.rest := by
  obtain ⟨piece, hleads⟩ := h.leads
  have hrest : rest = piece ++ q.rest := hleads.rest
  rw [hrest] at h hleads
  exact ⟨piece, hrest, q, hleads, h⟩

/-- A piece that is found is matched whatever groups have been closed
before. -/
theorem Finds.matches_regroup {pattern : Pattern}
    (h : pattern.Finds casing front piece back) (groups : List Group) :
    ∃ groups', Matches casing pattern
      ((Place.between front (piece ++ back)).regroup groups)
      ((Place.between (front ++ piece) back).regroup groups') := by
  obtain ⟨q, hleads, h⟩ := h
  rw [hleads.eq_between] at h
  exact h.regroup groups

/-! ## Constructor by constructor -/

section

variable {first second body : Pattern} {cls : CharClass} {index : Nat}

@[simp] theorem finds_empty_iff :
    Finds casing .empty front piece back ↔ piece = [] := by
  constructor
  · rintro ⟨q, hleads, h⟩
    cases h
    exact hleads.piece_unique (.nil _ _)
  · rintro rfl
    exact ⟨_, .nil _ [], .empty _⟩

@[simp] theorem finds_one_iff :
    Finds casing (.one cls) front piece back ↔
      ∃ c, piece = [c] ∧ cls.accepts casing c = true := by
  constructor
  · rintro ⟨q, hleads, h⟩
    cases h with
    | one h =>
      obtain ⟨c, hc, hstep, -⟩ := Place.Leads.of_step? h
      exact ⟨c, hleads.piece_unique hstep, hc⟩
  · rintro ⟨c, rfl, hc⟩
    have hleads := Place.leads_between front [c] back
    exact ⟨_, hleads, .one (hleads.step? hc)⟩

@[simp] theorem finds_run_iff :
    Finds casing (.run cls) front piece back ↔
      ∀ c ∈ piece, cls.accepts casing c = true := by
  constructor
  · rintro ⟨q, hleads, h⟩
    obtain ⟨run, hrun, hleads', -⟩ := matches_run_iff.mp h
    rw [hleads.piece_unique hleads']
    exact hrun
  · intro hpiece
    have hleads := Place.leads_between front piece back
    exact ⟨_, hleads, matches_run_iff.mpr ⟨piece, hpiece, hleads, rfl⟩⟩

/-- Between two parts of a text stands a word boundary. -/
def BoundaryBetween (front back : List Char) : Prop :=
  front.getLast?.any Text.isWord ≠ back.head?.any Text.isWord

theorem atWordBoundary_between_iff :
    (Place.between front back).atWordBoundary = true ↔
      BoundaryBetween front back :=
  bne_iff_ne

@[simp] theorem finds_wordBoundary_iff :
    Finds casing .wordBoundary front piece back ↔
      piece = [] ∧ BoundaryBetween front back := by
  rw [← atWordBoundary_between_iff]
  constructor
  · rintro ⟨q, hleads, h⟩
    cases h with
    | wordBoundary h =>
      obtain rfl := hleads.piece_unique (.nil _ _)
      exact ⟨rfl, h⟩
  · rintro ⟨rfl, h⟩
    exact ⟨_, .nil _ [], .wordBoundary h⟩

@[simp] theorem finds_textStart_iff :
    Finds casing .textStart front piece back ↔ piece = [] ∧ front = [] := by
  constructor
  · rintro ⟨q, hleads, h⟩
    cases h with
    | textStart h =>
      exact ⟨hleads.piece_unique (.nil _ _), List.getLast?_eq_none_iff.mp h⟩
  · rintro ⟨rfl, h⟩
    exact ⟨_, .nil _ [], .textStart (List.getLast?_eq_none_iff.mpr h)⟩

@[simp] theorem finds_lineStart_iff :
    Finds casing .lineStart front piece back ↔
      piece = [] ∧ ∀ c ∈ front.getLast?, c = '\n' := by
  have hstart (back : List Char) :
      (Place.between front back).atLineStart = true ↔
        ∀ c ∈ front.getLast?, c = '\n' := by
    simp [Place.atLineStart, Place.between, Option.all_eq_true]
  constructor
  · rintro ⟨q, hleads, h⟩
    cases h with
    | lineStart h =>
      obtain rfl := hleads.piece_unique (.nil _ _)
      exact ⟨rfl, (hstart _).mp h⟩
  · rintro ⟨rfl, h⟩
    exact ⟨_, .nil _ [], .lineStart ((hstart _).mpr h)⟩

theorem finds_seq_iff :
    Finds casing (.seq first second) front piece back ↔
      ∃ left right, piece = left ++ right ∧
        first.Finds casing front left (right ++ back) ∧
        second.Finds casing (front ++ left) right back := by
  constructor
  · rintro ⟨q, hleads, h⟩
    cases h with
    | @seq _ _ _ r _ hfirst hsecond =>
      obtain ⟨left, hleft⟩ := hfirst.leads
      obtain ⟨right, hright⟩ := hsecond.leads
      obtain rfl := hleads.piece_unique (hleft.trans hright)
      rw [List.append_assoc] at hfirst hleft
      obtain ⟨groups, hsecond⟩ := hsecond.regroup []
      rw [hleft.eq_between] at hsecond hright
      refine ⟨left, right, rfl, ⟨r, hleft, hfirst⟩, _, ?_, hsecond⟩
      exact hright.regroup [] groups
  · rintro ⟨left, right, rfl, ⟨r, hleft, hfirst⟩, hsecond⟩
    obtain ⟨groups, hsecond⟩ := hsecond.matches_regroup r.groups
    rw [← hleft.eq_between, List.append_assoc] at hsecond
    rw [← List.append_assoc] at hfirst
    refine ⟨_, ?_, .seq hfirst hsecond⟩
    exact (Place.leads_between front (left ++ right) back).regroup [] groups

/-- A repetition finds nothing, or what its body finds first and then itself. -/
theorem finds_star_iff :
    Finds casing (.star body) front piece back ↔
      piece = [] ∨ ∃ left right, piece = left ++ right ∧
        body.Finds casing front left (right ++ back) ∧
        Finds casing (.star body) (front ++ left) right back := by
  rw [← finds_seq_iff]
  constructor
  · rintro ⟨q, hleads, h⟩
    cases h with
    | starStop _ => exact .inl (hleads.piece_unique (.nil _ _))
    | starStep honce hrest => exact .inr ⟨q, hleads, .seq honce hrest⟩
  · rintro (rfl | ⟨q, hleads, h⟩)
    · exact ⟨_, .nil _ [], .starStop _⟩
    · cases h with
      | seq honce hrest => exact ⟨q, hleads, .starStep honce hrest⟩

@[simp] theorem finds_alt_iff :
    Finds casing (.alt first second) front piece back ↔
      first.Finds casing front piece back ∨
        second.Finds casing front piece back := by
  constructor
  · rintro ⟨q, hleads, h⟩
    cases h with
    | altFirst h => exact .inl ⟨q, hleads, h⟩
    | altSecond h => exact .inr ⟨q, hleads, h⟩
  · rintro (⟨q, hleads, h⟩ | ⟨q, hleads, h⟩)
    · exact ⟨q, hleads, .altFirst h⟩
    · exact ⟨q, hleads, .altSecond h⟩

@[simp] theorem finds_group_iff :
    Finds casing (.group index body) front piece back ↔
      body.Finds casing front piece back := by
  constructor
  · rintro ⟨q, hleads, h⟩
    cases h with
    | @group _ _ _ r h =>
      exact ⟨r, ⟨hleads.rest, hleads.before, hleads.offset⟩, h⟩
  · rintro ⟨q, hleads, h⟩
    exact ⟨.close index _ q, ⟨hleads.rest, hleads.before, hleads.offset⟩,
      .group h⟩

/-! ## Composed patterns -/

@[simp] theorem finds_append_iff :
    Finds casing (first ++ second) front piece back ↔
      ∃ left right, piece = left ++ right ∧
        first.Finds casing front left (right ++ back) ∧
        second.Finds casing (front ++ left) right back :=
  finds_seq_iff

theorem finds_append_assoc {third : Pattern} :
    Finds casing (first ++ second ++ third) front piece back ↔
      Finds casing (first ++ (second ++ third)) front piece back := by
  simp only [finds_append_iff]
  constructor
  · rintro ⟨_, right, rfl, ⟨left, middle, rfl, hfirst, hsecond⟩, hthird⟩
    rw [← List.append_assoc] at hthird
    rw [← List.append_assoc] at hfirst
    exact ⟨left, middle ++ right, List.append_assoc .., hfirst, middle, right,
      rfl, hsecond, hthird⟩
  · rintro ⟨left, _, rfl, hfirst, middle, right, rfl, hsecond, hthird⟩
    rw [List.append_assoc] at hthird
    rw [List.append_assoc] at hfirst
    exact ⟨left ++ middle, right, (List.append_assoc ..).symm,
      ⟨left, middle, rfl, hfirst, hsecond⟩, hthird⟩

@[simp] theorem finds_some_iff :
    Finds casing (Pattern.some cls) front piece back ↔
      piece ≠ [] ∧ ∀ c ∈ piece, cls.accepts casing c = true := by
  rw [Pattern.some, finds_seq_iff]
  constructor
  · rintro ⟨left, right, rfl, hleft, hright⟩
    obtain ⟨c, rfl, hc⟩ := finds_one_iff.mp hleft
    exact ⟨List.cons_ne_nil c right,
      List.forall_mem_cons.mpr ⟨hc, finds_run_iff.mp hright⟩⟩
  · rintro ⟨hne, hpiece⟩
    cases piece with
    | nil => exact absurd rfl hne
    | cons c piece =>
      obtain ⟨hc, hpiece⟩ := List.forall_mem_cons.mp hpiece
      exact ⟨[c], piece, rfl, finds_one_iff.mpr ⟨c, rfl, hc⟩,
        finds_run_iff.mpr hpiece⟩

@[simp] theorem finds_optional_iff :
    Finds casing (optional body) front piece back ↔
      body.Finds casing front piece back ∨ piece = [] := by
  rw [optional, finds_alt_iff, finds_empty_iff]

@[simp] theorem finds_char_iff {c : Char} :
    Finds casing (char c) front piece back ↔
      ∃ d, piece = [d] ∧ (CharClass.just c).accepts casing d = true :=
  finds_one_iff

/-- A text is found letter by letter. -/
@[simp] theorem finds_text_iff {s : String} :
    Finds casing (text s) front piece back ↔
      List.Forall₂ (fun c d => (CharClass.just c).accepts casing d = true)
        s.toList piece := by
  rw [text]
  induction s.toList generalizing front piece with
  | nil =>
    rw [List.map_nil, all, finds_empty_iff, List.forall₂_nil_left_iff]
  | cons c cs ih =>
    -- A single letter is not followed by an empty pattern.
    have hstep :
        Finds casing (all ((c :: cs).map char)) front piece back ↔
          Finds casing (.seq (char c) (all (cs.map char))) front piece back := by
      cases cs with
      | cons d cs => rfl
      | nil =>
        rw [finds_seq_iff]
        constructor
        · intro h
          exact ⟨piece, [], (List.append_nil piece).symm, h, finds_empty_iff.mpr rfl⟩
        · rintro ⟨left, right, rfl, hleft, hright⟩
          obtain rfl := finds_empty_iff.mp hright
          rw [List.append_nil]
          exact hleft
    rw [hstep, finds_seq_iff]
    constructor
    · rintro ⟨left, right, rfl, hleft, hright⟩
      obtain ⟨d, rfl, hd⟩ := finds_char_iff.mp hleft
      exact .cons hd (ih.mp hright)
    · intro h
      cases h with
      | @cons _ d _ piece hd hrest =>
        exact ⟨[d], piece, rfl, finds_char_iff.mpr ⟨d, rfl, hd⟩, ih.mpr hrest⟩

end

/-! ## Searching -/

/-- A match that a search takes is a piece that the pattern finds. -/
theorem finds_of_matchAt? {pattern : Pattern} {rest : List Char} {found : Match}
    (h : pattern.matchAt? casing front.getLast? rest front.length =
      Option.some found) :
    ∃ piece back, rest = piece ++ back ∧
      found.stop = front.length + piece.length ∧
      pattern.Finds casing front piece back := by
  obtain ⟨q, hq, rfl⟩ := Option.map_eq_some_iff.mp h
  have hmatches : Matches casing pattern (.between front rest) q :=
    matches_of_mem_ends (List.mem_of_mem_head? hq)
  obtain ⟨piece, hrest, hfinds⟩ := hmatches.finds
  obtain ⟨piece', hleads⟩ := hmatches.leads
  have hsame : piece = piece' :=
    List.append_cancel_right (hrest.symm.trans hleads.rest)
  exact ⟨piece, q.rest, hrest, hsame ▸ hleads.offset, hfinds⟩

/-- A search takes a match wherever the pattern finds a piece. -/
theorem matchAt?_isSome_iff {pattern : Pattern} {rest : List Char} :
    (pattern.matchAt? casing front.getLast? rest front.length).isSome = true ↔
      ∃ piece back, rest = piece ++ back ∧
        pattern.Finds casing front piece back := by
  constructor
  · intro h
    obtain ⟨found, hfound⟩ := Option.isSome_iff_exists.mp h
    obtain ⟨piece, back, hrest, -, hfinds⟩ := finds_of_matchAt? hfound
    exact ⟨piece, back, hrest, hfinds⟩
  · rintro ⟨piece, back, rfl, q, -, h⟩
    obtain ⟨groups, hq⟩ := exists_mem_ends_of_matches h []
    rw [matchAt?, Option.isSome_map, List.isSome_head?]
    exact List.ne_nil_of_mem hq

theorem occursFrom_iff {pattern : Pattern} {rest : List Char} :
    pattern.occursFrom casing front.getLast? front.length rest = true ↔
      ∃ skipped piece back, rest = skipped ++ (piece ++ back) ∧
        pattern.Finds casing (front ++ skipped) piece back := by
  induction rest generalizing front with
  | nil =>
    rw [occursFrom, matchAt?_isSome_iff]
    constructor
    · rintro ⟨piece, back, hrest, h⟩
      exact ⟨[], piece, back, hrest, by rwa [List.append_nil]⟩
    · rintro ⟨skipped, piece, back, hrest, h⟩
      obtain ⟨rfl, hempty⟩ := List.append_eq_nil_iff.mp hrest.symm
      exact ⟨piece, back, hempty.symm, by rwa [List.append_nil] at h⟩
  | cons c rest ih =>
    have ih := @ih (front ++ [c])
    rw [List.getLast?_concat, List.length_append, List.length_singleton] at ih
    rw [occursFrom, Bool.or_eq_true, matchAt?_isSome_iff, ih]
    constructor
    · rintro (⟨piece, back, hrest, h⟩ | ⟨skipped, piece, back, rfl, h⟩)
      · exact ⟨[], piece, back, hrest, by rwa [List.append_nil]⟩
      · exact ⟨c :: skipped, piece, back, rfl, by rwa [List.append_cons]⟩
    · rintro ⟨skipped, piece, back, hrest, h⟩
      cases skipped with
      | nil => exact .inl ⟨piece, back, hrest, by rwa [List.append_nil] at h⟩
      | cons d skipped =>
        obtain ⟨rfl, htail⟩ := List.cons.inj hrest
        exact .inr ⟨skipped, piece, back, htail, by rwa [List.append_cons] at h⟩

/-- A pattern occurs in a text exactly if it finds some piece of it. -/
theorem occursIn_iff {pattern : Pattern} {content : List Char} :
    pattern.occursIn casing content = true ↔
      ∃ front piece back, content = front ++ (piece ++ back) ∧
        pattern.Finds casing front piece back :=
  @occursFrom_iff casing [] pattern content

/-- A pattern that has to stand at the start of the text or behind a character of
a class occurs where the pattern matches at such a place. -/
theorem occursIn_behind_iff {cls : CharClass} {pattern : Pattern}
    {content : List Char} :
    (alt textStart (one cls) ++ pattern).occursIn casing content = true ↔
      ∃ front rest, content = front ++ rest ∧
        (∀ c ∈ front.getLast?, cls.accepts casing c = true) ∧
        (pattern.matchAt? casing front.getLast? rest front.length).isSome =
          true := by
  simp only [occursIn_iff, finds_append_iff, finds_alt_iff, finds_textStart_iff,
    finds_one_iff, matchAt?_isSome_iff]
  constructor
  · rintro ⟨front, _, back, rfl, left, right, rfl, hleft, hright⟩
    refine ⟨front ++ left, right ++ back, by simp, ?_, right, back, rfl, hright⟩
    rcases hleft with ⟨rfl, rfl⟩ | ⟨c, rfl, hc⟩
    · exact nofun
    · rw [List.getLast?_concat]
      rintro _ ⟨⟩
      exact hc
  · rintro ⟨front, _, rfl, hlast, right, back, rfl, hright⟩
    rcases front.eq_nil_or_concat with rfl | ⟨front, c, rfl⟩
    · exact ⟨[], right, back, rfl, [], right, rfl, .inl ⟨rfl, rfl⟩, hright⟩
    · rw [List.concat_eq_append] at hlast hright ⊢
      refine ⟨front, c :: right, back, by simp, [c], right, rfl, .inr ⟨c, rfl, ?_⟩,
        hright⟩
      exact hlast c List.getLast?_concat

theorem occursIn_append_assoc {first second third : Pattern}
    {content : List Char} :
    (first ++ second ++ third).occursIn casing content =
      (first ++ (second ++ third)).occursIn casing content := by
  rw [Bool.eq_iff_iff, occursIn_iff, occursIn_iff]
  simp only [finds_append_assoc]

end Pattern

end Preflight
