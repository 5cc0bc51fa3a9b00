import Preflight.Proofs.Pattern.Finds

/-!
# Patterns in a text with lines around it

`Text.amid` puts whole lines above and below a text.  A place at the start of
the text is then behind a line end, and one at its end in front of one.  For
assertions this makes no difference, apart from the one about the start of the
text.

* `occursIn_amid`: a pattern that does not ask for the start of the text is
  still found.
* `startsIn_le_amid`: it does not match at fewer places.  If its matches keep
  apart, a search finds one for each of those places (`count_eq_startsIn`).
-/

namespace Preflight

/-! ## Lines around a text -/

/-- The text with other text in the lines above and below it. -/
def Text.amid (above below text : List Char) : List Char :=
  above ++ '\n' :: (text ++ '\n' :: below)

/-- The same group when `n` characters have been put before the text. -/
def Group.shift (n : Nat) (g : Group) : Group :=
  { g with start := g.start + n, stop := g.stop + n }

/-- The same place of a text that has been put amid lines. -/
def Place.amid (above below : List Char) (p : Place) : Place where
  before := some (p.before.getD '\n')
  rest := p.rest ++ '\n' :: below
  offset := p.offset + (above.length + 1)
  groups := p.groups.map (·.shift (above.length + 1))

namespace Place

theorem amid_between (above below front rest : List Char) :
    (between front rest).amid above below =
      between (above ++ '\n' :: front) (rest ++ '\n' :: below) := by
  have hbefore : (above ++ '\n' :: front).getLast? =
      some (front.getLast?.getD '\n') := by
    rw [List.getLast?_append, List.getLast?_cons]
    rfl
  have hoffset : (above ++ '\n' :: front).length =
      front.length + (above.length + 1) := by
    rw [List.length_append, List.length_cons]
    omega
  rw [between, between, hbefore, hoffset]
  rfl

variable {above below : List Char}

theorem step?_amid {ok : Char → Bool} {p q : Place}
    (h : p.step? ok = some q) :
    (p.amid above below).step? ok = some (q.amid above below) := by
  obtain ⟨before, rest, offset, groups⟩ := p
  cases rest with
  | nil => cases h
  | cons c cs =>
    simp only [step?] at h
    split at h
    · rename_i hok
      obtain rfl := Option.some.inj h
      simp only [step?, amid, List.cons_append, if_pos hok, Option.getD_some,
        Nat.add_right_comm]
    · cases h

/-- A line end counts as little as the end of the text. -/
@[simp] theorem atWordBoundary_amid (p : Place) :
    (p.amid above below).atWordBoundary = p.atWordBoundary := by
  obtain ⟨before, rest, offset, groups⟩ := p
  cases before <;> cases rest <;> rfl

@[simp] theorem atLineStart_amid (p : Place) :
    (p.amid above below).atLineStart = p.atLineStart := by
  obtain ⟨before, rest, offset, groups⟩ := p
  cases before <;> rfl

end Place

namespace Pattern

variable {casing : Casing}

/-! ## Patterns that do not ask for the start of the text -/

/-- The pattern does not ask for the start of the text. -/
def unanchored : Pattern → Bool
  | textStart => false
  | seq first second | alt first second =>
    first.unanchored && second.unanchored
  | star body | group _ body => body.unanchored
  | empty | one _ | run _ | wordBoundary | lineStart => true

theorem Matches.amid {pattern : Pattern} {p q : Place}
    (above below : List Char) (hpattern : pattern.unanchored = true)
    (h : Matches casing pattern p q) :
    Matches casing pattern (p.amid above below) (q.amid above below) := by
  induction h with
  | empty p => exact .empty _
  | one h => exact .one (Place.step?_amid h)
  | runStop p => exact .runStop _
  | runStep h _ ih => exact .runStep (Place.step?_amid h) (ih hpattern)
  | wordBoundary h => exact .wordBoundary ((Place.atWordBoundary_amid _).trans h)
  | textStart h => cases hpattern
  | lineStart h => exact .lineStart ((Place.atLineStart_amid _).trans h)
  | seq _ _ ihLeft ihRight =>
    obtain ⟨hfirst, hsecond⟩ := Bool.and_eq_true_iff.mp hpattern
    exact .seq (ihLeft hfirst) (ihRight hsecond)
  | altFirst _ ih => exact .altFirst (ih (Bool.and_eq_true_iff.mp hpattern).1)
  | altSecond _ ih => exact .altSecond (ih (Bool.and_eq_true_iff.mp hpattern).2)
  | starStop p => exact .starStop _
  | starStep _ _ ihOnce ihRest =>
    exact .starStep (ihOnce hpattern) (ihRest hpattern)
  | group _ ih => exact .group (ih hpattern)

/-- A piece that is found in a text is found where it stands amid the lines. -/
theorem Finds.amid {pattern : Pattern} {front piece back : List Char}
    (above below : List Char) (hpattern : pattern.unanchored = true)
    (h : pattern.Finds casing front piece back) :
    pattern.Finds casing (above ++ '\n' :: front) piece (back ++ '\n' :: below) := by
  obtain ⟨q, hleads, h⟩ := h
  have h := h.amid above below hpattern
  rw [hleads.eq_between] at h
  obtain ⟨groups, h⟩ := h.regroup []
  have hstart := Place.amid_between above below front (piece ++ back)
  have hstop := Place.amid_between above below (front ++ piece) back
  have hwide := Place.leads_between (above ++ '\n' :: front) piece
    (back ++ '\n' :: below)
  refine ⟨_, hwide.regroup [] groups, ?_⟩
  rw [← List.append_assoc, ← hstart, List.append_assoc, List.cons_append,
    ← hstop]
  exact h

/-- What occurs in a text occurs in it amid the lines. -/
theorem occursIn_amid {pattern : Pattern} {text : List Char}
    (above below : List Char) (hpattern : pattern.unanchored = true)
    (h : pattern.occursIn casing text = true) :
    pattern.occursIn casing (Text.amid above below text) = true := by
  obtain ⟨front, piece, back, rfl, hfinds⟩ := occursIn_iff.mp h
  refine occursIn_iff.mpr ⟨above ++ '\n' :: front, piece, back ++ '\n' :: below,
    ?_, hfinds.amid above below hpattern⟩
  simp [Text.amid]

/-! ## Counting places -/

/-- At how many places from here on the pattern matches. -/
def startsFrom (casing : Casing) (p : Pattern) (before : Option Char)
    (offset : Nat) : List Char → Nat
  | [] => (p.matchAt? casing before [] offset).isSome.toNat
  | c :: cs =>
    (p.matchAt? casing before (c :: cs) offset).isSome.toNat +
      p.startsFrom casing (Option.some c) (offset + 1) cs

/-- At how many places of the text the pattern matches. -/
def startsIn (casing : Casing) (p : Pattern) (text : List Char) : Nat :=
  p.startsFrom casing none 0 text

/-- In no match stands the start of another one. -/
def Apart (casing : Casing) (p : Pattern) : Prop :=
  ∀ {front left right back piece back' : List Char}, left ≠ [] → right ≠ [] →
    right ++ back = piece ++ back' →
    p.Finds casing front (left ++ right) back →
    ¬p.Finds casing (front ++ left) piece back'

/-- From here on, no match starts before the offset `resume`. -/
def FreeUntil (casing : Casing) (p : Pattern) (front rest : List Char)
    (resume : Nat) : Prop :=
  ∀ skipped piece back, rest = skipped ++ (piece ++ back) →
    p.Finds casing (front ++ skipped) piece back →
    resume ≤ front.length + skipped.length

theorem FreeUntil.matchAt?_eq_none {pattern : Pattern} {front rest : List Char}
    {resume : Nat} (hfree : pattern.FreeUntil casing front rest resume)
    (hlt : front.length < resume) :
    pattern.matchAt? casing front.getLast? rest front.length = none := by
  rw [← Option.not_isSome_iff_eq_none, matchAt?_isSome_iff]
  rintro ⟨piece, back, hrest, hfinds⟩
  have := hfree [] piece back hrest (by rwa [List.append_nil])
  exact Nat.not_le_of_lt hlt this

theorem FreeUntil.tail {pattern : Pattern} {front rest : List Char} {c : Char}
    {resume : Nat} (hfree : pattern.FreeUntil casing front (c :: rest) resume) :
    pattern.FreeUntil casing (front ++ [c]) rest resume := by
  intro skipped piece back hrest hfinds
  rw [List.append_assoc] at hfinds
  have := hfree _ piece back (congrArg (c :: ·) hrest) hfinds
  simp only [List.length_append, List.length_cons] at this ⊢
  omega

/-- If matches keep apart, none starts between the start of one and its end. -/
theorem Apart.freeUntil {pattern : Pattern} (hapart : pattern.Apart casing)
    {front rest piece back : List Char} {c : Char}
    (hrest : c :: rest = piece ++ back)
    (hfinds : pattern.Finds casing front piece back) :
    pattern.FreeUntil casing (front ++ [c]) rest
      (max (front.length + piece.length) (front.length + 1)) := by
  intro skipped piece' back' hrest' hfinds'
  rw [List.append_assoc, List.singleton_append] at hfinds'
  have hsplit : c :: skipped ++ (piece' ++ back') = piece ++ back := by
    rw [← hrest, hrest', List.cons_append]
  simp only [List.length_append, List.length_singleton]
  rcases List.append_eq_append_iff.mp hsplit with
    ⟨right, rfl, hright⟩ | ⟨left, hleft, -⟩
  · by_cases hempty : right = []
    · subst hempty
      simp only [List.append_nil, List.length_cons]
      omega
    · exact absurd hfinds' (hapart (List.cons_ne_nil c skipped) hempty
        hright.symm hfinds)
  · have := congrArg List.length hleft
    simp only [List.length_append, List.length_cons] at this
    omega

/-- A search that goes on before the next match finds one match for each
place. -/
theorem length_findFrom {pattern : Pattern} (hapart : pattern.Apart casing)
    {front rest : List Char} {resume : Nat}
    (hfree : pattern.FreeUntil casing front rest resume) :
    (pattern.findFrom casing front.getLast? front.length resume rest).length =
      pattern.startsFrom casing front.getLast? front.length rest := by
  induction rest generalizing front resume with
  | nil =>
    rw [findFrom, startsFrom]
    by_cases hlt : front.length < resume
    · rw [if_pos hlt, hfree.matchAt?_eq_none hlt]
      rfl
    · rw [if_neg hlt]
      cases pattern.matchAt? casing front.getLast? [] front.length <;> rfl
  | cons c rest ih =>
    have ih {later : Nat}
        (hlater : pattern.FreeUntil casing (front ++ [c]) rest later) := ih hlater
    simp only [List.getLast?_concat, List.length_append, List.length_singleton]
      at ih
    rw [findFrom, startsFrom]
    by_cases hlt : front.length < resume
    · rw [if_pos hlt, hfree.matchAt?_eq_none hlt, ih hfree.tail]
      simp
    · rw [if_neg hlt]
      cases hfound : pattern.matchAt? casing front.getLast? (c :: rest)
          front.length with
      | none =>
        simp only [ih hfree.tail]
        simp
      | some found =>
        obtain ⟨piece, back, hrest, hstop, hfinds⟩ := finds_of_matchAt? hfound
        have hfree := hapart.freeUntil hrest hfinds
        rw [← hstop] at hfree
        simp only [List.length_cons, ih hfree]
        simp [Nat.add_comm]

theorem count_eq_startsIn {pattern : Pattern} (hapart : pattern.Apart casing)
    (text : List Char) :
    pattern.count casing text = pattern.startsIn casing text :=
  @length_findFrom casing pattern hapart [] text 0 fun _ _ _ _ _ =>
    Nat.zero_le _

/-- Amid the lines, a pattern matches where it did. -/
theorem isSome_matchAt?_amid {pattern : Pattern} (above below : List Char)
    (hpattern : pattern.unanchored = true) (front rest : List Char) :
    (pattern.matchAt? casing front.getLast? rest front.length).isSome.toNat ≤
      (pattern.matchAt? casing (above ++ '\n' :: front).getLast?
        (rest ++ '\n' :: below) (above ++ '\n' :: front).length).isSome.toNat := by
  by_cases h : (pattern.matchAt? casing front.getLast? rest
      front.length).isSome = true
  · obtain ⟨piece, back, rfl, hfinds⟩ := matchAt?_isSome_iff.mp h
    have hwide := matchAt?_isSome_iff.mpr ⟨piece, back ++ '\n' :: below,
      List.append_assoc _ _ _, hfinds.amid above below hpattern⟩
    exact Nat.le_of_eq (by rw [h, hwide])
  · rw [Bool.not_eq_true] at h
    rw [h]
    exact Nat.zero_le _

theorem startsFrom_le_amid {pattern : Pattern} (above below : List Char)
    (hpattern : pattern.unanchored = true) (front rest : List Char) :
    pattern.startsFrom casing front.getLast? front.length rest ≤
      pattern.startsFrom casing (above ++ '\n' :: front).getLast?
        (above ++ '\n' :: front).length (rest ++ '\n' :: below) := by
  induction rest generalizing front with
  | nil =>
    rw [List.nil_append, startsFrom, startsFrom]
    exact Nat.le_add_right_of_le
      (isSome_matchAt?_amid above below hpattern front [])
  | cons c rest ih =>
    have ih := ih (front ++ [c])
    rw [List.cons_append, startsFrom, startsFrom]
    refine Nat.add_le_add
      (isSome_matchAt?_amid above below hpattern front (c :: rest)) ?_
    rw [← List.cons_append, ← List.append_assoc, List.getLast?_concat,
      List.getLast?_concat, List.length_append, List.length_append] at ih
    exact ih

/-- Leaving out text at the start leaves out places. -/
theorem startsFrom_le_append (pattern : Pattern) (before : Option Char)
    (offset : Nat) (above : List Char) (c : Char) (rest : List Char) :
    pattern.startsFrom casing (Option.some c) (offset + (above.length + 1)) rest ≤
      pattern.startsFrom casing before offset (above ++ c :: rest) := by
  induction above generalizing before offset with
  | nil => exact Nat.le_add_left _ _
  | cons d above ih =>
    have ih := ih (Option.some d) (offset + 1)
    rw [List.cons_append, startsFrom, List.length_cons]
    refine Nat.le_add_left_of_le ?_
    rwa [Nat.add_right_comm offset] at ih

/-- Amid the lines, a pattern matches at no fewer places. -/
theorem startsIn_le_amid {pattern : Pattern} (above below : List Char)
    (hpattern : pattern.unanchored = true) (text : List Char) :
    pattern.startsIn casing text ≤
      pattern.startsIn casing (Text.amid above below text) := by
  have hplaces : pattern.startsIn casing text ≤ _ :=
    startsFrom_le_amid above below hpattern [] text
  have hrest : _ ≤ pattern.startsIn casing (Text.amid above below text) :=
    pattern.startsFrom_le_append none 0 above '\n' (text ++ '\n' :: below)
  rw [List.getLast?_concat, List.length_append, List.length_singleton] at hplaces
  rw [Nat.zero_add] at hrest
  exact Nat.le_trans hplaces hrest

end Pattern

end Preflight
