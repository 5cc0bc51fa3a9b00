import Preflight.Proofs.LetterCase.Words
import Preflight.Proofs.Pattern.Scan

/-!
# Patterns that begin with a word

Many patterns look for a word first: in any case, and not as a part of a longer
word.  Where the word does not start, such a pattern finds nothing.

* `finds_word_iff`, `finds_keyword_iff`: what is found of the word, of the boundary in
  front of it and of the pattern behind it.
* `Begins.silent`, `Begins.silent_of_free`: no match starts in a text without the word
  that is followed, or ended, by a character that is none of its letters.
-/

namespace Preflight

open Text

namespace Pattern

variable {word : String} {pattern : Pattern} {front piece back : List Char}

/-- Patterns find a word in any case. -/
theorem finds_word_iff (h : TwoCased word) :
    Finds .insensitive (text word) front piece back ↔ Reads word piece := by
  rw [finds_text_insensitive_iff, spells_iff_reads h]

/-- Patterns find a character without case variants where it stands. -/
theorem finds_symbol_iff {c : Char} (h : c ∉ casedLetters) :
    Finds .insensitive (char c) front piece back ↔ piece = [c] := by
  rw [finds_char_iff]
  constructor
  · rintro ⟨d, rfl, hd⟩
    rw [(accepts_just_iff_eq h).mp hd]
  · rintro rfl
    exact ⟨c, rfl, (accepts_just_iff_eq h).mpr rfl⟩

/-- A keyword, in any case, and what the pattern behind it finds. -/
theorem finds_keyword_iff (h : TwoCased word) :
    Finds .insensitive (wordBoundary ++ text word ++ pattern) front piece back ↔
      BoundaryBetween front (piece ++ back) ∧ ∃ head tail, piece = head ++ tail ∧
        Reads word head ∧ pattern.Finds .insensitive (front ++ head) tail back := by
  simp only [finds_append_iff, finds_wordBoundary_iff, finds_word_iff h]
  constructor
  · rintro ⟨_, tail, rfl, ⟨_, head, rfl, ⟨rfl, hbound⟩, hhead⟩, htail⟩
    rw [List.nil_append] at htail ⊢
    rw [List.append_assoc]
    exact ⟨hbound, head, tail, rfl, hhead, htail⟩
  · rintro ⟨hbound, head, tail, rfl, hhead, htail⟩
    rw [List.append_assoc] at hbound
    exact ⟨head, tail, rfl, ⟨[], head, rfl, ⟨rfl, hbound⟩, hhead⟩, htail⟩

/-! ## Boundaries -/

/-- A boundary stands in front of a word character if none stands before it. -/
theorem boundaryBetween_head_iff (h : piece.head?.any isWord = true) :
    BoundaryBetween front (piece ++ back) ↔ EndsClear front := by
  have hhead : (piece ++ back).head?.any isWord = true := by
    cases piece with
    | nil => cases h
    | cons c piece => exact h
  rw [BoundaryBetween, hhead, ne_eq, Bool.not_eq_true, any_isWord_eq_false_iff,
    EndsClear]

/-- A boundary stands behind a word character if none stands after it. -/
theorem boundaryBetween_last_iff (h : piece.getLast?.any isWord = true) :
    BoundaryBetween (front ++ piece) back ↔ StartsClear back := by
  have hlast : (front ++ piece).getLast?.any isWord = true := by
    rw [List.getLast?_append]
    cases hc : piece.getLast? with
    | none => rw [hc] at h; cases h
    | some c => rw [hc] at h; exact h
  rw [BoundaryBetween, hlast, ne_comm, ne_eq, Bool.not_eq_true,
    any_isWord_eq_false_iff, StartsClear]

/-! ## Where the word does not start -/

/-- Every piece that the pattern finds begins with the word. -/
def Begins (word : String) (pattern : Pattern) : Prop :=
  ∀ front piece back, pattern.Finds .insensitive front piece back →
    ∃ head tail, piece = head ++ tail ∧ Reads word head

/-- The word does not start in the text, neither to stand in it nor to go on behind
it. -/
structure Quiet (word : String) (text : List Char) : Prop where
  free : ¬Holds word text
  last : ∀ c ∈ text.getLast?, c.toLower ∉ folded word.toList

/-- No match starts where the word does not start. -/
theorem Begins.silent (h : pattern.Begins word) (hquiet : Quiet word piece)
    (front back : List Char) : pattern.Silent .insensitive front piece back := by
  intro skipped rest hpiece hne left right hsplit hfinds
  obtain ⟨head, tail, rfl, hhead⟩ := h _ _ _ hfinds
  rw [List.append_assoc] at hsplit
  rcases List.append_eq_append_iff.mp hsplit
    with ⟨more, hmore, -⟩ | ⟨more, hmore, -⟩
  · -- The word goes on behind the text, so the last character is one of its letters.
    obtain ⟨init, c, rfl⟩ := rest.eq_nil_or_concat.resolve_left hne
    rw [List.concat_eq_append] at hpiece hmore
    have hc : c ∈ head := by
      rw [hmore]
      exact List.mem_append_left _ List.mem_concat_self
    refine hquiet.last c ?_ (hhead ▸ mem_folded hc)
    rw [hpiece, ← List.append_assoc]
    exact List.getLast?_concat
  · apply hquiet.free
    rw [hpiece, hmore]
    exact hhead.holds _ _

/-- A word that begins in a text ends in it, if the text ends or goes on with a
character that is no letter of the word. -/
theorem exists_append_of_reads {head tail : List Char} (hhead : Reads word head)
    (hback : ∀ c ∈ back.head?, c.toLower ∉ folded word.toList)
    (hsplit : piece ++ back = head ++ tail) : ∃ more, piece = head ++ more := by
  rcases List.append_eq_append_iff.mp hsplit
    with ⟨more, hmore, hback'⟩ | ⟨more, hmore, -⟩
  · cases more with
    | nil => exact ⟨[], by rw [hmore, List.append_nil, List.append_nil]⟩
    | cons c more =>
      have hc : c ∈ head := by
        rw [hmore]
        exact List.mem_append_right _ List.mem_cons_self
      rw [hback'] at hback
      exact absurd (hhead ▸ mem_folded hc) (hback c rfl)
  · exact ⟨more, hmore⟩

/-- In front of a character that is no letter of the word, and at the end of the
whole text, the word cannot go on. -/
theorem Begins.silent_of_free (h : pattern.Begins word) (hfree : ¬Holds word piece)
    (hback : ∀ c ∈ back.head?, c.toLower ∉ folded word.toList) (front : List Char) :
    pattern.Silent .insensitive front piece back := by
  intro skipped rest hpiece hne left right hsplit hfinds
  obtain ⟨head, tail, rfl, hhead⟩ := h _ _ _ hfinds
  rw [List.append_assoc] at hsplit
  obtain ⟨more, rfl⟩ := exists_append_of_reads hhead hback hsplit
  apply hfree
  rw [hpiece]
  exact hhead.holds _ _

/-- White space holds no word. -/
theorem quiet_of_blank (hword : Unbroken word) (h : Blank piece) : Quiet word piece where
  free := hword.not_holds h
  last c hc := hword.notMem_of_isSpace (h c (List.mem_of_getLast? hc))

end Pattern

end Preflight
