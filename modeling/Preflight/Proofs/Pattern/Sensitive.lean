import Preflight.Proofs.Secrets

/-!
# What a pattern finds where letter case counts

Where letter case counts, a class accepts what its items hold (`accepts_sensitive_iff`) and
a text is found as it is written (`finds_text_sensitive_iff`).
-/

namespace Preflight.Pattern

open Text

variable {front piece back : List Char} {s : String} {c : Char}

theorem accepts_sensitive_iff {cls : CharClass} :
    cls.accepts .sensitive c = true ↔
      (cls.items.any (·.holds c) != cls.negated) = true := by
  simp only [CharClass.accepts, List.any_cons, List.any_nil, Bool.or_false]

@[simp] theorem finds_text_sensitive_iff :
    Finds .sensitive (text s) front piece back ↔ piece = s.toList := by
  have hjust (c d : Char) :
      (CharClass.just c).accepts .sensitive d = true ↔ d = c := by
    simp [accepts_sensitive_iff, CharClass.just, ClassItem.holds]
  simp only [finds_text_iff, hjust]
  rw [← List.forall₂_eq_eq_eq]
  exact ⟨.flip, .flip⟩

@[simp] theorem accepts_space_sensitive_iff :
    CharClass.space.accepts .sensitive c = true ↔ isSpace c = true := by
  simp [accepts_sensitive_iff, CharClass.space, ClassItem.holds]

@[simp] theorem accepts_word_sensitive_iff :
    CharClass.word.accepts .sensitive c = true ↔ isWord c = true := by
  simp [accepts_sensitive_iff, CharClass.word, ClassItem.holds]

@[simp] theorem accepts_anyOf_sensitive_iff :
    (CharClass.anyOf s).accepts .sensitive c = true ↔ c ∈ s.toList := by
  simp [accepts_sensitive_iff, CharClass.anyOf, ClassItem.holds]

@[simp] theorem accepts_noneOf_sensitive_iff :
    (CharClass.noneOf s).accepts .sensitive c = true ↔ c ∉ s.toList := by
  simp [accepts_sensitive_iff, CharClass.noneOf, ClassItem.holds, List.forall_mem_ne]

@[simp] theorem finds_spaces_sensitive_iff :
    Finds .sensitive spaces front piece back ↔ Blank piece := by
  simp only [spaces, finds_run_iff, accepts_space_sensitive_iff, Blank]

@[simp] theorem finds_someSpace_sensitive_iff :
    Finds .sensitive someSpace front piece back ↔ piece ≠ [] ∧ Blank piece := by
  simp only [someSpace, finds_some_iff, accepts_space_sensitive_iff, Blank]

end Preflight.Pattern
