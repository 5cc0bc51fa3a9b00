import Preflight.Text.Lowercase
import Preflight.Pattern.Basic

/-!
# Texts up to letter case

`folded` is a text with its ASCII letters in lower case, and texts that differ
in the case of such letters only are those with the same folded text
(`SameUpToCase`).

Folding changes nothing but the 26 capitals (`toLower_eq_or_mem_capitals`), so
what has to be known of it is checked on them: classes and case variants of
characters are the same before and after, and so is the full lower case of a
text (`lowercase_folded`).
-/

namespace Preflight.Text

/-- The text with its ASCII letters in lower case. -/
def folded (text : List Char) : List Char := text.map Char.toLower

/-- The texts differ in the case of ASCII letters only. -/
def SameUpToCase (text other : List Char) : Prop := folded text = folded other

@[simp] theorem folded_nil : folded [] = [] := rfl

@[simp] theorem folded_cons (c : Char) (text : List Char) :
    folded (c :: text) = c.toLower :: folded text :=
  rfl

@[simp] theorem length_folded (text : List Char) :
    (folded text).length = text.length :=
  List.length_map _

/-! ## The capitals -/

/-- The ASCII letters in upper case. -/
def capitals : List Char := (List.range 26).map fun n => Char.ofNat (65 + n)

/-- Only capitals are changed. -/
theorem toLower_eq_or_mem_capitals (c : Char) :
    c.toLower = c ∨ c ∈ capitals := by
  by_cases h : c.val ≥ 'A'.val ∧ c.val ≤ 'Z'.val
  · right
    have hlow : 65 ≤ c.toNat := UInt32.le_iff_toNat_le.mp h.1
    have hhigh : c.toNat ≤ 90 := UInt32.le_iff_toNat_le.mp h.2
    refine List.mem_map.mpr ⟨c.toNat - 65, List.mem_range.mpr (by omega), ?_⟩
    rw [Nat.add_sub_cancel' hlow, Char.ofNat_toNat]
  · exact .inl (dif_neg h)

/-- What a function says of the capitals as of the small letters, it says of
every character as of the folded one. -/
theorem apply_toLower {α : Type} (f : Char → α)
    (h : (capitals.map fun c => f c.toLower) = capitals.map f) (c : Char) :
    f c.toLower = f c := by
  rcases toLower_eq_or_mem_capitals c with heq | hmem
  · rw [heq]
  · exact List.map_inj_left.mp h c hmem

@[simp] theorem toLower_toLower (c : Char) : c.toLower.toLower = c.toLower :=
  apply_toLower Char.toLower (by decide) c

@[simp] theorem folded_folded (text : List Char) :
    folded (folded text) = folded text := by
  simp [folded]

/-- A character that is no letter is met in the folded text where it stood. -/
theorem toLower_eq_iff {d : Char} (hcapital : d ∉ capitals)
    (hsmall : d ∉ capitals.map Char.toLower) (c : Char) :
    c.toLower = d ↔ c = d := by
  rcases toLower_eq_or_mem_capitals c with heq | hmem
  · rw [heq]
  · constructor
    · rintro rfl
      exact absurd (List.mem_map_of_mem hmem) hsmall
    · rintro rfl
      exact absurd hmem hcapital

/-! ## Classes of characters -/

@[simp] theorem isWord_toLower (c : Char) : isWord c.toLower = isWord c :=
  apply_toLower isWord (by decide) c

@[simp] theorem caseVariants_toLower (c : Char) :
    caseVariants c.toLower = caseVariants c :=
  apply_toLower caseVariants (by decide) c

/-- Matching that does not tell cases apart accepts a letter in both cases or
in none. -/
@[simp] theorem accepts_toLower (cls : CharClass) (c : Char) :
    cls.accepts .insensitive c.toLower = cls.accepts .insensitive c := by
  simp only [CharClass.accepts, caseVariants_toLower]

/-! ## Full lower case -/

@[simp] theorem lowerChar_toLower (c : Char) :
    lowerChar c.toLower = lowerChar c :=
  apply_toLower lowerChar (by decide) c

theorem inRanges_casedRanges_toLower (c : Char) :
    inRanges casedRanges c.toLower = inRanges casedRanges c :=
  apply_toLower (inRanges casedRanges) (by decide +kernel) c

theorem inRanges_caseIgnorableRanges_toLower (c : Char) :
    inRanges caseIgnorableRanges c.toLower = inRanges caseIgnorableRanges c :=
  apply_toLower (inRanges caseIgnorableRanges) (by decide +kernel) c

@[simp] theorem meetsCased_folded (text : List Char) :
    meetsCased (folded text) = meetsCased text := by
  induction text with
  | nil => rfl
  | cons c text ih =>
    rw [meetsCased, meetsCased] at ih ⊢
    rw [folded_cons, List.dropWhile_cons, List.dropWhile_cons,
      inRanges_caseIgnorableRanges_toLower]
    by_cases hignorable : inRanges caseIgnorableRanges c = true
    · rw [if_pos hignorable, if_pos hignorable]
      exact ih
    · rw [if_neg hignorable, if_neg hignorable]
      exact inRanges_casedRanges_toLower c

/-- Sigma and the dotted I, which are not lowered like other characters, are no
ASCII letters. -/
theorem toLower_eq_sigma_iff (c : Char) : c.toLower = 'Σ' ↔ c = 'Σ' :=
  toLower_eq_iff (by decide) (by decide) c

theorem toLower_eq_dotted_iff (c : Char) : c.toLower = 'İ' ↔ c = 'İ' :=
  toLower_eq_iff (by decide) (by decide) c

theorem lowerAfter_folded (before text : List Char) :
    lowerAfter (folded before) (folded text) = lowerAfter before text := by
  induction text generalizing before with
  | nil => rfl
  | cons c text ih =>
    have ih := ih (c :: before)
    rw [folded_cons] at ih
    simp only [folded_cons, lowerAfter, ih, toLower_eq_sigma_iff,
      toLower_eq_dotted_iff, meetsCased_folded, lowerChar_toLower]

/-- Lower case does not depend on the case before. -/
@[simp] theorem lowercase_folded (text : List Char) :
    lowercase (folded text) = lowercase text :=
  lowerAfter_folded [] text

end Preflight.Text
