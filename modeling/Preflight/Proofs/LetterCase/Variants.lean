import Preflight.Proofs.LetterCase.Text

/-!
# Characters that differ in case

`simpleFold` is simple case folding as far as it meets ASCII letters.  Case
variants of a character are the characters with the same folding
(`mem_caseVariants_iff`), so matching without regard to case compares foldings
(`accepts_just_iff`).

Only 54 characters have case variants besides themselves, the
`casedLetters`.  A class that holds none of them is not affected by letter case
(`accepts_eq_of_caseless`).
-/

namespace Preflight.Text

/-- The simple case folding of a character.  Capitals become small letters, and
of the other characters only the long s and the Kelvin sign become ASCII
letters. -/
def simpleFold (c : Char) : Char :=
  if c = 'ſ' then 's' else if c = '\u212A' then 'k' else c.toLower

/-- The characters with case variants besides themselves. -/
def casedLetters : List Char :=
  capitals ++ capitals.map Char.toLower ++ ['ſ', '\u212A']

theorem mem_casedLetters_of_isAlpha {c : Char} (h : c.isAlpha = true) :
    c ∈ casedLetters := by
  refine List.mem_append_left _ (List.mem_append.mpr ?_)
  -- A letter is the capital or the small letter of its number.
  have hnumber (start : Nat) (hlow : start ≤ c.toNat)
      (hhigh : c.toNat < start + 26) :
      ∃ n ∈ List.range 26, Char.ofNat (start + n) = c := by
    refine ⟨c.toNat - start, List.mem_range.mpr (by omega), ?_⟩
    rw [Nat.add_sub_cancel' hlow, Char.ofNat_toNat]
  have h : c.isUpper = true ∨ c.isLower = true := Bool.or_eq_true_iff.mp h
  rcases h with hupper | hlower
  · obtain ⟨hlow, hhigh⟩ : c.val ≥ 'A'.val ∧ c.val ≤ 'Z'.val :=
      of_decide_eq_true hupper
    have hlow : 65 ≤ c.toNat := UInt32.le_iff_toNat_le.mp hlow
    have hhigh : c.toNat ≤ 90 := UInt32.le_iff_toNat_le.mp hhigh
    obtain ⟨n, hn, rfl⟩ := hnumber 65 hlow (by omega)
    exact .inl (List.mem_map_of_mem hn)
  · obtain ⟨hlow, hhigh⟩ := Bool.and_eq_true_iff.mp hlower
    have hlow : 97 ≤ c.toNat :=
      UInt32.le_iff_toNat_le.mp (of_decide_eq_true hlow)
    have hhigh : c.toNat ≤ 122 :=
      UInt32.le_iff_toNat_le.mp (of_decide_eq_true hhigh)
    obtain ⟨n, hn, rfl⟩ := hnumber 97 hlow (by omega)
    have hsmall : ∀ n ∈ List.range 26,
        Char.ofNat (97 + n) ∈ capitals.map Char.toLower := by decide
    exact .inr (hsmall n hn)

/-- All other characters are their only variant. -/
theorem caseVariants_of_notMem {c : Char} (h : c ∉ casedLetters) :
    caseVariants c = [c] := by
  rw [caseVariants, if_neg, if_neg, if_neg]
  · exact fun halpha => h (mem_casedLetters_of_isAlpha halpha)
  · rintro (rfl | rfl | rfl) <;> exact h (by decide)
  · rintro (rfl | rfl | rfl) <;> exact h (by decide)

theorem mem_caseVariants_self (c : Char) : c ∈ caseVariants c := by
  by_cases h : c ∈ casedLetters
  · -- Tested over the list: `∀` might be decided over all characters there are.
    have hself : casedLetters.all (fun c => c ∈ caseVariants c) = true := by
      decide
    exact of_decide_eq_true (List.all_eq_true.mp hself c h)
  · rw [caseVariants_of_notMem h]
    exact List.mem_singleton_self c

theorem caseVariants_simpleFold (c : Char) :
    caseVariants (simpleFold c) = caseVariants c := by
  rw [simpleFold]
  split
  · rename_i h
    rw [h]
    decide
  · split
    · rename_i h
      rw [h]
      decide
    · exact caseVariants_toLower c

/-- Case variants are the characters with the same folding. -/
theorem mem_caseVariants_iff {c d : Char} :
    d ∈ caseVariants c ↔ simpleFold d = simpleFold c := by
  constructor
  · intro h
    by_cases hc : c ∈ casedLetters
    · have hfold : casedLetters.all (fun c =>
          (caseVariants c).all (simpleFold · = simpleFold c)) = true := by decide
      exact of_decide_eq_true
        (List.all_eq_true.mp (List.all_eq_true.mp hfold c hc) d h)
    · rw [caseVariants_of_notMem hc, List.mem_singleton] at h
      rw [h]
  · intro h
    rw [← caseVariants_simpleFold c, ← h, caseVariants_simpleFold]
    exact mem_caseVariants_self d

/-! ## Classes -/

/-- A single character is matched by those with the same folding. -/
theorem accepts_just_iff {c d : Char} :
    (CharClass.just c).accepts .insensitive d = true ↔
      simpleFold d = simpleFold c := by
  rw [← mem_caseVariants_iff.trans eq_comm]
  simp [CharClass.accepts, CharClass.just, ClassItem.holds]

/-- A character without case variants is matched by itself only. -/
theorem accepts_just_iff_eq {c d : Char} (h : c ∉ casedLetters) :
    (CharClass.just c).accepts .insensitive d = true ↔ d = c := by
  rw [accepts_just_iff, ← mem_caseVariants_iff, caseVariants_of_notMem h,
    List.mem_singleton]

/-- No item of the class holds a character that has case variants. -/
def Caseless (cls : CharClass) : Prop :=
  ∀ c ∈ casedLetters, cls.items.any (·.holds c) = false

instance (cls : CharClass) : Decidable (Caseless cls) :=
  List.decidableBAll _ _

/-- Such a class accepts the same characters with and without regard to
case. -/
theorem accepts_eq_of_caseless {cls : CharClass} (h : Caseless cls) (c : Char) :
    cls.accepts .insensitive c = cls.accepts .sensitive c := by
  by_cases hc : c ∈ casedLetters
  · have hvariants : casedLetters.all (fun c =>
        (caseVariants c).all (· ∈ casedLetters)) = true := by decide
    have hnone : (caseVariants c).any (fun d => cls.items.any (·.holds d)) =
        false := by
      rw [List.any_eq_false]
      intro d hd
      have hd := List.all_eq_true.mp (List.all_eq_true.mp hvariants c hc) d hd
      rw [h d (of_decide_eq_true hd)]
      exact Bool.false_ne_true
    simp only [CharClass.accepts, hnone, List.any_cons, List.any_nil,
      Bool.or_false, h c hc]
  · simp only [CharClass.accepts, caseVariants_of_notMem hc]

@[simp] theorem accepts_space_iff {c : Char} :
    CharClass.space.accepts .insensitive c = true ↔ isSpace c = true := by
  rw [accepts_eq_of_caseless (by decide)]
  simp [CharClass.accepts, CharClass.space, ClassItem.holds]

/-- A class of some caseless characters. -/
theorem accepts_anyOf_iff {s : String} (h : Caseless (.anyOf s)) {c : Char} :
    (CharClass.anyOf s).accepts .insensitive c = true ↔ c ∈ s.toList := by
  rw [accepts_eq_of_caseless h]
  simp [CharClass.accepts, CharClass.anyOf, ClassItem.holds]

/-- The class of all characters but some caseless ones. -/
theorem accepts_noneOf_iff {s : String} (h : Caseless (.noneOf s)) {c : Char} :
    (CharClass.noneOf s).accepts .insensitive c = true ↔ c ∉ s.toList := by
  rw [accepts_eq_of_caseless h]
  simp [CharClass.accepts, CharClass.noneOf, ClassItem.holds, List.forall_mem_ne]

end Preflight.Text
