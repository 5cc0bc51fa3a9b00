import Preflight.Checks.PowerShell
import Preflight.Proofs.Enclosing
import Preflight.Proofs.Secrets

/-!
# Words in any case

`Reads` and `Holds` say that a text is a word, or holds one, when the case of ASCII
letters does not matter.  Scripts are searched for words in two ways, and both come
down to this:

* `spells_iff_reads`: simple case folding, which patterns go by, finds the same
  words.  Words with an `s` or a `k` are left out, because it takes the long s and
  the Kelvin sign for these letters.
* `mentions_iff`: a word is looked up in the full lower case of a text.  It is not
  found there unless the text holds it, if none of its letters comes from the
  lower case of a character beyond ASCII (`Settled`).
-/

namespace Preflight

namespace Text

variable {word : String} {text more needle : List Char} {c d : Char}

/-- The text is the word, with each letter in either case. -/
def Reads (word : String) (text : List Char) : Prop :=
  folded text = folded word.toList

/-- The word stands in the text, in any case. -/
def Holds (word : String) (text : List Char) : Prop :=
  folded word.toList <:+: folded text

instance (word : String) (text : List Char) : Decidable (Reads word text) :=
  inferInstanceAs (Decidable (_ = _))

instance (word : String) (text : List Char) : Decidable (Holds word text) :=
  decidable_of_iff (contains (folded word.toList) (folded text) = true)
    contains_iff_isInfix

theorem folded_append (text more : List Char) :
    folded (text ++ more) = folded text ++ folded more :=
  List.map_append

theorem mem_folded (h : c ∈ text) : c.toLower ∈ folded text :=
  List.mem_map_of_mem h

theorem Reads.length (h : Reads word text) : text.length = word.toList.length := by
  rw [← length_folded text, h, length_folded]

theorem Reads.holds (h : Reads word text) (front back : List Char) :
    Holds word (front ++ (text ++ back)) := by
  rw [Holds, folded_append, folded_append, h]
  exact ⟨_, _, List.append_assoc _ _ _⟩

/-! ## Texts without a word -/

/-- A text without some letter of the word does not hold the word. -/
theorem not_holds_of_lacks (hword : c ∈ folded word.toList)
    (htext : c ∉ folded text) : ¬Holds word text :=
  fun h => htext (h.subset hword)

/-- A word does not stand across a character that is no letter of it. -/
theorem holds_append_cons (hc : c.toLower ∉ folded word.toList)
    (h : Holds word (text ++ c :: more)) : Holds word text ∨ Holds word more := by
  rw [Holds, folded_append, folded_cons, List.infix_append_iff] at h
  rcases h with h | h | ⟨left, right, hsplit, hleft, hright⟩
  · exact .inl h
  · rcases List.infix_cons_iff.mp h with hstart | hlater
    · rcases List.prefix_cons_iff.mp hstart with hnil | ⟨tail, hcons, -⟩
      · right
        rw [Holds, hnil]
        exact List.nil_infix
      · exact absurd (hcons ▸ List.mem_cons_self) hc
    · exact .inr hlater
  · rcases List.prefix_cons_iff.mp hright with rfl | ⟨tail, rfl, -⟩
    · left
      rw [Holds, hsplit, List.append_nil]
      exact hleft.isInfix
    · refine absurd ?_ hc
      rw [hsplit]
      exact List.mem_append_right _ List.mem_cons_self

/-! ## White space -/

/-- The code points of white space. -/
def spaceCodes : List Nat :=
  [0x9, 0xA, 0xB, 0xC, 0xD, 0x20, 0x85, 0xA0, 0x1680, 0x2000, 0x2001, 0x2002,
    0x2003, 0x2004, 0x2005, 0x2006, 0x2007, 0x2008, 0x2009, 0x200A, 0x2028, 0x2029,
    0x202F, 0x205F, 0x3000]

theorem toNat_mem_spaceCodes (h : isSpace c = true) : c.toNat ∈ spaceCodes := by
  simp only [isSpace, Bool.or_eq_true, Bool.and_eq_true, decide_eq_true_eq,
    beq_iff_eq] at h
  simp only [spaceCodes, List.mem_cons, List.not_mem_nil, or_false]
  omega

/-- White space separates words. -/
theorem isWord_of_isSpace (h : isSpace c = true) : isWord c = false := by
  have hcodes : ∀ n ∈ spaceCodes, isWord (Char.ofNat n) = false := by
    decide +kernel
  have hc := hcodes c.toNat (toNat_mem_spaceCodes h)
  rwa [Char.ofNat_toNat] at hc

@[simp] theorem isSpace_toLower (c : Char) : isSpace c.toLower = isSpace c :=
  apply_toLower isSpace (by decide) c

theorem Blank.isSpace_of_mem_folded (h : Blank text) (hc : c ∈ folded text) :
    isSpace c = true := by
  obtain ⟨d, hd, rfl⟩ := List.mem_map.mp hc
  rw [isSpace_toLower]
  exact h d hd

/-- The word is not empty and holds no white space. -/
def Unbroken (word : String) : Prop :=
  folded word.toList ≠ [] ∧ ∀ c ∈ folded word.toList, isSpace c = false

instance (word : String) : Decidable (Unbroken word) :=
  @instDecidableAnd _ _ inferInstance (List.decidableBAll _ _)

theorem Unbroken.notMem_of_isSpace (h : Unbroken word) (hc : isSpace c = true) :
    c.toLower ∉ folded word.toList := by
  intro hmem
  have hspace := h.2 _ hmem
  rw [isSpace_toLower, hc] at hspace
  cases hspace

theorem Unbroken.not_holds (h : Unbroken word) (hblank : Blank text) :
    ¬Holds word text := by
  obtain ⟨c, hc⟩ := List.exists_mem_of_ne_nil _ h.1
  refine not_holds_of_lacks hc fun hmem => ?_
  have hspace := h.2 c hc
  rw [hblank.isSpace_of_mem_folded hmem] at hspace
  cases hspace

theorem blank_append_iff : Blank (text ++ more) ↔ Blank text ∧ Blank more :=
  List.forall_mem_append

/-! ## Case variants of words -/

/-- No letter of the word has case variants beyond ASCII. -/
def TwoCased (word : String) : Prop :=
  ∀ c ∈ word.toList, simpleFold c ≠ 's' ∧ simpleFold c ≠ 'k'

instance (word : String) : Decidable (TwoCased word) :=
  List.decidableBAll _ _

/-- Except for `s` and `k`, simple case folding relates what lower case relates. -/
theorem simpleFold_eq_iff (h : simpleFold d ≠ 's' ∧ simpleFold d ≠ 'k') :
    simpleFold c = simpleFold d ↔ c.toLower = d.toLower := by
  have hplain {c : Char} (hs : simpleFold c ≠ 's') (hk : simpleFold c ≠ 'k') :
      simpleFold c = c.toLower := by
    unfold simpleFold at hs hk ⊢
    split
    · rename_i hc
      exact absurd (if_pos hc) hs
    · split
      · rename_i hlong hc
        rw [if_neg hlong, if_pos hc] at hk
        exact absurd rfl hk
      · rfl
  constructor
  · intro heq
    rw [← hplain h.1 h.2, ← heq]
    exact (hplain (heq ▸ h.1) (heq ▸ h.2)).symm
  · intro heq
    have hfold {c : Char} : simpleFold c.toLower = simpleFold c :=
      apply_toLower simpleFold (by decide) c
    rw [← hfold, heq, hfold]

theorem spells_iff_reads (h : TwoCased word) : Spells word text ↔ Reads word text := by
  unfold Spells Reads folded
  unfold TwoCased at h
  generalize word.toList = letters at h ⊢
  induction letters generalizing text with
  | nil => rw [List.map_nil, List.map_nil, List.map_eq_nil_iff, List.map_eq_nil_iff]
  | cons d letters ih =>
    obtain ⟨hd, hletters⟩ := List.forall_mem_cons.mp h
    cases text with
    | nil => exact iff_of_false (List.cons_ne_nil _ _).symm (List.cons_ne_nil _ _).symm
    | cons c text =>
      rw [List.map_cons, List.map_cons, List.map_cons, List.map_cons,
        List.cons.injEq, List.cons.injEq, simpleFold_eq_iff hd, ih hletters]

/-! ## Words in the lower case of a text -/

/-- A character comes to be this one only in the way of ASCII letters. -/
def SettledLetter (c : Char) : Prop :=
  0 < c.toNat ∧ c.toNat < 0x80 ∧ c ≠ 'k'

/-- All of the needle's letters are settled, and it does not stop in front of the
dot that a capital I with a dot leaves. -/
def Settled (needle : List Char) : Prop :=
  (∀ c ∈ needle, SettledLetter c) ∧ needle.getLast? ≠ some 'i'

instance (c : Char) : Decidable (SettledLetter c) :=
  inferInstanceAs (Decidable (_ ∧ _))

instance (needle : List Char) : Decidable (Settled needle) :=
  @instDecidableAnd _ _ (List.decidableBAll _ _) inferInstance

theorem toLower_eq_self_of_beyond (hc : ¬c.toNat < 0x80) : c.toLower = c := by
  rcases toLower_eq_or_mem_capitals c with heq | hmem
  · exact heq
  · have hlow : ∀ c ∈ capitals, c.toNat < 0x80 := by
      simp only [List.forall_iff_forall_mem.symm]
      decide
    exact absurd (hlow c hmem) hc

/-- Of the characters beyond ASCII, only the Kelvin sign is lowered to a letter of
ASCII. -/
theorem lowerChar_eq_iff (hd : SettledLetter d) : lowerChar c = d ↔ c.toLower = d := by
  obtain ⟨hpos, hlow, hk⟩ := hd
  have hruns : ∀ run ∈ lowerRuns, 0x80 ≤ run.first + run.offset ∨
      run.first = 0x212A ∧ run.last = 0x212A ∧ run.offset = -8383 := by
    decide +kernel
  rw [lowerChar]
  split
  · rfl
  rename_i hhigh
  have hc : c.toLower ≠ d := by
    rw [toLower_eq_self_of_beyond hhigh]
    exact fun heq => hhigh (heq ▸ hlow)
  refine iff_of_false ?_ hc
  split
  · rename_i run hrun
    have hfirst := List.find?_some hrun
    simp only [Bool.and_eq_true, decide_eq_true_eq] at hfirst
    rcases hruns run (List.mem_of_find?_eq_some hrun)
      with hbeyond | ⟨hstart, hend, hoffset⟩
    · intro heq
      by_cases hvalid : (c.toNat + run.offset).toNat.isValidChar
      · have hchar : Char.ofNatAux _ hvalid = d := (dif_pos hvalid).symm.trans heq
        have hcode : (c.toNat + run.offset).toNat = d.toNat := congrArg Char.toNat hchar
        omega
      · have hnull : '\x00' = d := (dif_neg hvalid).symm.trans heq
        rw [← hnull] at hpos
        exact absurd hpos (by decide)
    · have hcode : (c.toNat + run.offset).toNat = 0x6B := by omega
      rw [hcode]
      exact fun heq => hk heq.symm
  · rwa [toLower_eq_self_of_beyond hhigh] at hc

theorem Settled.tail (h : Settled (d :: needle)) : Settled needle := by
  obtain ⟨hletters, hlast⟩ := h
  refine ⟨fun c hc => hletters c (List.mem_cons_of_mem d hc), ?_⟩
  cases needle with
  | nil => exact nofun
  | cons c needle => rwa [List.getLast?_cons_cons] at hlast

/-- A needle at the start of the lower case stands at the start of the text. -/
theorem prefix_lowerAfter_iff (h : Settled needle) (before text : List Char) :
    needle <+: lowerAfter before text ↔ needle <+: folded text := by
  induction text generalizing before needle with
  | nil => rfl
  | cons c text ih =>
    cases needle with
    | nil => exact iff_of_true List.nil_prefix List.nil_prefix
    | cons d needle =>
      have hd := h.1 d List.mem_cons_self
      have hbeyond {e : Char} (he : ¬e.toNat < 0x80) : d ≠ e :=
        fun heq => he (heq ▸ hd.2.1)
      rw [lowerAfter, folded_cons, List.cons_prefix_cons]
      split
      · rename_i hc
        rw [hc, List.cons_prefix_cons]
        refine iff_of_false (fun hlower => ?_) (fun hfolded => ?_)
        · refine absurd hlower.1 ?_
          split
          · exact hbeyond (by decide)
          · exact hbeyond (by decide)
        · exact absurd hfolded.1 (hbeyond (by decide))
      split
      · rename_i hc
        rw [hc, List.cons_prefix_cons]
        refine iff_of_false (fun hlower => ?_) (fun hfolded => ?_)
        · -- Behind the `i` the needle would have to go on with the dot.
          obtain ⟨hi, hdot⟩ := hlower
          cases needle with
          | nil => exact h.2 (congrArg some hi)
          | cons e needle =>
            have he := h.1 e (List.mem_cons_of_mem d List.mem_cons_self)
            obtain ⟨rfl, -⟩ := List.cons_prefix_cons.mp hdot
            exact absurd he.2.1 (by decide)
        · exact absurd hfolded.1 (hbeyond (by decide))
      · rw [List.cons_prefix_cons, ih h.tail, eq_comm, lowerChar_eq_iff hd, eq_comm]

theorem infix_lowerAfter_iff (h : Settled needle) (hne : needle ≠ [])
    (before text : List Char) :
    needle <:+: lowerAfter before text ↔ needle <:+: folded text := by
  induction text generalizing before with
  | nil => rfl
  | cons c text ih =>
    have hstart := prefix_lowerAfter_iff h before (c :: text)
    rw [lowerAfter, folded_cons] at hstart ⊢
    rw [@List.infix_cons_iff _ needle c.toLower, ← hstart, ← ih (c :: before)]
    split
    · exact List.infix_cons_iff
    split
    · -- No needle starts with the dot.
      have hdot : ¬needle <+: '\u0307' :: lowerAfter (c :: before) text := by
        intro hprefix
        rcases List.prefix_cons_iff.mp hprefix with hnil | ⟨tail, rfl, -⟩
        · exact hne hnil
        · exact absurd (h.1 _ List.mem_cons_self).2.1 (by decide)
      rw [List.infix_cons_iff, List.infix_cons_iff]
      exact or_congr_right (or_iff_right hdot)
    · exact List.infix_cons_iff

/-! ## Whole words -/

/-- The text does not end with a word character. -/
def EndsClear (text : List Char) : Prop := ∀ c ∈ text.getLast?, isWord c = false

theorem endsClear_nil : EndsClear [] := by
  intro c hc
  cases hc

/-- The text does not start with a word character. -/
def StartsClear (text : List Char) : Prop := ∀ c ∈ text.head?, isWord c = false

/-- The word stands in the text by itself: no word character touches it. -/
def HoldsApart (word : String) (text : List Char) : Prop :=
  ∃ front piece back, text = front ++ (piece ++ back) ∧ Reads word piece ∧
    EndsClear front ∧ StartsClear back

/-- The word starts and ends with word characters. -/
def Wordy (word : String) : Prop :=
  word.toList.head?.any isWord = true ∧ word.toList.getLast?.any isWord = true

instance (word : String) : Decidable (Wordy word) :=
  inferInstanceAs (Decidable (_ ∧ _))

theorem any_isWord_map_toLower (c : Option Char) :
    (c.map Char.toLower).any isWord = c.any isWord := by
  cases c with
  | none => rfl
  | some c => exact isWord_toLower c

theorem any_isWord_eq_false_iff {c : Option Char} :
    c.any isWord = false ↔ ∀ d ∈ c, isWord d = false := by
  rw [Option.any_eq_false]
  simp

theorem Reads.wordy (h : Reads word text) (hword : Wordy word) :
    text.head?.any isWord = true ∧ text.getLast?.any isWord = true := by
  obtain ⟨hhead, hlast⟩ := hword
  constructor
  · rw [← any_isWord_map_toLower, ← List.head?_map] at hhead ⊢
    exact (congrArg (·.head?.any isWord) h).trans hhead
  · rw [← any_isWord_map_toLower, ← List.getLast?_map] at hlast ⊢
    exact (congrArg (·.getLast?.any isWord) h).trans hlast

end Text

open Text

namespace Checks

/-- Looking up a word in the lower case of a text means looking for it in any
case. -/
theorem mentions_iff {text : List Char} {word : String}
    (hlower : lowercase word.toList = folded word.toList)
    (hsettled : Settled (folded word.toList)) (hne : folded word.toList ≠ []) :
    mentions text word = true ↔ Holds word text := by
  rw [mentions, contains_iff_isInfix, hlower, lowercase,
    infix_lowerAfter_iff hsettled hne, Holds]

end Checks

end Preflight
