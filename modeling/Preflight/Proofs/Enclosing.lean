import Preflight.Proofs.Choice
import Preflight.Proofs.Pattern.Finds

/-!
# Texts inside of longer ones

What a text shows of a profile it still shows when other text is put before and
behind it, with nothing in between.

* `exists_lowercase_within`: the lower case of the text is found in that of the
  longer one.  Only a capital sigma is lowered by what stands around it, so the
  two may differ in the forms of small sigmas (`SameButSigma`).
* `Matches.within`: a pattern that asks neither for its surroundings nor for the
  form of a sigma matches there, too.  `Signature.Steady` says which signatures
  are of this kind, and all are (`Profile.steady_of_mem_signatures`).
* `Scores.get_ofText_le_within`: no score is lowered.

`DetectionPolicy.detect_within` says what follows for the choice of a profile:
more signs of the chosen one do not change it (`Chooses.of_raised`).
-/

namespace Preflight

namespace Text

/-! ## Lower case within a text -/

/-- The forms of the small sigma. -/
def sigmas : List Char := ['σ', 'ς']

/-- The texts are the same but for the forms of small sigmas. -/
def SameButSigma : List Char → List Char → Prop :=
  List.Forall₂ fun c d => d = c ∨ c ∈ sigmas ∧ d ∈ sigmas

/-- Other text before and behind changes only the forms of sigmas. -/
theorem exists_lowerAfter_append (before otherBefore text after : List Char) :
    ∃ kept, SameButSigma (lowerAfter before text) kept ∧
      lowerAfter otherBefore (text ++ after) =
        kept ++ lowerAfter (text.reverse ++ otherBefore) after := by
  induction text generalizing before otherBefore with
  | nil => exact ⟨[], .nil, rfl⟩
  | cons c text ih =>
    obtain ⟨kept, hkept, hrest⟩ := ih (c :: before) (c :: otherBefore)
    have hplace : (c :: text).reverse ++ otherBefore =
        text.reverse ++ c :: otherBefore := by
      rw [List.reverse_cons, List.append_assoc, List.singleton_append]
    rw [hplace, List.cons_append]
    simp only [lowerAfter, hrest]
    split
    · refine ⟨_ :: kept, .cons (.inr ?_) hkept, rfl⟩
      constructor <;> split <;> decide
    · split
      · exact ⟨_ :: _ :: kept, .cons (.inl rfl) (.cons (.inl rfl) hkept), rfl⟩
      · exact ⟨_ :: kept, .cons (.inl rfl) hkept, rfl⟩

theorem exists_lowercase_within (before text after : List Char) :
    ∃ front kept back, SameButSigma (lowercase text) kept ∧
      lowercase (before ++ text ++ after) = front ++ kept ++ back := by
  obtain ⟨front, -, hfront⟩ :=
    exists_lowerAfter_append [] [] before (text ++ after)
  obtain ⟨kept, hkept, hback⟩ :=
    exists_lowerAfter_append [] (before.reverse ++ []) text after
  have hwide := hfront
  rw [hback, ← List.append_assoc, ← List.append_assoc] at hwide
  exact ⟨front, kept, _, hkept, hwide⟩

/-! ## Literal signatures -/

theorem contains_iff_isInfix {needle text : List Char} :
    contains needle text = true ↔ needle <:+: text := by
  induction text with
  | nil => rw [contains, List.isEmpty_iff, List.infix_nil]
  | cons c text ih =>
    rw [contains, Bool.or_eq_true, List.isPrefixOf_iff_prefix, ih,
      List.infix_cons_iff]

/-- A text without sigmas has no other forms. -/
theorem SameButSigma.eq_of_free {text kept : List Char}
    (h : SameButSigma text kept) (hfree : ∀ c ∈ sigmas, c ∉ text) :
    kept = text := by
  induction h with
  | nil => rfl
  | @cons c d text kept hhead _ ih =>
    have hd : d = c := by
      rcases hhead with hd | ⟨hc, -⟩
      · exact hd
      · exact absurd List.mem_cons_self (hfree c hc)
    rw [hd, ih fun c hc hmem => hfree c hc (List.mem_cons_of_mem _ hmem)]

theorem SameButSigma.split {left right kept : List Char}
    (h : SameButSigma (left ++ right) kept) :
    ∃ first second, kept = first ++ second ∧ SameButSigma left first ∧
      SameButSigma right second := by
  have hfirst := List.forall₂_take left.length h
  have hsecond := List.forall₂_drop left.length h
  rw [List.take_left] at hfirst
  rw [List.drop_left] at hsecond
  exact ⟨_, _, (List.take_append_drop left.length kept).symm, hfirst, hsecond⟩

theorem contains_within {needle text kept : List Char} (front back : List Char)
    (hfree : ∀ c ∈ sigmas, c ∉ needle) (hkept : SameButSigma text kept)
    (h : contains needle text = true) :
    contains needle (front ++ kept ++ back) = true := by
  rw [contains_iff_isInfix] at h ⊢
  obtain ⟨skipped, rest, rfl⟩ := h
  obtain ⟨first, last, rfl, hfirst, -⟩ := hkept.split
  obtain ⟨skipped', needle', rfl, -, hneedle⟩ := hfirst.split
  rw [hneedle.eq_of_free hfree]
  exact ⟨front ++ skipped', last ++ back, by simp only [List.append_assoc]⟩

end Text

/-! ## Signatures that are patterns -/

/-- The other place has in front of it, before `back`, the text of the first one but
for the forms of sigmas. -/
def Place.FollowedIn (back : List Char) (p other : Place) : Prop :=
  ∃ kept, Text.SameButSigma p.rest kept ∧ other.rest = kept ++ back

namespace Pattern

/-- The pattern asks neither for its surroundings nor for the form of a sigma. -/
def steady (casing : Casing) : Pattern → Bool
  | empty => true
  | one cls | run cls => cls.accepts casing 'σ' == cls.accepts casing 'ς'
  | wordBoundary | textStart | lineStart => false
  | seq first second | alt first second =>
    first.steady casing && second.steady casing
  | star body | group _ body => body.steady casing

variable {casing : Casing} {back : List Char}

/-- A class without preference for a form of sigma takes the same step at both
places. -/
theorem exists_step?_within {cls : CharClass} {p q other : Place}
    (hcls : cls.accepts casing 'σ' = cls.accepts casing 'ς')
    (hother : p.FollowedIn back other)
    (h : p.step? (cls.accepts casing) = Option.some q) :
    ∃ q', other.step? (cls.accepts casing) = Option.some q' ∧
      q.FollowedIn back q' := by
  obtain ⟨kept, hkept, hrest⟩ := hother
  obtain ⟨c, hc, hleads, -⟩ := Place.Leads.of_step? h
  rw [hleads.rest, List.singleton_append] at hkept
  cases hkept with
  | @cons _ d _ kept hd hkept =>
    have haccepts : cls.accepts casing d = true := by
      rcases hd with rfl | ⟨hcs, hds⟩
      · exact hc
      · simp only [Text.sigmas, List.mem_cons, List.not_mem_nil, or_false]
          at hcs hds
        rcases hcs with rfl | rfl <;> rcases hds with rfl | rfl <;> simp_all
    refine ⟨⟨Option.some d, kept ++ back, other.offset + 1, other.groups⟩, ?_,
      kept, hkept, rfl⟩
    rw [Place.step?, hrest, List.cons_append]
    exact if_pos haccepts

theorem Matches.within {pattern : Pattern} {p q other : Place}
    (h : Matches casing pattern p q) (hpattern : pattern.steady casing = true)
    (hother : p.FollowedIn back other) :
    ∃ q', Matches casing pattern other q' ∧ q.FollowedIn back q' := by
  induction h generalizing other with
  | empty p => exact ⟨other, .empty _, hother⟩
  | one h =>
    obtain ⟨q', hstep, hq⟩ := exists_step?_within (eq_of_beq hpattern) hother h
    exact ⟨q', .one hstep, hq⟩
  | runStop p => exact ⟨other, .runStop _, hother⟩
  | runStep h _ ih =>
    obtain ⟨q', hstep, hq⟩ := exists_step?_within (eq_of_beq hpattern) hother h
    obtain ⟨r', hrun, hr⟩ := ih hpattern hq
    exact ⟨r', .runStep hstep hrun, hr⟩
  | wordBoundary | textStart | lineStart => cases hpattern
  | seq _ _ ihLeft ihRight =>
    obtain ⟨hfirst, hsecond⟩ := Bool.and_eq_true_iff.mp hpattern
    obtain ⟨q', hleft, hq⟩ := ihLeft hfirst hother
    obtain ⟨r', hright, hr⟩ := ihRight hsecond hq
    exact ⟨r', .seq hleft hright, hr⟩
  | altFirst _ ih =>
    obtain ⟨q', h, hq⟩ := ih (Bool.and_eq_true_iff.mp hpattern).1 hother
    exact ⟨q', .altFirst h, hq⟩
  | altSecond _ ih =>
    obtain ⟨q', h, hq⟩ := ih (Bool.and_eq_true_iff.mp hpattern).2 hother
    exact ⟨q', .altSecond h, hq⟩
  | starStop p => exact ⟨other, .starStop _, hother⟩
  | starStep _ _ ihOnce ihRest =>
    obtain ⟨q', honce, hq⟩ := ihOnce hpattern hother
    obtain ⟨r', hrest, hr⟩ := ihRest hpattern hq
    exact ⟨r', .starStep honce hrest, hr⟩
  | group _ ih =>
    obtain ⟨q', h, hq⟩ := ih hpattern hother
    exact ⟨_, .group h, hq⟩

/-- What occurs in a text occurs where the text is part of a longer one. -/
theorem occursIn_within {pattern : Pattern} {text kept : List Char}
    (front back : List Char) (hpattern : pattern.steady casing = true)
    (hkept : Text.SameButSigma text kept)
    (h : pattern.occursIn casing text = true) :
    pattern.occursIn casing (front ++ kept ++ back) = true := by
  obtain ⟨skipped, piece, rest, rfl, q, -, hmatches⟩ := occursIn_iff.mp h
  obtain ⟨skipped', kept', rfl, -, hkept'⟩ := hkept.split
  have hother : (Place.between skipped (piece ++ rest)).FollowedIn back
      (.between (front ++ skipped') (kept' ++ back)) := ⟨kept', hkept', rfl⟩
  obtain ⟨q', hwide, -⟩ := hmatches.within hpattern hother
  obtain ⟨piece', hpiece, hfinds⟩ := hwide.finds
  refine occursIn_iff.mpr ⟨front ++ skipped', piece', q'.rest, ?_, hfinds⟩
  rw [← hpiece]
  simp only [List.append_assoc]

end Pattern

/-! ## Scores -/

/-- The signature asks neither for its surroundings nor for the form of a
sigma. -/
def Signature.Steady : Signature → Prop
  | literal s => ∀ c ∈ Text.sigmas, c ∉ s.toList
  | pattern p => p.steady .insensitive = true

instance : DecidablePred Signature.Steady
  | .literal s => List.decidableBAll (fun c => c ∉ s.toList) Text.sigmas
  | .pattern p => inferInstanceAs (Decidable (p.steady .insensitive = true))

theorem Signature.Steady.occursIn_within {signature : Signature}
    {text kept : List Char} (front back : List Char) (h : signature.Steady)
    (hkept : Text.SameButSigma text kept)
    (hoccurs : signature.occursIn text = true) :
    signature.occursIn (front ++ kept ++ back) = true := by
  cases signature with
  | literal s => exact Text.contains_within front back h hkept hoccurs
  | pattern p => exact Pattern.occursIn_within front back h hkept hoccurs

theorem Profile.steady_of_mem_signatures (p : Profile) :
    ∀ signature ∈ p.signatures, signature.Steady := by
  cases p <;> decide

/-- A score counts the signatures that occur. -/
theorem Scores.get_ofText (text : List Char) (p : Profile) :
    (ofText text).get p =
      p.signatures.countP (·.occursIn (Text.lowercase text)) := by
  cases p <;> rfl

/-- Text before and behind lowers no score. -/
theorem Scores.get_ofText_le_within (before text after : List Char)
    (p : Profile) :
    (ofText text).get p ≤ (ofText (before ++ text ++ after)).get p := by
  obtain ⟨front, kept, back, hkept, hlower⟩ :=
    Text.exists_lowercase_within before text after
  rw [get_ofText, get_ofText, hlower]
  refine List.countP_mono_left fun signature hmem hoccurs => ?_
  exact (p.steady_of_mem_signatures signature hmem).occursIn_within front back
    hkept hoccurs

/-! ## The choice of a profile -/

namespace DetectionPolicy

variable {policy : DetectionPolicy} {scores raised : Scores} {p : Profile}

/-- A profile stays the one to choose when its own score rises. -/
theorem Chooses.of_raised (h : policy.Chooses scores p)
    (hraised : scores.get p ≤ raised.get p)
    (hothers : ∀ q, q ≠ p → raised.get q = scores.get q) :
    policy.Chooses raised p :=
  h.of_favoured hraised fun q hq => Nat.le_of_eq (hothers q hq)

/-- Text before and behind lowers no score, and if it raises none but that of the
chosen profile, the same profile is chosen. -/
theorem detect_within (policy : DetectionPolicy) (before text after : List Char) :
    let narrow := policy.detect text
    let wide := policy.detect (before ++ text ++ after)
    (∀ q, narrow.scores.get q ≤ wide.scores.get q) ∧
      ∀ p, narrow.profile = some p →
        (∀ q, q ≠ p → wide.scores.get q = narrow.scores.get q) →
        wide.profile = some p := by
  intro narrow wide
  have hscores (q : Profile) : narrow.scores.get q ≤ wide.scores.get q :=
    Scores.get_ofText_le_within before text after q
  refine ⟨hscores, fun p hprofile hothers => ?_⟩
  have hchosen : policy.Chooses narrow.scores p := decide_eq_some_iff.mp hprofile
  exact decide_eq_some_iff.mpr (hchosen.of_raised (hscores p) hothers)

/-- A path that is completed behind the text: its capital sigma ends a word there and
none here.  The policy lists one profile twice and the chosen one not at all. -/
theorem detect_within_of_sigma :
    let policy : DetectionPolicy := ⟨1, [.connect, .connect]⟩
    let text := "MSIEXEC; Test-Path ΑΣ".toList
    let narrow := policy.detect text
    let wide := policy.detect ("# ".toList ++ text ++ ".EXE".toList)
    narrow.profile = some .deploy ∧
      (∀ q, q ≠ .deploy → wide.scores.get q = narrow.scores.get q) ∧
      wide.profile = some .deploy := by
  intro policy text narrow wide
  have hnarrow : narrow = ⟨some .deploy, ⟨0, 1, 0⟩⟩ := by decide +kernel
  have hwide : wide.scores = ⟨0, 2, 0⟩ := by decide +kernel
  have hprofile : narrow.profile = some .deploy := by rw [hnarrow]
  have hothers (q : Profile) (hq : q ≠ .deploy) :
      wide.scores.get q = narrow.scores.get q := by
    rw [hwide, hnarrow]
    cases q with
    | deploy => exact absurd rfl hq
    | inventory | connect => rfl
  have h := detect_within policy "# ".toList text ".EXE".toList
  exact ⟨hprofile, hothers, h.2 .deploy hprofile hothers⟩

end DetectionPolicy

end Preflight
