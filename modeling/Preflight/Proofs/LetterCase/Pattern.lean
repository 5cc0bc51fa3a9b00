import Preflight.Pattern.Search
import Preflight.Proofs.LetterCase.Text

/-!
# Patterns that do not tell cases apart

Matching without regard to case goes the same way through a text and through
the folded text.

* `ends_folded`: at every place, the matches that start there end at the same
  places in the same order.
* `findAll_folded`: a search finds the same matches, with the same groups.

Whether a pattern occurs, how often, which captures and which bodies follow is
read off these two.
-/

namespace Preflight

open Text

/-! ## Matching at a place -/

/-- The same place in the folded text. -/
def Place.folded (p : Place) : Place :=
  { p with before := p.before.map Char.toLower, rest := Text.folded p.rest }

@[simp] theorem Place.folded_rest (p : Place) :
    p.folded.rest = Text.folded p.rest :=
  rfl

@[simp] theorem Place.folded_offset (p : Place) : p.folded.offset = p.offset :=
  rfl

theorem Place.step?_folded {ok : Char → Bool} (hok : ∀ c, ok c.toLower = ok c)
    (p : Place) : p.folded.step? ok = (p.step? ok).map Place.folded := by
  obtain ⟨before, rest, offset, groups⟩ := p
  cases rest with
  | nil => rfl
  | cons c cs =>
    simp only [Place.step?, Place.folded, folded_cons, hok]
    by_cases hc : ok c = true
    · simp [hc, Place.folded]
    · simp [hc]

@[simp] theorem Place.atWordBoundary_folded (p : Place) :
    p.folded.atWordBoundary = p.atWordBoundary := by
  obtain ⟨before, rest, offset, groups⟩ := p
  cases before <;> cases rest <;> simp [Place.atWordBoundary, Place.folded]

@[simp] theorem Place.atLineStart_folded (p : Place) :
    p.folded.atLineStart = p.atLineStart := by
  have hbreak (c : Char) : (c.toLower == '\n') = (c == '\n') := by
    rw [Bool.eq_iff_iff, beq_iff_eq, beq_iff_eq]
    exact toLower_eq_iff (by decide) (by decide) c
  obtain ⟨before, rest, offset, groups⟩ := p
  cases before <;> simp [Place.atLineStart, Place.folded, hbreak]

theorem runEnds_folded {ok : Char → Bool} (hok : ∀ c, ok c.toLower = ok c)
    (before : Option Char) (offset : Nat) (groups : List Group)
    (found : List Place) (rest : List Char) :
    runEnds ok (before.map Char.toLower) offset groups
        (found.map Place.folded) (Text.folded rest) =
      (runEnds ok before offset groups found rest).map Place.folded := by
  induction rest generalizing before offset found with
  | nil => rfl
  | cons c cs ih =>
    rw [folded_cons, runEnds, runEnds, hok]
    by_cases hc : ok c = true
    · rw [if_pos hc, if_pos hc]
      exact ih (some c) (offset + 1) (⟨before, c :: cs, offset, groups⟩ :: found)
    · rw [if_neg hc, if_neg hc]
      rfl

theorem firstPerOffset_folded (seen : Nat) (places : List Place) :
    firstPerOffset seen (places.map Place.folded) =
      (firstPerOffset seen places).map Place.folded := by
  induction places generalizing seen with
  | nil => rfl
  | cons p places ih =>
    rw [List.map_cons, firstPerOffset, firstPerOffset, Place.folded_offset]
    by_cases hseen : seen.testBit p.offset = true
    · rw [if_pos hseen, if_pos hseen]
      exact ih seen
    · rw [if_neg hseen, if_neg hseen, ih, List.map_cons]

theorem repeatEnds_folded {step : Place → List Place}
    (hstep : ∀ p, step p.folded = (step p).map Place.folded) (fuel : Nat)
    (p : Place) :
    repeatEnds step fuel p.folded =
      (repeatEnds step fuel p).map Place.folded := by
  induction fuel generalizing p with
  | zero => rfl
  | succ fuel ih =>
    rw [repeatEnds, repeatEnds, ← firstPerOffset_folded]
    congr 1
    rw [hstep, firstPerOffset_folded, List.filter_map, List.flatMap_map,
      List.map_append, List.map_flatMap]
    simp only [ih]
    rfl

namespace Pattern

/-- Matches end at the same places. -/
theorem ends_folded (pattern : Pattern) (p : Place) :
    pattern.ends .insensitive p.folded =
      (pattern.ends .insensitive p).map Place.folded := by
  induction pattern generalizing p with
  | empty => rfl
  | one cls =>
    rw [ends, ends, Place.step?_folded (accepts_toLower cls)]
    cases p.step? (cls.accepts .insensitive) <;> rfl
  | run cls =>
    exact runEnds_folded (accepts_toLower cls) p.before p.offset p.groups []
      p.rest
  | wordBoundary =>
    rw [ends, ends, Place.atWordBoundary_folded]
    split <;> rfl
  | textStart =>
    rw [ends, ends, Place.folded, Option.isNone_map]
    split <;> rfl
  | lineStart =>
    rw [ends, ends, Place.atLineStart_folded]
    split <;> rfl
  | seq first second ihFirst ihSecond =>
    rw [ends, ends, ihFirst, List.flatMap_map, List.map_flatMap]
    simp only [ihSecond]
  | alt first second ihFirst ihSecond =>
    rw [ends, ends, ihFirst, ihSecond, List.map_append]
  | star body ih =>
    rw [ends, ends, Place.folded_rest, length_folded]
    exact repeatEnds_folded ih p.rest.length p
  | group index body ih =>
    rw [ends, ends, ih, List.map_map, List.map_map]
    rfl

end Pattern

/-! ## Searching -/

/-- The same match in the folded text. -/
def Match.folded (found : Match) : Match :=
  { found with after := Text.folded found.after }

@[simp] theorem Match.group?_folded (found : Match) (text : List Char)
    (index : Nat) :
    found.folded.group? (Text.folded text) index =
      (found.group? text index).map Text.folded := by
  rw [group?, group?, Option.map_map]
  congr 1
  funext g
  simp only [Text.folded, Function.comp_apply, List.map_take, List.map_drop]

namespace Pattern

theorem matchAt?_folded (pattern : Pattern) (before : Option Char)
    (rest : List Char) (offset : Nat) :
    pattern.matchAt? .insensitive (before.map Char.toLower) (Text.folded rest)
        offset =
      (pattern.matchAt? .insensitive before rest offset).map Match.folded := by
  have hends := pattern.ends_folded ⟨before, rest, offset, []⟩
  rw [matchAt?, matchAt?]
  simp only [Place.folded] at hends
  rw [hends, List.head?_map, Option.map_map, Option.map_map]
  rfl

theorem findFrom_folded (pattern : Pattern) (before : Option Char)
    (offset resume : Nat) (text : List Char) :
    pattern.findFrom .insensitive (before.map Char.toLower) offset resume
        (Text.folded text) =
      (pattern.findFrom .insensitive before offset resume text).map
        Match.folded := by
  induction text generalizing before offset resume with
  | nil =>
    have hmatch := pattern.matchAt?_folded before [] offset
    rw [folded_nil] at hmatch ⊢
    rw [findFrom, findFrom, hmatch]
    by_cases hoffset : offset < resume
    · rw [if_pos hoffset, if_pos hoffset, List.map_nil]
    · rw [if_neg hoffset, if_neg hoffset]
      cases pattern.matchAt? .insensitive before [] offset <;> rfl
  | cons c cs ih =>
    have ih := ih (Option.some c)
    rw [folded_cons, findFrom, findFrom, ← folded_cons, matchAt?_folded]
    by_cases hoffset : offset < resume
    · rw [if_pos hoffset, if_pos hoffset]
      exact ih (offset + 1) resume
    · rw [if_neg hoffset, if_neg hoffset]
      cases pattern.matchAt? .insensitive before (c :: cs) offset with
      | none => exact ih (offset + 1) resume
      | some found =>
        exact congrArg (found.folded :: ·)
          (ih (offset + 1) (max found.stop (offset + 1)))

/-- A search finds the same matches. -/
@[simp] theorem findAll_folded (pattern : Pattern) (text : List Char) :
    pattern.findAll .insensitive (Text.folded text) =
      (pattern.findAll .insensitive text).map Match.folded :=
  pattern.findFrom_folded none 0 0 text

theorem occursFrom_folded (pattern : Pattern) (before : Option Char)
    (offset : Nat) (text : List Char) :
    pattern.occursFrom .insensitive (before.map Char.toLower) offset
        (Text.folded text) =
      pattern.occursFrom .insensitive before offset text := by
  induction text generalizing before offset with
  | nil =>
    have hmatch := pattern.matchAt?_folded before [] offset
    rw [folded_nil] at hmatch ⊢
    rw [occursFrom, occursFrom, hmatch, Option.isSome_map]
  | cons c cs ih =>
    have ih := ih (Option.some c) (offset + 1)
    rw [Option.map_some] at ih
    rw [folded_cons, occursFrom, occursFrom, ih, ← folded_cons,
      matchAt?_folded, Option.isSome_map]

@[simp] theorem occursIn_folded (pattern : Pattern) (text : List Char) :
    pattern.occursIn .insensitive (Text.folded text) =
      pattern.occursIn .insensitive text :=
  pattern.occursFrom_folded none 0 text

@[simp] theorem count_folded (pattern : Pattern) (text : List Char) :
    pattern.count .insensitive (Text.folded text) =
      pattern.count .insensitive text := by
  rw [count, count, findAll_folded, List.length_map]

@[simp] theorem captures_folded (pattern : Pattern) (text : List Char) :
    pattern.captures .insensitive (Text.folded text) =
      (pattern.captures .insensitive text).map Text.folded := by
  rw [captures, captures, findAll_folded, List.filterMap_map,
    List.map_filterMap]
  congr 1
  funext found
  exact found.group?_folded text 1

end Pattern

/-! ## Delimited bodies -/

/-- Delimiters that stand in the folded text where they stood. -/
def Delimiters.Caseless (d : Delimiters) : Prop :=
  ∀ c : Char, (c.toLower = d.opening ↔ c = d.opening) ∧
    (c.toLower = d.closing ↔ c = d.closing)

theorem Delimiters.caseless_braces : braces.Caseless := fun c =>
  ⟨toLower_eq_iff (by decide) (by decide) c,
    toLower_eq_iff (by decide) (by decide) c⟩

theorem Delimiters.caseless_parens : parens.Caseless := fun c =>
  ⟨toLower_eq_iff (by decide) (by decide) c,
    toLower_eq_iff (by decide) (by decide) c⟩

theorem Delimiters.body_folded {d : Delimiters} (hd : d.Caseless)
    (inner : Nat) (text : List Char) :
    d.body inner (Text.folded text) = Text.folded (d.body inner text) := by
  induction text generalizing inner with
  | nil => rfl
  | cons c cs ih =>
    simp only [folded_cons, body, hd c]
    by_cases hopening : c = d.opening
    · rw [if_pos hopening, if_pos hopening, ih, folded_cons]
    rw [if_neg hopening, if_neg hopening]
    by_cases hclosing : c = d.closing
    · rw [if_pos hclosing, if_pos hclosing]
      cases inner with
      | zero => rfl
      | succ inner => exact congrArg (c.toLower :: ·) (ih inner)
    · rw [if_neg hclosing, if_neg hclosing, ih, folded_cons]

theorem Pattern.bodiesAfter_folded (opener : Pattern) {d : Delimiters}
    (hd : d.Caseless) (text : List Char) :
    opener.bodiesAfter .insensitive d (Text.folded text) =
      (opener.bodiesAfter .insensitive d text).map Text.folded := by
  rw [bodiesAfter, bodiesAfter, findAll_folded, List.map_map, List.map_map]
  congr 1
  funext found
  exact Delimiters.body_folded hd 0 found.after

end Preflight
