import Mathlib.Data.List.Infix
import Preflight.Checks.Pdq
import Preflight.Proofs.Pattern.Keyword

/-!
# Bodies between delimiters

A check that looks into blocks searches for their openers, and takes for each one
the body behind it: the text up to the delimiter that closes it.

* `Delimiters.Continues`: what a body is, without the scan that finds it.  A
  closed body is balanced and stands in front of a closing delimiter; one that is
  never closed is all the text that is left.  `continues_iff` says that the scan
  finds this body and no other.
* `Pattern.Opens`: every piece that an opener finds ends with the opening
  delimiter, so the body starts right behind it.

`bodiesAfter_openers` says of the openers that the checks use that they give one
body for each match, in the order of the text, each cut out of the text between
two characters.
-/

namespace Preflight

/-! ## Balanced texts -/

namespace Delimiters

variable {d : Delimiters} {inner : Nat} {body text after : List Char} {c : Char}

/-- The text never closes more pairs than it opens, apart from `inner` pairs that
are open before it. -/
def Nested (d : Delimiters) (inner : Nat) (text : List Char) : Prop :=
  ∀ read, read <+: text →
    read.count d.closing ≤ read.count d.opening + inner

/-- The text closes the pairs that it opens, and `inner` pairs from before. -/
structure Balanced (d : Delimiters) (inner : Nat) (text : List Char) : Prop where
  nested : d.Nested inner text
  even : text.count d.closing = text.count d.opening + inner

instance (d : Delimiters) (inner : Nat) (text : List Char) :
    Decidable (d.Nested inner text) :=
  decidable_of_iff
    (∀ read ∈ text.inits, read.count d.closing ≤ read.count d.opening + inner)
    (forall_congr' fun read => imp_congr_left (List.mem_inits read text))

instance (d : Delimiters) (inner : Nat) (text : List Char) :
    Decidable (d.Balanced inner text) :=
  decidable_of_iff
    (d.Nested inner text ∧ text.count d.closing = text.count d.opening + inner)
    ⟨fun h => ⟨h.1, h.2⟩, fun h => ⟨h.nested, h.even⟩⟩

theorem nested_nil (d : Delimiters) (inner : Nat) : d.Nested inner [] := by
  intro read hread
  rw [List.prefix_nil.mp hread]
  simp

/-- What is read of a text is nothing, or its first character and more. -/
theorem nested_cons_iff :
    d.Nested inner (c :: text) ↔
      ∀ read, read <+: text →
        (c :: read).count d.closing ≤ (c :: read).count d.opening + inner := by
  constructor
  · intro h read hread
    exact h (c :: read) (List.cons_prefix_cons.mpr ⟨rfl, hread⟩)
  · intro h read hread
    cases read with
    | nil => simp
    | cons b read =>
      obtain ⟨rfl, hprefix⟩ := List.cons_prefix_cons.mp hread
      exact h read hprefix

section

variable (hd : d.opening ≠ d.closing)

include hd

theorem nested_opening_iff :
    d.Nested inner (d.opening :: text) ↔ d.Nested (inner + 1) text := by
  rw [nested_cons_iff, Nested]
  refine forall₂_congr fun read _ => ?_
  rw [List.count_cons_of_ne hd, List.count_cons_self]
  omega

theorem nested_closing_iff :
    d.Nested (inner + 1) (d.closing :: text) ↔ d.Nested inner text := by
  rw [nested_cons_iff, Nested]
  refine forall₂_congr fun read _ => ?_
  rw [List.count_cons_of_ne hd.symm, List.count_cons_self]
  omega

theorem not_nested_closing : ¬d.Nested 0 (d.closing :: text) := by
  intro h
  have := nested_cons_iff.mp h [] (List.nil_prefix)
  rw [List.count_cons_of_ne hd.symm, List.count_cons_self] at this
  simp at this

end

theorem nested_other_iff (hopening : c ≠ d.opening) (hclosing : c ≠ d.closing) :
    d.Nested inner (c :: text) ↔ d.Nested inner text := by
  rw [nested_cons_iff, Nested]
  refine forall₂_congr fun read _ => ?_
  rw [List.count_cons_of_ne hopening, List.count_cons_of_ne hclosing]

/-! ## Bodies -/

/-- The text `body` in front of the delimiter that closes what is open, `inner`
pairs having been opened since.  Without such a delimiter it is all that is
left. -/
inductive Continues (d : Delimiters) (inner : Nat) :
    (body after : List Char) → Prop where
  | closed {body rest : List Char} (h : d.Balanced inner body) :
      Continues d inner body (body ++ d.closing :: rest)
  | unclosed {body : List Char} (h : d.Nested inner body) :
      Continues d inner body body

theorem Continues.nested (h : d.Continues inner body after) :
    d.Nested inner body := by
  cases h with
  | closed h => exact h.nested
  | unclosed h => exact h

/-- A body is followed by the rest of the text. -/
theorem Continues.exists_rest (h : d.Continues inner body after) :
    ∃ rest, after = body ++ rest := by
  cases h with
  | @closed rest _ => exact ⟨d.closing :: rest, rfl⟩
  | unclosed _ => exact ⟨[], (List.append_nil body).symm⟩

/-- The first character of a body opens a pair, closes one or does neither. -/
theorem Continues.cons {later : Nat} (h : d.Continues later body after)
    (hnested : d.Nested inner (c :: body) ↔ d.Nested later body)
    (heven : body.count d.closing = body.count d.opening + later →
      (c :: body).count d.closing = (c :: body).count d.opening + inner) :
    d.Continues inner (c :: body) (c :: after) := by
  cases h with
  | closed h => exact .closed ⟨hnested.mpr h.nested, heven h.even⟩
  | unclosed h => exact .unclosed (hnested.mpr h)

section

variable (hd : d.opening ≠ d.closing)

include hd

omit hd in
theorem body_opening :
    d.body inner (d.opening :: after) =
      d.opening :: d.body (inner + 1) after := by
  rw [Delimiters.body.eq_def]
  exact if_pos rfl

theorem body_closing_zero : d.body 0 (d.closing :: after) = [] := by
  rw [Delimiters.body, if_neg hd.symm, if_pos rfl]

theorem body_closing_succ :
    d.body (inner + 1) (d.closing :: after) =
      d.closing :: d.body inner after := by
  rw [Delimiters.body, if_neg hd.symm, if_pos rfl]

omit hd in
theorem body_other (hopening : c ≠ d.opening) (hclosing : c ≠ d.closing) :
    d.body inner (c :: after) = c :: d.body inner after := by
  rw [Delimiters.body.eq_def]
  exact (if_neg hopening).trans (if_neg hclosing)

theorem continues_body (inner : Nat) (after : List Char) :
    d.Continues inner (d.body inner after) after := by
  induction after generalizing inner with
  | nil => exact .unclosed (nested_nil d inner)
  | cons c after ih =>
    by_cases hopening : c = d.opening
    · subst hopening
      rw [body_opening]
      refine (ih (inner + 1)).cons (nested_opening_iff hd) fun heven => ?_
      rw [List.count_cons_of_ne hd, List.count_cons_self]
      omega
    by_cases hclosing : c = d.closing
    · subst hclosing
      cases inner with
      | zero =>
        rw [body_closing_zero hd]
        exact .closed ⟨nested_nil d 0, rfl⟩
      | succ inner =>
        rw [body_closing_succ hd]
        refine (ih inner).cons (nested_closing_iff hd) fun heven => ?_
        rw [List.count_cons_of_ne hd.symm, List.count_cons_self]
        omega
    · rw [body_other hopening hclosing]
      refine (ih inner).cons (nested_other_iff hopening hclosing) fun heven => ?_
      rw [List.count_cons_of_ne hopening, List.count_cons_of_ne hclosing, heven]

/-- A nested text is read to its end. -/
theorem body_append_of_nested (h : d.Nested inner text) (after : List Char) :
    ∃ left, left + text.count d.closing = inner + text.count d.opening ∧
      d.body inner (text ++ after) = text ++ d.body left after := by
  induction text generalizing inner with
  | nil => exact ⟨inner, rfl, rfl⟩
  | cons c text ih =>
    rw [List.cons_append]
    by_cases hopening : c = d.opening
    · subst hopening
      obtain ⟨left, hcount, hbody⟩ := ih ((nested_opening_iff hd).mp h)
      refine ⟨left, ?_, by rw [body_opening, hbody]; rfl⟩
      rw [List.count_cons_of_ne hd, List.count_cons_self]
      omega
    by_cases hclosing : c = d.closing
    · subst hclosing
      cases inner with
      | zero => exact absurd h (not_nested_closing hd)
      | succ inner =>
        obtain ⟨left, hcount, hbody⟩ := ih ((nested_closing_iff hd).mp h)
        refine ⟨left, ?_, by rw [body_closing_succ hd, hbody]; rfl⟩
        rw [List.count_cons_of_ne hd.symm, List.count_cons_self]
        omega
    · obtain ⟨left, hcount, hbody⟩ :=
        ih ((nested_other_iff hopening hclosing).mp h)
      refine ⟨left, ?_, by rw [body_other hopening hclosing, hbody]; rfl⟩
      rw [List.count_cons_of_ne hopening, List.count_cons_of_ne hclosing]
      exact hcount

theorem Balanced.body_append (h : d.Balanced inner body) (rest : List Char) :
    d.body inner (body ++ d.closing :: rest) = body := by
  obtain ⟨left, hcount, hbody⟩ := body_append_of_nested hd h.nested
    (d.closing :: rest)
  have heven := h.even
  obtain rfl : left = 0 := by omega
  rw [hbody, body_closing_zero hd, List.append_nil]

/-- Behind an opener, the pairs of a body are skipped. -/
example : Delimiters.parens.body 0 "$a, (1 + 2), (b) ) c".toList =
    "$a, (1 + 2), (b) ".toList := by
  decide

/-- The scan for a body finds it. -/
theorem continues_iff :
    d.Continues inner body after ↔ body = d.body inner after := by
  constructor
  · intro h
    cases h with
    | closed h => exact (h.body_append hd _).symm
    | unclosed h =>
      obtain ⟨left, -, hbody⟩ := body_append_of_nested hd h []
      have hdone : d.body left [] = [] := rfl
      rw [hdone, List.append_nil] at hbody
      exact hbody.symm
  · rintro rfl
    exact continues_body hd inner after

end

/-- How many pairs are open when `read` has been read behind an opening
delimiter. -/
def depth (d : Delimiters) (read : List Char) : Int :=
  1 + read.count d.opening - read.count d.closing

/-- Up to the end of a body and the delimiter behind it, the depth never goes
below zero. -/
theorem Continues.depth_nonneg (h : d.Continues 0 body after)
    {read : List Char} (hread : read <+: after.take (body.length + 1)) :
    0 ≤ d.depth read := by
  have hinside (hread : read <+: body) : 0 ≤ d.depth read := by
    have := h.nested read hread
    unfold depth
    omega
  cases h with
  | @closed rest h =>
    have htake : (body ++ d.closing :: rest).take (body.length + 1) =
        body ++ [d.closing] := by
      rw [List.take_length_add_append]
      rfl
    rw [htake, List.prefix_concat_iff] at hread
    rcases hread with rfl | hread
    · have heven := h.even
      unfold depth
      rw [List.count_append, List.count_append, List.count_singleton_self]
      omega
    · exact hinside hread
  | unclosed h => exact hinside (hread.trans (List.take_prefix _ _))

end Delimiters

/-! ## Openers -/

namespace Pattern

variable {opener : Pattern} {d : Delimiters} {text : List Char}

/-- Every piece that the opener finds ends with the opening delimiter. -/
def Opens (opener : Pattern) (d : Delimiters) : Prop :=
  ∀ front piece back, opener.Finds .insensitive front piece back →
    ∃ head, piece = head ++ [d.opening]

theorem Opens.append {last : Pattern} (lead : Pattern) (h : last.Opens d) :
    (lead ++ last).Opens d := by
  intro front piece back hfinds
  obtain ⟨left, right, rfl, -, hlast⟩ := finds_append_iff.mp hfinds
  obtain ⟨head, rfl⟩ := h _ _ _ hlast
  exact ⟨left ++ head, (List.append_assoc _ _ _).symm⟩

theorem opens_char (h : d.opening ∉ Text.casedLetters) :
    (char d.opening).Opens d := by
  intro front piece back hfinds
  exact ⟨[], (finds_symbol_iff h).mp hfinds⟩

theorem Opens.solid (h : opener.Opens d) : opener.Solid .insensitive := by
  intro front back hfinds
  obtain ⟨head, hnil⟩ := h front [] back hfinds
  exact absurd (List.append_eq_nil_iff.mp hnil.symm).2 (List.cons_ne_nil _ _)

/-- What a search takes out of a text for one match: the match, which ends with an
opening delimiter, and right behind it the body. -/
structure Extracts (opener : Pattern) (d : Delimiters) (text : List Char)
    (found : Match) (body : List Char) : Prop where
  /-- Both are cut out of the text, between two characters. -/
  cut : ∃ front head rest,
    text = front ++ (head ++ d.opening :: (body ++ rest)) ∧
      found.Cuts front (head ++ [d.opening]) (body ++ rest) ∧
      opener.Finds .insensitive front (head ++ [d.opening]) (body ++ rest)
  continues : d.Continues 0 body found.after
  only : ∀ other, d.Continues 0 other found.after → other = body
  /-- The scan for the end of the body never counts below zero. -/
  depth_nonneg : ∀ read, read <+: found.after.take (body.length + 1) →
    0 ≤ d.depth read

/-- The scan behind a match extracts a body. -/
theorem Opens.extracts (h : opener.Opens d) (hd : d.opening ≠ d.closing)
    {found : Match} (hfound : found ∈ opener.findAll .insensitive text) :
    opener.Extracts d text found (d.body 0 found.after) := by
  have hcontinues := Delimiters.continues_body hd 0 found.after
  obtain ⟨front, piece, back, htext, hcuts, hfinds⟩ :=
    (h.solid.trail_findAll text).cuts hfound
  obtain ⟨head, rfl⟩ := h _ _ _ hfinds
  obtain ⟨rest, hrest⟩ := hcontinues.exists_rest
  rw [hcuts.after] at hrest
  refine ⟨⟨front, head, rest, ?_, ?_, ?_⟩, hcontinues, ?_, ?_⟩
  · rw [htext, hcuts.after, List.append_assoc, List.singleton_append, ← hrest]
  · rwa [hcuts.after, ← hrest]
  · rwa [hcuts.after, ← hrest]
  · intro other hother
    exact (Delimiters.continues_iff hd).mp hother
  · intro read hread
    exact hcontinues.depth_nonneg hread

end Pattern

namespace Checks

open Pattern

/-- The openers behind which checks take bodies, with their delimiters. -/
def openers : List (Pattern × Delimiters) :=
  [(catchOpener, .braces), (paramOpener, .parens)]

theorem catchOpener_opens : catchOpener.Opens .braces :=
  .append _ (@opens_char .braces (by decide))

theorem paramOpener_opens : paramOpener.Opens .parens := by
  have htext : text "(" = char Delimiters.parens.opening := by decide
  unfold paramOpener
  rw [htext]
  exact .append _ (opens_char (by decide))

theorem opens_of_mem_openers {opener : Pattern} {d : Delimiters}
    (h : (opener, d) ∈ openers) : opener.Opens d ∧ d.opening ≠ d.closing := by
  simp only [openers, List.mem_cons, Prod.mk.injEq, List.not_mem_nil, or_false] at h
  obtain ⟨rfl, rfl⟩ | ⟨rfl, rfl⟩ := h
  · exact ⟨catchOpener_opens, by decide⟩
  · exact ⟨paramOpener_opens, by decide⟩

/-- Behind each match of an opener stands one body, in the order of the text: what
continues the match up to the delimiter that closes it, or to the end of the
text. -/
theorem bodiesAfter_openers (text : List Char) :
    (catchBodies text).length = catchOpener.count .insensitive text ∧
      ∀ opener d, (opener, d) ∈ openers →
        (opener.bodiesAfter .insensitive d text).length =
            opener.count .insensitive text ∧
          ((opener.findAll .insensitive text).Pairwise fun first second =>
            first.stop ≤ second.start) ∧
          List.Forall₂ (opener.Extracts d text) (opener.findAll .insensitive text)
            (opener.bodiesAfter .insensitive d text) := by
  refine ⟨List.length_map _, fun opener d hmem => ⟨List.length_map _, ?_, ?_⟩⟩
  · exact ((opens_of_mem_openers hmem).1.solid.trail_findAll text).pairwise
  · obtain ⟨hopens, hd⟩ := opens_of_mem_openers hmem
    rw [bodiesAfter, List.forall₂_map_right_iff, List.forall₂_same]
    intro found hfound
    exact hopens.extracts hd hfound

end Checks

end Preflight
