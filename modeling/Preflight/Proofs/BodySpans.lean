import Preflight.Proofs.Nesting

/-!
# How bodies lie in a text

The body behind each opener is found by a scan of its own.  A `Span` says where
a body stands in its text, and `Delimiters.Encloses` that it is the body behind
some opening delimiter of the text.

Two scans see the same delimiters.  Where the second one starts, the first one has
pairs open that the second knows nothing of, so it has more to close, and it goes
at least as far (`Delimiters.body_prefix_body`).  A body that is opened inside of
another one therefore ends there too (`Delimiters.body_within`), and no two bodies
overlap in part (`Delimiters.Encloses.apart_or_inside`).

`bodySpans_nested` says so of the bodies that the checks look into, one opener at a
time.  Scans for braces and for parentheses see different delimiters, so nothing is
said of a handler and a parameter block.
-/

namespace Preflight

/-! ## Spans -/

/-- The places of a text from `start` on, up to `stop`. -/
structure Span where
  start : Nat
  stop : Nat
  deriving DecidableEq, Repr

namespace Span

/-- What stands between the ends. -/
def cut (s : Span) (text : List Char) : List Char :=
  (text.take s.stop).drop s.start

/-- The place is one of the span. -/
def Has (s : Span) (place : Nat) : Prop := s.start ≤ place ∧ place < s.stop

/-- One span ends before the other one starts. -/
def Apart (a b : Span) : Prop := a.stop ≤ b.start ∨ b.stop ≤ a.start

/-- The first span lies within the second. -/
def Inside (a b : Span) : Prop := b.start ≤ a.start ∧ a.stop ≤ b.stop

/-- No delimiter stands behind the span to close it. -/
def Unterminated (s : Span) (d : Delimiters) (text : List Char) : Prop :=
  text[s.stop]? ≠ some d.closing

end Span

namespace Delimiters

variable {d : Delimiters} {inner more : Nat} {text front after : List Char}
  {a b : Span}

/-! ## Scans that have more to close -/

section

variable (hd : d.opening ≠ d.closing)

include hd

/-- With more pairs to close, a scan goes at least as far. -/
theorem body_prefix_body (h : inner ≤ more) (after : List Char) :
    d.body inner after <+: d.body more after := by
  induction after generalizing inner more with
  | nil => exact List.prefix_rfl
  | cons c after ih =>
    by_cases hopening : c = d.opening
    · subst hopening
      rw [body_opening, body_opening, List.cons_prefix_cons]
      exact ⟨rfl, ih (Nat.succ_le_succ h)⟩
    by_cases hclosing : c = d.closing
    · subst hclosing
      cases inner with
      | zero =>
        rw [body_closing_zero hd]
        exact List.nil_prefix
      | succ inner =>
        -- Neither scan is at its end.
        obtain ⟨more, rfl⟩ : ∃ n, more = n + 1 := ⟨more - 1, by omega⟩
        rw [body_closing_succ hd, body_closing_succ hd, List.cons_prefix_cons]
        exact ⟨rfl, ih (Nat.le_of_succ_le_succ h)⟩
    · rw [body_other hopening hclosing, body_other hopening hclosing,
        List.cons_prefix_cons]
      exact ⟨rfl, ih h⟩

/-- A body is followed by the delimiter that closes it, or is all that is left. -/
theorem body_cases (after : List Char) :
    (∃ rest, after = d.body 0 after ++ d.closing :: rest) ∨
      d.body 0 after = after := by
  have hcontinues := continues_body hd 0 after
  generalize d.body 0 after = body at hcontinues ⊢
  cases hcontinues with
  | @closed rest h => exact .inl ⟨rest, rfl⟩
  | unclosed h => exact .inr rfl

theorem body_isPrefix (after : List Char) : d.body 0 after <+: after := by
  obtain ⟨rest, hrest⟩ := (continues_body hd 0 after).exists_rest
  exact ⟨rest, hrest.symm⟩

/-- A body that goes beyond an opening delimiter holds all of the body behind that
delimiter, and nothing more if that one is never closed. -/
theorem body_within {between later : List Char}
    (h : between.length <
      (d.body 0 (between ++ d.opening :: later)).length) :
    ∃ rest, d.body 0 (between ++ d.opening :: later) =
        between ++ d.opening :: (d.body 0 later ++ rest) ∧
      (d.body 0 later = later → rest = []) := by
  have hnested : d.Nested 0 between := by
    have hbetween : between <+: d.body 0 (between ++ d.opening :: later) :=
      List.prefix_of_prefix_length_le (List.prefix_append _ _)
        (body_isPrefix hd _) (Nat.le_of_lt h)
    intro read hread
    exact (continues_body hd 0 _).nested read (hread.trans hbetween)
  obtain ⟨left, -, hbody⟩ :=
    body_append_of_nested hd hnested (d.opening :: later)
  rw [body_opening] at hbody
  obtain ⟨rest, hrest⟩ := body_prefix_body hd (Nat.zero_le (left + 1)) later
  refine ⟨rest, by rw [hbody, hrest], fun hall => ?_⟩
  -- The longer scan cannot go beyond the end of the text.
  have hlength : (d.body (left + 1) later).length ≤ later.length := by
    obtain ⟨beyond, hbeyond⟩ := (continues_body hd (left + 1) later).exists_rest
    have := congrArg List.length hbeyond
    rw [List.length_append] at this
    omega
  rw [← hrest, hall, List.length_append] at hlength
  exact List.eq_nil_of_length_eq_zero (by omega)

end

/-! ## Enclosed spans -/

/-- The span of the body between an opening delimiter and what follows it. -/
def spanBehind (d : Delimiters) (front after : List Char) : Span :=
  ⟨front.length + 1, front.length + 1 + (d.body 0 after).length⟩

/-- The span is that of the body behind some opening delimiter of the text. -/
def Encloses (d : Delimiters) (text : List Char) (s : Span) : Prop :=
  ∃ front after, text = front ++ d.opening :: after ∧ s = d.spanBehind front after

/-- Of two places with the same character, one comes first. -/
theorem exists_between {c : Char} {front' after' : List Char}
    (h : front ++ c :: after = front' ++ c :: after')
    (hlt : front.length < front'.length) :
    ∃ between, front' = front ++ c :: between ∧ after = between ++ c :: after' := by
  rcases List.append_eq_append_iff.mp h with ⟨skipped, hfront, hafter⟩ | ⟨_, hfront, -⟩
  · cases skipped with
    | nil =>
      rw [hfront, List.append_nil] at hlt
      exact absurd hlt (Nat.lt_irrefl _)
    | cons e between =>
      obtain ⟨rfl, htail⟩ := List.cons.inj hafter
      exact ⟨between, hfront, htail⟩
  · rw [hfront, List.length_append] at hlt
    omega

theorem getElem?_behind (c : Char) (front after : List Char) (n : Nat) :
    (front ++ c :: after)[front.length + 1 + n]? = after[n]? := by
  rw [List.append_cons, List.getElem?_append_right (by simp)]
  simp

section

variable (hd : d.opening ≠ d.closing)

include hd

/-- The body stands on its span. -/
theorem cut_spanBehind (front after : List Char) :
    (d.spanBehind front after).cut (front ++ d.opening :: after) =
      d.body 0 after := by
  obtain ⟨rest, hrest⟩ := body_isPrefix hd after
  have htext : front ++ d.opening :: after =
      front ++ [d.opening] ++ (d.body 0 after ++ rest) := by
    rw [hrest, List.append_cons]
  have hlength : front.length + 1 = (front ++ [d.opening]).length := by simp
  rw [Span.cut, htext, spanBehind, hlength, List.take_length_add_append,
    List.drop_left, List.take_left]

/-- A body that is never closed is all that is left of the text. -/
theorem unterminated_spanBehind_iff :
    (d.spanBehind front after).Unterminated d (front ++ d.opening :: after) ↔
      d.body 0 after = after := by
  show (front ++ d.opening :: after)[front.length + 1 + _]? ≠ _ ↔ _
  rw [getElem?_behind]
  rcases body_cases hd after with ⟨rest, hrest⟩ | hall
  · have hclosing : after[(d.body 0 after).length]? = some d.closing := by
      nth_rewrite 1 [hrest]
      simp
    refine iff_of_false (fun h => h hclosing) fun hall => ?_
    have hlength := congrArg List.length hrest
    rw [hall, List.length_append, List.length_cons] at hlength
    omega
  · refine iff_of_true ?_ hall
    rw [hall, List.getElem?_eq_none (Nat.le_refl _)]
    exact nofun

/-- What is opened inside of a body ends there. -/
theorem spanBehind_within {between later : List Char}
    (h : (d.spanBehind front (between ++ d.opening :: later)).Has
      (front ++ d.opening :: between).length) :
    (d.spanBehind (front ++ d.opening :: between) later).Inside
        (d.spanBehind front (between ++ d.opening :: later)) ∧
      (d.body 0 later = later →
        d.body 0 (between ++ d.opening :: later) =
          between ++ d.opening :: later) := by
  have hplace : (front ++ d.opening :: between).length =
      front.length + 1 + between.length := by
    simp
    omega
  have hlt : between.length <
      (d.body 0 (between ++ d.opening :: later)).length := by
    have := h.2
    rw [hplace, spanBehind] at this
    simp only at this
    omega
  obtain ⟨rest, hbody, hall⟩ := body_within hd hlt
  constructor
  · have hlength := congrArg List.length hbody
    simp only [List.length_append, List.length_cons] at hlength
    constructor
    · show front.length + 1 ≤ (front ++ d.opening :: between).length + 1
      omega
    · show (front ++ d.opening :: between).length + 1 + _ ≤ front.length + 1 + _
      omega
  · intro hlater
    rw [hbody, hall hlater, hlater, List.append_nil]

/-- Of two enclosed spans, the one whose opening delimiter stands in the other lies
in it as a whole, and is unterminated only if the other one is. -/
theorem Encloses.inside_of_has (ha : d.Encloses text a) (hb : d.Encloses text b)
    {place : Nat} (hplace : b.start = place + 1) (h : a.Has place) :
    b.Inside a ∧ (b.Unterminated d text → a.Unterminated d text) := by
  obtain ⟨front, after, rfl, rfl⟩ := ha
  obtain ⟨front', after', htext, rfl⟩ := hb
  obtain rfl : front'.length = place := Nat.succ.inj hplace
  have hlt : front.length < front'.length := h.1
  obtain ⟨between, rfl, rfl⟩ := exists_between htext hlt
  obtain ⟨hinside, hall⟩ := spanBehind_within hd h
  refine ⟨hinside, fun hopen => ?_⟩
  rw [htext, unterminated_spanBehind_iff hd] at hopen
  exact (unterminated_spanBehind_iff hd).mpr (hall hopen)

/-- No two enclosed spans overlap in part. -/
theorem Encloses.apart_or_inside (ha : d.Encloses text a)
    (hb : d.Encloses text b) : a.Apart b ∨ a.Inside b ∨ b.Inside a := by
  have hordered {a b : Span} (ha : d.Encloses text a) (hb : d.Encloses text b)
      (hlt : a.start < b.start) : a.Apart b ∨ b.Inside a := by
    have hplace : b.start = b.start - 1 + 1 := by omega
    by_cases hhas : a.Has (b.start - 1)
    · exact .inr (ha.inside_of_has hd hb hplace hhas).1
    · left
      left
      have : ¬b.start - 1 < a.stop := fun hstop => hhas ⟨by omega, hstop⟩
      omega
  rcases Nat.lt_trichotomy a.start b.start with hlt | heq | hlt
  · rcases hordered ha hb hlt with hapart | hinside
    · exact .inl hapart
    · exact .inr (.inr hinside)
  · -- Both bodies stand behind the same delimiter.
    obtain ⟨front, after, rfl, rfl⟩ := ha
    obtain ⟨front', after', htext, rfl⟩ := hb
    obtain ⟨rfl, htail⟩ := List.append_inj htext (Nat.succ.inj heq)
    obtain ⟨-, rfl⟩ := List.cons.inj htail
    exact .inr (.inl ⟨Nat.le_refl _, Nat.le_refl _⟩)
  · rcases hordered hb ha hlt with hapart | hinside
    · exact .inl hapart.symm
    · exact .inr (.inl hinside)

end

end Delimiters

/-! ## The bodies behind an opener -/

/-- The span of the body behind a match. -/
def Match.bodySpan (found : Match) (d : Delimiters) : Span :=
  ⟨found.stop, found.stop + (d.body 0 found.after).length⟩

namespace Pattern

variable {opener : Pattern} {d : Delimiters} {text : List Char}

/-- The spans of the bodies behind an opener, in the order of the text. -/
def bodySpans (opener : Pattern) (d : Delimiters) (text : List Char) : List Span :=
  (opener.findAll .insensitive text).map (·.bodySpan d)

/-- Behind each match, right behind an opening delimiter, stands a body. -/
theorem Opens.exists_front (h : opener.Opens d) {found : Match}
    (hfound : found ∈ opener.findAll .insensitive text) :
    ∃ front, text = front ++ d.opening :: found.after ∧
      found.bodySpan d = d.spanBehind front found.after := by
  obtain ⟨skipped, piece, back, htext, hcuts, hfinds⟩ :=
    (h.solid.trail_findAll text).cuts hfound
  obtain ⟨head, rfl⟩ := h _ _ _ hfinds
  refine ⟨skipped ++ head, ?_, ?_⟩
  · rw [htext, hcuts.after]
    simp
  · have hstop : found.stop = (skipped ++ head).length + 1 := by
      rw [hcuts.stop]
      simp
      omega
    rw [Match.bodySpan, hstop]
    rfl

theorem Opens.encloses (h : opener.Opens d) {s : Span}
    (hs : s ∈ opener.bodySpans d text) : d.Encloses text s := by
  obtain ⟨found, hfound, rfl⟩ := List.mem_map.mp hs
  obtain ⟨front, htext, hspan⟩ := h.exists_front hfound
  exact ⟨front, found.after, htext, hspan⟩

/-- The bodies are what stands on the spans. -/
theorem Opens.bodiesAfter_eq (h : opener.Opens d) (hd : d.opening ≠ d.closing)
    (text : List Char) :
    opener.bodiesAfter .insensitive d text =
      (opener.bodySpans d text).map (·.cut text) := by
  rw [bodiesAfter, bodySpans, List.map_map]
  refine List.map_congr_left fun found hfound => ?_
  obtain ⟨front, htext, hspan⟩ := h.exists_front hfound
  show d.body 0 found.after = (found.bodySpan d).cut text
  rw [hspan, htext, Delimiters.cut_spanBehind hd]

end Pattern

namespace Delimiters

variable {d : Delimiters} {text : List Char} {s : Span}

/-- An enclosed span is a part of the text behind an opening delimiter.  It is
unterminated exactly if it goes to the end of the text. -/
structure Bounds (d : Delimiters) (text : List Char) (s : Span) : Prop where
  opened : ∃ place, s.start = place + 1 ∧ text[place]? = some d.opening
  ordered : s.start ≤ s.stop
  within : s.stop ≤ text.length
  unterminated_iff : s.Unterminated d text ↔ s.stop = text.length

theorem Encloses.bounds (hd : d.opening ≠ d.closing) (h : d.Encloses text s) :
    d.Bounds text s := by
  obtain ⟨front, after, rfl, rfl⟩ := h
  have hlength : (front ++ d.opening :: after).length =
      front.length + 1 + after.length := by
    simp
    omega
  have hle : (d.body 0 after).length ≤ after.length :=
    (body_isPrefix hd after).length_le
  refine ⟨⟨front.length, rfl, ?_⟩, Nat.le_add_right _ _, ?_, ?_⟩
  · rw [List.getElem?_append_right (Nat.le_refl _), Nat.sub_self]
    rfl
  · rw [hlength]
    exact Nat.add_le_add_left hle _
  · rw [unterminated_spanBehind_iff hd, hlength]
    show _ ↔ front.length + 1 + (d.body 0 after).length = _
    constructor
    · intro hall
      rw [hall]
    · intro hstop
      exact (body_isPrefix hd after).eq_of_length (by omega)

end Delimiters

namespace Checks

open Pattern

/-- The bodies behind an opener stand on spans of the text.  Any two of them are
apart, or one lies in the other; and if the opening delimiter of one stands in the
other, it lies in the other as a whole, and is unterminated only if the other one
is. -/
theorem bodySpans_nested {opener : Pattern} {d : Delimiters}
    (h : (opener, d) ∈ openers) (text : List Char) :
    opener.Opens d ∧
      opener.bodiesAfter .insensitive d text =
        (opener.bodySpans d text).map (·.cut text) ∧
      (∀ s ∈ opener.bodySpans d text, d.Bounds text s) ∧
      ∀ first ∈ opener.bodySpans d text, ∀ second ∈ opener.bodySpans d text,
        (first.Apart second ∨ first.Inside second ∨ second.Inside first) ∧
          ∀ place, second.start = place + 1 → first.Has place →
            second.Inside first ∧
              (second.Unterminated d text → first.Unterminated d text) := by
  obtain ⟨hopens, hd⟩ := opens_of_mem_openers h
  refine ⟨hopens, hopens.bodiesAfter_eq hd text, ?_, ?_⟩
  · intro s hs
    exact (hopens.encloses hs).bounds hd
  · intro first hfirst second hsecond
    have ha : d.Encloses text first := hopens.encloses hfirst
    have hb : d.Encloses text second := hopens.encloses hsecond
    refine ⟨ha.apart_or_inside hd hb, ?_⟩
    intro place hplace hhas
    exact ha.inside_of_has hd hb hplace hhas

/-- A handler in one that is never closed: the first of the inner ones is closed, the
second is not. -/
theorem bodySpans_nested_of_open_handler :
    let text := "catch \x7b catch \x7b 1 \x7d catch \x7b 2".toList
    (catchOpener, Delimiters.braces) ∈ openers ∧
      catchOpener.bodySpans .braces text = [⟨7, 29⟩, ⟨15, 18⟩, ⟨27, 29⟩] ∧
      (Span.mk 27 29).Inside ⟨7, 29⟩ ∧
      (Span.mk 27 29).Unterminated .braces text ∧
      (Span.mk 7 29).Unterminated .braces text := by
  intro text
  have hmem : (catchOpener, Delimiters.braces) ∈ openers := List.mem_cons_self
  have hspans : catchOpener.bodySpans .braces text =
      [⟨7, 29⟩, ⟨15, 18⟩, ⟨27, 29⟩] := by
    decide +kernel
  obtain ⟨-, -, hbounds, hnested⟩ := bodySpans_nested hmem text
  rw [hspans] at hbounds hnested
  have hinner : (Span.mk 27 29).Unterminated .braces text :=
    (hbounds ⟨27, 29⟩ (by simp)).unterminated_iff.mpr (by decide)
  obtain ⟨-, hinside⟩ := hnested ⟨7, 29⟩ (by simp) ⟨27, 29⟩ (by simp)
  obtain ⟨hwithin, hopen⟩ := hinside 26 rfl ⟨by decide, by decide⟩
  exact ⟨hmem, hspans, hwithin, hinner, hopen hinner⟩

end Checks

end Preflight
