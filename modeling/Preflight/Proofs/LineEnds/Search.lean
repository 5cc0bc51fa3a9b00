import Preflight.Proofs.LineEnds.Pattern

/-!
# Searches and line ends

A search for a line-neutral pattern finds in the text with other line ends what
it finds in the text (`findAll_crlf`): no match starts in the middle of a line
end, and the others go over.

Whether a pattern occurs, how often, which captures and which bodies follow is
read off the matches.  A pattern that stands behind white space is not
line-neutral, since a match of it may start in front of the LF; it occurs all the
same (`occursIn_behind_crlf`).
-/

namespace Preflight

open Text

/-! ## Matches -/

/-- The same match when the text has other line ends. -/
def Match.crlf (text : List Char) (found : Match) : Match where
  start := crlfOffset text found.start
  stop := crlfOffset text found.stop
  groups := found.groups.map (·.crlf text)
  after := Text.crlf found.after

@[simp] theorem Match.group?_crlf (text : List Char) (found : Match)
    (index : Nat) :
    (found.crlf text).group? (Text.crlf text) index =
      (found.group? text index).map Text.crlf := by
  have hfind : (found.crlf text).groups.find? (·.index == index) =
      (found.groups.find? (·.index == index)).map (·.crlf text) :=
    List.find?_map ..
  rw [group?, group?, hfind, Option.map_map, Option.map_map]
  congr 1
  funext g
  exact take_drop_crlf text g.start g.stop

namespace Pattern

variable {casing : Casing} {pattern : Pattern}

theorem head?_ends_eq_first (p : Place) :
    (pattern.ends casing p).head? = pattern.first casing Option.some p := by
  rw [first, ← List.head?_filterMap, List.filterMap_some]

/-- Behind a line end, a search takes what it is given. -/
theorem holds_some (text : List Char) :
    Midway.follows.Holds text (Option.some : Place → Option Place) := by
  intro front back groups _ hpassed
  cases hpassed

section

variable (hpattern : pattern.LineNeutral casing)

include hpattern

theorem LineNeutral.matchAt?_crlf (front rest : List Char) :
    pattern.matchAt? casing front.getLast? (Text.crlf rest)
        (Text.crlf front).length =
      (pattern.matchAt? casing front.getLast? rest front.length).map
        (·.crlf (front ++ rest)) := by
  have hplace : Place.IsOf (front ++ rest)
      ⟨front.getLast?, rest, front.length, []⟩ := ⟨front, rfl, rfl, rfl⟩
  have hagrees : Agrees (front ++ rest) (Place.crlf (front ++ rest)) Option.some
      Option.some := fun _ _ => rfl
  have hends := agrees_first hpattern hagrees (holds_some _) _ hplace
  rw [← head?_ends_eq_first, ← head?_ends_eq_first, Place.crlf,
    crlfOffset_append_length] at hends
  rw [matchAt?, matchAt?, Option.map_map]
  refine (congrArg _ hends).trans ?_
  rw [Option.map_map]
  congr 1
  funext q
  simp only [Function.comp_apply, Place.crlf, Match.crlf,
    crlfOffset_append_length]

/-- No match starts in the middle of a line end. -/
theorem LineNeutral.matchAt?_midway (front back : List Char) :
    pattern.matchAt? casing (Option.some '\r') ('\n' :: Text.crlf back)
      ((Text.crlf front).length + 1) = none := by
  have hfails := holds_first hpattern (holds_some (front ++ '\n' :: back))
    front back [] rfl
  rw [matchAt?, Option.map_eq_none_iff, head?_ends_eq_first]
  exact hfails

/-- The next character of the text is as good as all that stands in its place:
nothing is found in the middle of a line end. -/
theorem LineNeutral.findFrom_next (front : List Char) (c : Char)
    (rest : List Char) :
    ∃ d tail, Text.crlf (c :: rest) = d :: tail ∧ ∀ resume,
      pattern.findFrom casing (Option.some d) ((Text.crlf front).length + 1)
          resume tail =
        pattern.findFrom casing (Option.some c) (Text.crlf (front ++ [c])).length
          resume (Text.crlf rest) := by
  by_cases hc : c = '\n'
  · subst hc
    refine ⟨'\r', '\n' :: Text.crlf rest, rfl, fun resume => ?_⟩
    have hlength : (Text.crlf (front ++ ['\n'])).length =
        (Text.crlf front).length + 1 + 1 := by simp
    rw [findFrom, hpattern.matchAt?_midway front rest, hlength]
    split <;> rfl
  · refine ⟨c, Text.crlf rest, crlf_cons hc rest, fun resume => ?_⟩
    have hlength : (Text.crlf (front ++ [c])).length =
        (Text.crlf front).length + 1 := by simp [crlf_cons hc]
    rw [hlength]

end

/-- From the place behind `front` on, a search may go on at the same places in
both texts. -/
def SameResume (front rest : List Char) (resume resume' : Nat) : Prop :=
  ∀ n, front.length ≤ n → n ≤ (front ++ rest).length →
    (n < resume ↔ crlfOffset (front ++ rest) n < resume')

namespace SameResume

variable {front rest : List Char} {resume resume' : Nat} {c : Char}

theorem here (h : SameResume front rest resume resume') :
    (Text.crlf front).length < resume' ↔ front.length < resume := by
  rw [h front.length (Nat.le_refl _) (by simp), crlfOffset_append_length]

theorem next (h : SameResume front (c :: rest) resume resume') :
    SameResume (front ++ [c]) rest resume resume' := by
  intro n hle hge
  rw [List.append_assoc] at hge ⊢
  rw [List.length_append] at hle
  exact h n (by omega) hge

/-- Behind a match, a search goes on at the same place in both texts, even if one
of them has more characters to move on by. -/
theorem found {stop : Nat} (hstop : stop ≤ (front ++ c :: rest).length) :
    SameResume (front ++ [c]) rest (max stop (front.length + 1))
      (max (crlfOffset (front ++ c :: rest) stop)
        ((Text.crlf front).length + 1)) := by
  intro n hle hge
  rw [List.append_assoc, List.singleton_append] at hge ⊢
  rw [List.length_append, List.length_singleton] at hle
  have hpast : (Text.crlf front).length <
      crlfOffset (front ++ c :: rest) n := by
    rw [← crlfOffset_append_length front (c :: rest),
      crlfOffset_lt_iff _ hge]
    exact hle
  have hbefore := @crlfOffset_lt_iff (front ++ c :: rest) n stop hstop
  omega

end SameResume

section

variable (hpattern : pattern.LineNeutral casing)

include hpattern

/-- The search goes over to the text with other line ends. -/
theorem LineNeutral.findFrom_crlf (front rest : List Char) {resume resume' : Nat}
    (hresume : SameResume front rest resume resume') :
    pattern.findFrom casing front.getLast? (Text.crlf front).length resume'
        (Text.crlf rest) =
      (pattern.findFrom casing front.getLast? front.length resume rest).map
        (·.crlf (front ++ rest)) := by
  induction rest generalizing front resume resume' with
  | nil =>
    have hmatch := hpattern.matchAt?_crlf front []
    rw [crlf_nil] at hmatch ⊢
    rw [findFrom, findFrom, hmatch]
    by_cases hlt : front.length < resume
    · rw [if_pos hlt, if_pos (hresume.here.mpr hlt), List.map_nil]
    · rw [if_neg hlt, if_neg fun h => hlt (hresume.here.mp h)]
      cases pattern.matchAt? casing front.getLast? [] front.length <;> rfl
  | cons c rest ih =>
    obtain ⟨d, tail, hcrlf, hnext⟩ := hpattern.findFrom_next front c rest
    have ih {later later' : Nat} (h : SameResume (front ++ [c]) rest later later') :
        pattern.findFrom casing (Option.some d) ((Text.crlf front).length + 1)
            later' tail =
          (pattern.findFrom casing (Option.some c) (front.length + 1) later
            rest).map (·.crlf (front ++ c :: rest)) := by
      have ih := ih (front ++ [c]) h
      rw [List.getLast?_concat, List.append_assoc, List.length_append] at ih
      exact (hnext later').trans ih
    have hmatch := hpattern.matchAt?_crlf front (c :: rest)
    rw [hcrlf] at hmatch ⊢
    rw [findFrom, findFrom, hmatch]
    by_cases hlt : front.length < resume
    · rw [if_pos hlt, if_pos (hresume.here.mpr hlt)]
      exact ih hresume.next
    · rw [if_neg hlt, if_neg fun h => hlt (hresume.here.mp h)]
      cases hfound : pattern.matchAt? casing front.getLast? (c :: rest)
          front.length with
      | none => exact ih hresume.next
      | some found =>
        obtain ⟨piece, back, hrest, hstop, -⟩ := finds_of_matchAt? hfound
        have hle : found.stop ≤ (front ++ c :: rest).length := by
          rw [hstop, hrest, List.length_append, List.length_append]
          omega
        exact congrArg (found.crlf (front ++ c :: rest) :: ·)
          (ih (SameResume.found hle))

/-- A search finds the same matches. -/
theorem LineNeutral.findAll_crlf (text : List Char) :
    pattern.findAll casing (Text.crlf text) =
      (pattern.findAll casing text).map (·.crlf text) :=
  hpattern.findFrom_crlf [] text fun _ _ _ => by simp

/-! ## What is asked of a search -/

theorem LineNeutral.count_crlf (text : List Char) :
    pattern.count casing (Text.crlf text) = pattern.count casing text := by
  rw [count, count, hpattern.findAll_crlf, List.length_map]

theorem LineNeutral.captures_crlf (text : List Char) :
    pattern.captures casing (Text.crlf text) =
      (pattern.captures casing text).map Text.crlf := by
  rw [captures, captures, hpattern.findAll_crlf, List.filterMap_map,
    List.map_filterMap]
  congr 1
  funext found
  exact found.group?_crlf text 1

end

/-- A pattern occurs exactly if a search finds something. -/
theorem occursFrom_eq_findFrom (before : Option Char) {offset resume : Nat}
    (text : List Char) (hresume : resume ≤ offset) :
    pattern.occursFrom casing before offset text =
      !(pattern.findFrom casing before offset resume text).isEmpty := by
  induction text generalizing before offset with
  | nil =>
    rw [occursFrom, findFrom, if_neg (by omega)]
    cases pattern.matchAt? casing before [] offset <;> rfl
  | cons c text ih =>
    rw [occursFrom, findFrom, if_neg (by omega)]
    cases pattern.matchAt? casing before (c :: text) offset with
    | none => exact ih (Option.some c) (by omega)
    | some found => rfl

theorem occursIn_eq_findAll (text : List Char) :
    pattern.occursIn casing text = !(pattern.findAll casing text).isEmpty :=
  occursFrom_eq_findFrom none text (Nat.le_refl 0)

/-- Something is counted exactly if the pattern occurs. -/
theorem count_ne_zero_iff (text : List Char) :
    pattern.count casing text ≠ 0 ↔ pattern.occursIn casing text = true := by
  rw [occursIn_eq_findAll, count, ne_eq, List.length_eq_zero_iff, Bool.not_eq_true',
    List.isEmpty_eq_false_iff]

theorem LineNeutral.occursIn_crlf (hpattern : pattern.LineNeutral casing)
    (text : List Char) :
    pattern.occursIn casing (Text.crlf text) = pattern.occursIn casing text := by
  rw [occursIn_eq_findAll, occursIn_eq_findAll, hpattern.findAll_crlf, List.isEmpty_map]

/-- Behind a character of a class, the pattern may stand right behind a line
end. -/
theorem LineNeutral.occursIn_behind_crlf (hpattern : pattern.LineNeutral casing)
    (cls : CharClass) (text : List Char) :
    (alt textStart (one cls) ++ pattern).occursIn casing (Text.crlf text) =
      (alt textStart (one cls) ++ pattern).occursIn casing text := by
  have hsome (front rest : List Char) :
      (pattern.matchAt? casing front.getLast? (Text.crlf rest)
          (Text.crlf front).length).isSome =
        (pattern.matchAt? casing front.getLast? rest front.length).isSome := by
    rw [hpattern.matchAt?_crlf, Option.isSome_map]
  rw [Bool.eq_iff_iff, occursIn_behind_iff, occursIn_behind_iff]
  constructor
  · rintro ⟨front, rest, hcut, hlast, hfound⟩
    rcases cut_crlf hcut with
      ⟨front, rest, htext, rfl, rfl⟩ | ⟨front, rest, htext, rfl, rfl⟩
    · rw [getLast?_crlf] at hlast hfound
      exact ⟨front, rest, htext, hlast, (hsome front rest).symm.trans hfound⟩
    · rw [List.getLast?_concat, List.length_append,
        List.length_singleton, hpattern.matchAt?_midway] at hfound
      cases hfound
  · rintro ⟨front, rest, rfl, hlast, hfound⟩
    refine ⟨Text.crlf front, Text.crlf rest, crlf_append front rest, ?_, ?_⟩
    · rwa [getLast?_crlf]
    · rwa [getLast?_crlf, hsome]

end Pattern

/-! ## Delimited bodies -/

theorem Delimiters.body_crlf {d : Delimiters}
    (hd : Text.OnLine [d.opening, d.closing]) (inner : Nat) (text : List Char) :
    d.body inner (Text.crlf text) = Text.crlf (d.body inner text) := by
  have hcr : '\r' ≠ d.opening ∧ '\r' ≠ d.closing := by
    simpa using hd.1
  have hlf : '\n' ≠ d.opening ∧ '\n' ≠ d.closing := by
    simpa using hd.2
  induction text using crlf_induction generalizing inner with
  | nil => rfl
  | lineEnd text ih =>
    simp only [crlf_lineEnd, body, if_neg hcr.1, if_neg hcr.2, if_neg hlf.1,
      if_neg hlf.2, ih]
  | cons c text hc ih =>
    simp only [crlf_cons hc, body]
    by_cases hopening : c = d.opening
    · rw [if_pos hopening, if_pos hopening, ih, crlf_cons hc]
    rw [if_neg hopening, if_neg hopening]
    by_cases hclosing : c = d.closing
    · rw [if_pos hclosing, if_pos hclosing]
      cases inner with
      | zero => rfl
      | succ inner => simp only [ih, crlf_cons hc]
    · rw [if_neg hclosing, if_neg hclosing, ih, crlf_cons hc]

theorem Pattern.LineNeutral.bodiesAfter_crlf {opener : Pattern} {casing : Casing}
    (hopener : opener.LineNeutral casing) {d : Delimiters}
    (hd : Text.OnLine [d.opening, d.closing]) (text : List Char) :
    opener.bodiesAfter casing d (Text.crlf text) =
      (opener.bodiesAfter casing d text).map Text.crlf := by
  rw [bodiesAfter, bodiesAfter, hopener.findAll_crlf, List.map_map, List.map_map]
  congr 1
  funext found
  exact Delimiters.body_crlf hd 0 found.after

end Preflight
