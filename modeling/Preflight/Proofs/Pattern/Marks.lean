import Preflight.Proofs.Pattern.Scan

/-!
# Patterns that begin with a mark

A mark is a character that every match has to begin with, such as the `@` of a
decorator or the quote of a literal.

* `Marked.silent`: where no mark stands, no match starts.
* `Anchored.mem_findAll_iff`: where a match holds no mark but its first character,
  matches do not overlap, so a search misses none of them.  `Anchored.places`
  lists what is kept of them with the places where they start.
-/

namespace Preflight.Pattern

variable {casing : Casing} {pattern : Pattern} {mark : Char → Prop}
  {front piece rest back text : List Char} {found : Match}

/-- Every piece that the pattern finds begins with a mark. -/
def Marked (casing : Casing) (mark : Char → Prop) (pattern : Pattern) : Prop :=
  ∀ front piece back, pattern.Finds casing front piece back →
    ∃ c tail, piece = c :: tail ∧ mark c

theorem Marked.solid (h : pattern.Marked casing mark) : pattern.Solid casing := by
  intro front back hfinds
  obtain ⟨c, tail, hnil, -⟩ := h front [] back hfinds
  cases hnil

/-- Where no mark stands, no match starts. -/
theorem Marked.silent (h : pattern.Marked casing mark)
    (hpiece : ∀ c ∈ piece, ¬mark c) (front back : List Char) :
    pattern.Silent casing front piece back := by
  intro skipped rest hsplit hne left right hrest hfinds
  obtain ⟨c, tail, rfl, hc⟩ := h _ _ _ hfinds
  cases rest with
  | nil => exact hne rfl
  | cons d rest =>
    obtain ⟨rfl, -⟩ := List.cons.inj hrest
    refine hpiece d ?_ hc
    rw [hsplit]
    exact List.mem_append_right _ List.mem_cons_self

/-! ## Where a search finds something -/

/-- What a search finds is what it takes at some place of the text. -/
theorem exists_matchAt?_of_mem_findFrom {resume : Nat}
    (h : found ∈ pattern.findFrom casing front.getLast? front.length resume rest) :
    ∃ skipped more, rest = skipped ++ more ∧
      pattern.matchAt? casing (front ++ skipped).getLast? more
        (front ++ skipped).length = Option.some found := by
  induction rest generalizing front resume with
  | nil =>
    rw [findFrom] at h
    split at h
    · cases h
    · refine ⟨[], [], rfl, ?_⟩
      rw [List.append_nil]
      exact Option.mem_toList.mp h
  | cons c rest ih =>
    have hlater {resume : Nat}
        (h : found ∈ pattern.findFrom casing (Option.some c) (front.length + 1)
          resume rest) :
        ∃ skipped more, c :: rest = skipped ++ more ∧
          pattern.matchAt? casing (front ++ skipped).getLast? more
            (front ++ skipped).length = Option.some found := by
      have ih := @ih (front ++ [c]) resume
      rw [List.getLast?_concat, List.length_append] at ih
      obtain ⟨skipped, more, rfl, hmatch⟩ := ih h
      rw [List.append_assoc] at hmatch
      exact ⟨c :: skipped, more, rfl, hmatch⟩
    rw [findFrom] at h
    split at h
    · exact hlater h
    split at h
    · exact hlater h
    · rename_i hmatch
      rcases List.mem_cons.mp h with rfl | h
      · refine ⟨[], c :: rest, rfl, ?_⟩
        rwa [List.append_nil]
      · exact hlater h

theorem exists_matchAt?_of_mem_findAll (h : found ∈ pattern.findAll casing text) :
    ∃ front rest, text = front ++ rest ∧
      pattern.matchAt? casing front.getLast? rest front.length =
        Option.some found :=
  @exists_matchAt?_of_mem_findFrom casing pattern [] text found 0 h

/-! ## Matches that do not overlap -/

/-- Every piece that the pattern finds begins with a mark and holds no other one. -/
def Anchored (casing : Casing) (mark : Char → Prop) (pattern : Pattern) : Prop :=
  ∀ front piece back, pattern.Finds casing front piece back →
    ∃ c tail, piece = c :: tail ∧ mark c ∧ ∀ d ∈ tail, ¬mark d

theorem Anchored.marked (h : pattern.Anchored casing mark) :
    pattern.Marked casing mark := by
  intro front piece back hfinds
  obtain ⟨c, tail, hpiece, hc, -⟩ := h front piece back hfinds
  exact ⟨c, tail, hpiece, hc⟩

/-- Wherever the pattern finds a piece, a match of the trail starts: no match goes
on over the first character of another one. -/
theorem Trail.exists_start {trail : List Match}
    (h : Trail casing pattern front rest trail)
    (hanchored : pattern.Anchored casing mark) {skipped : List Char}
    (hrest : rest = skipped ++ (piece ++ back))
    (hfinds : pattern.Finds casing (front ++ skipped) piece back) :
    ∃ found ∈ trail, found.start = (front ++ skipped).length := by
  obtain ⟨c, tail, rfl, hc, -⟩ := hanchored _ _ _ hfinds
  induction h generalizing skipped with
  | done hsilent =>
    refine absurd hfinds (hsilent skipped _ hrest (List.cons_ne_nil _ _) _ back ?_)
    rw [List.append_nil]
  | @next front silent match' behind found more hsilent hcuts hmatch _ ih =>
    obtain ⟨d, inside, rfl, -, hinside⟩ := hanchored _ _ _ hmatch
    rcases List.append_eq_append_iff.mp hrest
      with ⟨between, rfl, hbetween⟩ | ⟨between, rfl, hbetween⟩
    · rcases List.append_eq_append_iff.mp hbetween
        with ⟨later, rfl, hlater⟩ | ⟨later, hlater, hsplit⟩
      · -- The piece stands behind the first match.
        rw [← List.append_assoc, ← List.append_assoc] at hfinds ⊢
        obtain ⟨found', hfound', hstart⟩ := ih hlater hfinds
        exact ⟨found', List.mem_cons_of_mem found hfound', hstart⟩
      cases between with
      | nil =>
        rw [List.append_nil]
        exact ⟨found, List.mem_cons_self, hcuts.start⟩
      | cons e between =>
        cases later with
        | nil =>
          rw [List.append_nil] at hlater
          rw [← hlater, ← List.append_assoc] at hfinds ⊢
          have hnext := @ih [] hsplit.symm
          rw [List.append_nil] at hnext
          obtain ⟨found', hfound', hstart⟩ := hnext hfinds
          exact ⟨found', List.mem_cons_of_mem found hfound', hstart⟩
        | cons x later =>
          -- The piece would begin inside of the first match, with a mark.
          obtain ⟨rfl, -⟩ := List.cons.inj hsplit
          obtain ⟨rfl, hcovered⟩ := List.cons.inj hlater
          refine absurd hc (hinside c ?_)
          rw [hcovered]
          exact List.mem_append_right _ List.mem_cons_self
    · cases between with
      | nil =>
        rw [List.append_nil] at hcuts
        exact ⟨found, List.mem_cons_self, hcuts.start⟩
      | cons e between =>
        exact absurd hfinds
          (hsilent skipped _ rfl (List.cons_ne_nil _ _) _ back hbetween.symm)

/-- A search finds all matches that there are. -/
theorem Anchored.mem_findAll_iff (hanchored : pattern.Anchored casing mark) :
    found ∈ pattern.findAll casing text ↔ ∃ front rest, text = front ++ rest ∧
      pattern.matchAt? casing front.getLast? rest front.length =
        Option.some found := by
  refine ⟨exists_matchAt?_of_mem_findAll, ?_⟩
  rintro ⟨front, rest, rfl, hmatch⟩
  obtain ⟨piece, back, rfl, hcuts, hfinds⟩ := cuts_of_matchAt? hmatch
  obtain ⟨other, hother, hstart⟩ :=
    (hanchored.marked.solid.trail_findAll _).exists_start hanchored rfl hfinds
  obtain ⟨front', rest', hsplit, hmatch'⟩ := exists_matchAt?_of_mem_findAll hother
  obtain ⟨_, _, -, hcuts', -⟩ := cuts_of_matchAt? hmatch'
  have hlength : front.length = front'.length := by
    rw [← hcuts'.start, hstart]
    rfl
  obtain ⟨rfl, rfl⟩ := List.append_inj hsplit hlength
  rw [Option.some.inj (hmatch.symm.trans hmatch')]
  exact hother

/-- The place where a search takes a piece is the place where the match starts, and
the match goes on from there. -/
theorem Marked.start_of_matchAt? (h : pattern.Marked casing mark)
    (hmatch : pattern.matchAt? casing front.getLast? rest front.length =
      Option.some found) : found.start = front.length ∧ found.start < found.stop := by
  obtain ⟨piece, back, -, hcuts, hfinds⟩ := cuts_of_matchAt? hmatch
  obtain ⟨c, tail, rfl, -⟩ := h _ _ _ hfinds
  refine ⟨hcuts.start, ?_⟩
  rw [hcuts.start, hcuts.stop, List.length_cons]
  omega

/-- What is kept of the matches, by the places where they start.  Every match is
looked at, and none twice. -/
theorem Anchored.places {α : Type} (hanchored : pattern.Anchored casing mark)
    (keeps : Match → Option α) (text : List Char) :
    ∃ kept : List (Nat × α), kept.Pairwise (fun first second => first.1 < second.1) ∧
      (∀ start a, (start, a) ∈ kept ↔ ∃ front rest found, text = front ++ rest ∧
        front.length = start ∧ keeps found = Option.some a ∧
        pattern.matchAt? casing front.getLast? rest front.length =
          Option.some found) ∧
      (pattern.findAll casing text).filterMap keeps = kept.map (·.2) := by
  have hstart {front rest : List Char} {found : Match}
      (h : pattern.matchAt? casing front.getLast? rest front.length =
        Option.some found) := hanchored.marked.start_of_matchAt? h
  have hsorted : (pattern.findAll casing text).Pairwise
      fun first second => first.start < second.start := by
    refine (hanchored.marked.solid.trail_findAll text).pairwise.imp_of_mem ?_
    intro first second hfirst _ hle
    obtain ⟨_, _, -, hmatch⟩ := exists_matchAt?_of_mem_findAll hfirst
    exact Nat.lt_of_lt_of_le (hstart hmatch).2 hle
  refine ⟨(pattern.findAll casing text).filterMap fun found =>
    (keeps found).map (found.start, ·), ?_, ?_, ?_⟩
  · refine hsorted.filterMap _ fun first second hlt _ hfirst _ hsecond => ?_
    obtain ⟨a, -, rfl⟩ := Option.map_eq_some_iff.mp hfirst
    obtain ⟨b, -, rfl⟩ := Option.map_eq_some_iff.mp hsecond
    exact hlt
  · intro start a
    rw [List.mem_filterMap]
    constructor
    · rintro ⟨found, hfound, hkept⟩
      obtain ⟨b, hkeeps, hentry⟩ := Option.map_eq_some_iff.mp hkept
      obtain ⟨rfl, rfl⟩ := Prod.mk.inj hentry
      obtain ⟨front, rest, hsplit, hmatch⟩ := exists_matchAt?_of_mem_findAll hfound
      exact ⟨front, rest, found, hsplit, (hstart hmatch).1.symm, hkeeps, hmatch⟩
    · rintro ⟨front, rest, found, hsplit, rfl, hkeeps, hmatch⟩
      refine ⟨found, hanchored.mem_findAll_iff.mpr ⟨front, rest, hsplit, hmatch⟩, ?_⟩
      rw [hkeeps, Option.map_some, (hstart hmatch).1]
  · rw [List.map_filterMap]
    refine List.filterMap_congr fun found _ => ?_
    cases keeps found with
    | none => rfl
    | some a => rfl

end Preflight.Pattern
