import Preflight.Proofs.AddedLines.Pattern

/-!
# Searches that stay in their line

A pattern that never passes a line end does not see what stands in the lines
around a text: at every place, its matches end where they did, in the same order
(`ends_amid`).  A match in the lines above ends before the text starts, so the
search comes to the text as if it started there.

`findAll_amid`: the search finds all that it found in the text, with the same
groups, and further matches before and behind.
-/

namespace Preflight

/-- The same match in a text that has been put amid lines. -/
def Match.amid (above below : List Char) (found : Match) : Match where
  start := found.start + (above.length + 1)
  stop := found.stop + (above.length + 1)
  groups := found.groups.map (·.shift (above.length + 1))
  after := found.after ++ '\n' :: below

namespace Pattern

variable {casing : Casing} (above below : List Char)

/-- No match of the pattern passes a line end.  Repetitions of patterns and the
start of the text are left out. -/
def staysInLine (casing : Casing) : Pattern → Bool
  | one cls | run cls => !cls.accepts casing '\n'
  | seq first second | alt first second =>
    first.staysInLine casing && second.staysInLine casing
  | group _ body => body.staysInLine casing
  | empty | wordBoundary | lineStart => true
  | textStart | star _ => false

/-! ## Matching at a place -/

theorem step?_amid_of_lineEnd {ok : Char → Bool} (hok : ok '\n' = false)
    (p : Place) :
    (p.amid above below).step? ok = (p.step? ok).map (·.amid above below) := by
  cases hstep : p.step? ok with
  | some q => exact Place.step?_amid hstep
  | none =>
    obtain ⟨before, rest, offset, groups⟩ := p
    cases rest with
    | nil => simp [Place.step?, Place.amid, hok]
    | cons c rest =>
      simp only [Place.step?, ite_eq_right_iff, reduceCtorEq] at hstep
      simp [Place.step?, Place.amid, Bool.eq_false_iff.mpr hstep]

theorem runEnds_amid {ok : Char → Bool} (hok : ok '\n' = false)
    (before : Option Char) (offset : Nat) (groups : List Group)
    (found : List Place) (rest : List Char) :
    runEnds ok (Option.some (before.getD '\n')) (offset + (above.length + 1))
        (groups.map (·.shift (above.length + 1)))
        (found.map (·.amid above below)) (rest ++ '\n' :: below) =
      (runEnds ok before offset groups found rest).map (·.amid above below) := by
  induction rest generalizing before offset found with
  | nil =>
    rw [List.nil_append, runEnds, runEnds, hok]
    rfl
  | cons c rest ih =>
    rw [List.cons_append, runEnds, runEnds]
    by_cases hc : ok c = true
    · rw [if_pos hc, if_pos hc, ← ih, Nat.add_right_comm offset 1]
      rfl
    · rw [if_neg hc, if_neg hc]
      rfl

/-- Amid the lines, matches end where they did. -/
theorem ends_amid {pattern : Pattern}
    (hpattern : pattern.staysInLine casing = true) (p : Place) :
    pattern.ends casing (p.amid above below) =
      (pattern.ends casing p).map (·.amid above below) := by
  induction pattern generalizing p with
  | empty => rfl
  | one cls =>
    have hcls : cls.accepts casing '\n' = false := by
      simpa [staysInLine] using hpattern
    rw [ends, ends, step?_amid_of_lineEnd above below hcls]
    cases p.step? (cls.accepts casing) <;> rfl
  | run cls =>
    have hcls : cls.accepts casing '\n' = false := by
      simpa [staysInLine] using hpattern
    exact runEnds_amid above below hcls p.before p.offset p.groups [] p.rest
  | wordBoundary =>
    rw [ends, ends, Place.atWordBoundary_amid]
    split <;> rfl
  | lineStart =>
    rw [ends, ends, Place.atLineStart_amid]
    split <;> rfl
  | textStart | star body => cases hpattern
  | seq first second ihFirst ihSecond =>
    obtain ⟨hfirst, hsecond⟩ := Bool.and_eq_true_iff.mp hpattern
    rw [ends, ends, ihFirst hfirst, List.flatMap_map, List.map_flatMap]
    simp only [ihSecond hsecond]
  | alt first second ihFirst ihSecond =>
    obtain ⟨hfirst, hsecond⟩ := Bool.and_eq_true_iff.mp hpattern
    rw [ends, ends, ihFirst hfirst, ihSecond hsecond, List.map_append]
  | group index body ih =>
    rw [ends, ends, ih hpattern, List.map_map, List.map_map]
    rfl

/-- A match goes no further than to the end of its line. -/
theorem Matches.piece_inLine {pattern : Pattern} {p q : Place}
    (hpattern : pattern.staysInLine casing = true)
    (h : Matches casing pattern p q) :
    ∃ piece, p.Leads piece q ∧ '\n' ∉ piece := by
  have hstep {cls : CharClass} {p q : Place}
      (hcls : (!cls.accepts casing '\n') = true)
      (h : p.step? (cls.accepts casing) = Option.some q) :
      ∃ c, p.Leads [c] q ∧ '\n' ∉ [c] := by
    obtain ⟨c, hc, hleads, -⟩ := Place.Leads.of_step? h
    refine ⟨c, hleads, fun hmem => ?_⟩
    rw [← List.mem_singleton.mp hmem] at hc
    rw [hc] at hcls
    cases hcls
  induction h with
  | empty p | runStop p => exact ⟨[], .nil p p.groups, List.not_mem_nil⟩
  | one h =>
    obtain ⟨c, hleads, hc⟩ := hstep hpattern h
    exact ⟨[c], hleads, hc⟩
  | runStep h _ ih =>
    obtain ⟨c, hleads, hc⟩ := hstep hpattern h
    obtain ⟨piece, hrest, hpiece⟩ := ih hpattern
    exact ⟨[c] ++ piece, hleads.trans hrest, by simp_all⟩
  | wordBoundary _ | lineStart _ => exact ⟨[], .nil _ _, List.not_mem_nil⟩
  | textStart _ | starStop _ | starStep _ _ _ _ => cases hpattern
  | seq _ _ ihLeft ihRight =>
    obtain ⟨hfirst, hsecond⟩ := Bool.and_eq_true_iff.mp hpattern
    obtain ⟨piece, hleft, hpiece⟩ := ihLeft hfirst
    obtain ⟨more, hright, hmore⟩ := ihRight hsecond
    exact ⟨piece ++ more, hleft.trans hright, by simp_all⟩
  | altFirst _ ih => exact ih (Bool.and_eq_true_iff.mp hpattern).1
  | altSecond _ ih => exact ih (Bool.and_eq_true_iff.mp hpattern).2
  | group _ ih =>
    obtain ⟨piece, hleads, hpiece⟩ := ih hpattern
    exact ⟨piece, ⟨hleads.rest, hleads.before, hleads.offset⟩, hpiece⟩

/-! ## Searching -/

theorem matchAt?_amid {pattern : Pattern}
    (hpattern : pattern.staysInLine casing = true) (before : Option Char)
    (rest : List Char) (offset : Nat) :
    pattern.matchAt? casing (Option.some (before.getD '\n'))
        (rest ++ '\n' :: below) (offset + (above.length + 1)) =
      (pattern.matchAt? casing before rest offset).map
        (·.amid above below) := by
  have hends := ends_amid above below hpattern ⟨before, rest, offset, []⟩
  simp only [Place.amid, List.map_nil] at hends
  rw [matchAt?, matchAt?, hends, List.head?_map, Option.map_map, Option.map_map]
  rfl

/-- A match that is found in a line stops in the line. -/
theorem stop_le_of_matchAt? {pattern : Pattern}
    (hpattern : pattern.staysInLine casing = true) {before : Option Char}
    (line : List Char) {rest : List Char} {offset : Nat} {found : Match}
    (h : pattern.matchAt? casing before (line ++ '\n' :: rest) offset =
      Option.some found) :
    found.stop ≤ offset + line.length := by
  obtain ⟨q, hq, rfl⟩ := Option.map_eq_some_iff.mp h
  obtain ⟨piece, hleads, hpiece⟩ :=
    (matches_of_mem_ends (List.mem_of_mem_head? hq)).piece_inLine hpattern
  have hrest : line ++ '\n' :: rest = piece ++ q.rest := hleads.rest
  have hstop : q.offset = offset + piece.length := hleads.offset
  rcases List.append_eq_append_iff.mp hrest with
    ⟨more, rfl, hmore⟩ | ⟨more, rfl, -⟩
  · cases more with
    | nil => simp [hstop]
    | cons c more =>
      obtain ⟨rfl, -⟩ := List.cons.inj hmore
      simp at hpiece
  · simp [hstop]

/-- The search through a line comes to the next line in time for all that starts
there. -/
theorem findFrom_line {pattern : Pattern}
    (hpattern : pattern.staysInLine casing = true) (before : Option Char)
    (offset : Nat) {resume : Nat} (line rest : List Char)
    (hresume : resume ≤ offset + (line.length + 1)) :
    ∃ found, ∃ resume' ≤ offset + (line.length + 1),
      pattern.findFrom casing before offset resume (line ++ '\n' :: rest) =
        found ++ pattern.findFrom casing (Option.some '\n')
          (offset + (line.length + 1)) resume' rest := by
  induction line generalizing before offset resume with
  | nil =>
    rw [List.nil_append, findFrom]
    by_cases hlt : offset < resume
    · rw [if_pos hlt]
      exact ⟨[], resume, hresume, rfl⟩
    · rw [if_neg hlt]
      cases hfound : pattern.matchAt? casing before ('\n' :: rest) offset with
      | none => exact ⟨[], resume, hresume, rfl⟩
      | some found =>
        have hstop := stop_le_of_matchAt? hpattern [] hfound
        refine ⟨[found], max found.stop (offset + 1), ?_, rfl⟩
        simp only [List.length_nil] at hstop ⊢
        omega
  | cons c line ih =>
    have ih {later : Nat} := @ih (Option.some c) (offset + 1) later
    rw [List.length_cons] at hresume ⊢
    rw [Nat.add_right_comm offset 1, Nat.add_assoc offset] at ih
    rw [List.cons_append, findFrom]
    by_cases hlt : offset < resume
    · rw [if_pos hlt]
      exact ih hresume
    · rw [if_neg hlt]
      cases hfound : pattern.matchAt? casing before (c :: (line ++ '\n' :: rest))
          offset with
      | none => exact ih hresume
      | some found =>
        have hstop := stop_le_of_matchAt? hpattern (c :: line) hfound
        rw [List.length_cons] at hstop
        have hlater : max found.stop (offset + 1) ≤
            offset + (line.length + 1 + 1) := by
          omega
        obtain ⟨more, resume', hle, hmore⟩ := ih hlater
        exact ⟨found :: more, resume', hle, congrArg (found :: ·) hmore⟩

/-- The search that comes to a text in time finds all that it finds there, and
goes on with what is below. -/
theorem findFrom_amid {pattern : Pattern}
    (hpattern : pattern.staysInLine casing = true) (before : Option Char)
    (offset resume : Nat) {resume' : Nat} (text : List Char)
    (hresume : max resume' (offset + (above.length + 1)) =
      max resume offset + (above.length + 1)) :
    ∃ more,
      pattern.findFrom casing (Option.some (before.getD '\n'))
          (offset + (above.length + 1)) resume' (text ++ '\n' :: below) =
        (pattern.findFrom casing before offset resume text).map
          (·.amid above below) ++ more := by
  induction text generalizing before offset resume resume' with
  | nil =>
    rw [List.nil_append, findFrom, findFrom]
    by_cases hlt : offset < resume
    · rw [if_pos hlt, if_pos (by omega)]
      exact ⟨_, rfl⟩
    · have hfound := matchAt?_amid above below hpattern before [] offset
      rw [List.nil_append] at hfound
      rw [if_neg hlt, if_neg (by omega), hfound]
      cases pattern.matchAt? casing before [] offset with
      | none => exact ⟨_, rfl⟩
      | some found => exact ⟨_, rfl⟩
  | cons c text ih =>
    have ih (later : Nat) {later' : Nat} :=
      @ih (Option.some c) (offset + 1) later later'
    rw [Nat.add_right_comm offset 1] at ih
    have hfound := matchAt?_amid above below hpattern before (c :: text) offset
    rw [List.cons_append] at hfound ⊢
    rw [findFrom, findFrom]
    by_cases hlt : offset < resume
    · rw [if_pos hlt, if_pos (by omega)]
      exact ih resume (by omega)
    · rw [if_neg hlt, if_neg (by omega), hfound]
      cases pattern.matchAt? casing before (c :: text) offset with
      | none => exact ih resume (by omega)
      | some found =>
        have hlater : max (max (found.amid above below).stop
              (offset + (above.length + 1) + 1))
            (offset + (above.length + 1) + 1) =
              max (max found.stop (offset + 1)) (offset + 1) +
                (above.length + 1) := by
          simp only [Match.amid]
          omega
        obtain ⟨more, hmore⟩ := ih (max found.stop (offset + 1)) hlater
        exact ⟨more, congrArg (found.amid above below :: ·) hmore⟩

/-- Amid the lines, a search finds all that it found in the text. -/
theorem findAll_amid {pattern : Pattern}
    (hpattern : pattern.staysInLine casing = true) (text : List Char) :
    (pattern.findAll casing text).map (·.amid above below) <:+:
      pattern.findAll casing (Text.amid above below text) := by
  obtain ⟨found, resume, hle, hline⟩ := findFrom_line hpattern none 0 above
    (text ++ '\n' :: below) (Nat.zero_le _)
  obtain ⟨more, hmore⟩ := findFrom_amid above below hpattern none 0 0 text
    (by omega : max resume _ = _)
  refine ⟨found, more, ?_⟩
  rw [List.append_assoc]
  exact (congrArg (found ++ ·) hmore.symm).trans hline.symm

end Pattern

end Preflight
