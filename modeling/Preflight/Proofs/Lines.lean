import Preflight.Text.Lines

/-!
# Lines and parts of a text that is put together

* `trim_eq`: white space at either end is taken off.
* `lines_append_cons`, `lines_of_notMem`: the first line of a text, by its first line end.
* `lines_append`: behind a line end, the lines are those of the rest.
* `lines_append_lineEnd`: a line end at the end of a text adds no line.
-/

namespace Preflight.Text

/-! ## Parts -/

theorem mem_intercalate {α : Type} {a : α} {glue : List α} {parts : List (List α)}
    (h : a ∈ glue.intercalate parts) : a ∈ glue ∨ ∃ part ∈ parts, a ∈ part := by
  induction parts with
  | nil => exact absurd h List.not_mem_nil
  | cons part parts ih =>
    cases parts with
    | nil =>
      refine .inr ⟨part, List.mem_cons_self, ?_⟩
      rwa [List.intercalate_singleton] at h
    | cons next more =>
      rw [List.intercalate_cons_cons, List.append_assoc, List.mem_append,
        List.mem_append] at h
      rcases h with h | h | h
      · exact .inr ⟨part, List.mem_cons_self, h⟩
      · exact .inl h
      · exact (ih h).imp_right fun ⟨part', hmem, ha⟩ =>
          ⟨part', List.mem_cons_of_mem part hmem, ha⟩

/-- A run is dropped up to where it stops. -/
theorem dropWhile_append_eq {α : Type} {p : α → Bool} {run rest : List α}
    (hrun : ∀ a ∈ run, p a = true) (hrest : ∀ a ∈ rest.head?, p a = false) :
    (run ++ rest).dropWhile p = rest := by
  rw [List.dropWhile_append_of_pos hrun]
  cases rest with
  | nil => rfl
  | cons a rest => exact List.dropWhile_cons_of_neg (Bool.eq_false_iff.mp (hrest a rfl))

/-- A run is taken up to where it stops. -/
theorem takeWhile_append_eq {α : Type} {p : α → Bool} {run rest : List α}
    (hrun : ∀ a ∈ run, p a = true) (hrest : ∀ a ∈ rest.head?, p a = false) :
    (run ++ rest).takeWhile p = run := by
  rw [List.takeWhile_append_of_pos hrun]
  cases rest with
  | nil => exact List.append_nil run
  | cons a rest =>
    rw [List.takeWhile_cons_of_neg (Bool.eq_false_iff.mp (hrest a rfl)), List.append_nil]

/-- A list is a run of what is asked for, and the rest does not go on with it. -/
theorem exists_run {α : Type} (p : α → Bool) (as : List α) :
    ∃ run, as = run ++ as.dropWhile p ∧ (∀ a ∈ run, p a = true) ∧
      ∀ a ∈ (as.dropWhile p).head?, p a = false := by
  refine ⟨as.takeWhile p, List.takeWhile_append_dropWhile.symm, ?_, fun a ha => ?_⟩
  · exact List.all_eq_true.mp List.all_takeWhile
  · have hstop := List.head?_dropWhile_not p as
    rw [Option.mem_def.mp ha] at hstop
    exact hstop

/-- White space at either end is taken off. -/
theorem trim_eq {before s behind : List Char}
    (hbefore : ∀ c ∈ before, isSpace c = true)
    (hbehind : ∀ c ∈ behind, isSpace c = true) (hhead : ∀ c ∈ s.head?, isSpace c = false)
    (hlast : ∀ c ∈ s.getLast?, isSpace c = false) (hne : s ≠ []) :
    trim (before ++ (s ++ behind)) = s := by
  have hstart : trimStart (before ++ (s ++ behind)) = s ++ behind := by
    refine dropWhile_append_eq hbefore fun c hc => hhead c ?_
    cases s with
    | nil => exact absurd rfl hne
    | cons d s => exact hc
  have hend : ((s ++ behind).reverse).dropWhile isSpace = s.reverse := by
    rw [List.reverse_append]
    refine dropWhile_append_eq (fun c hc => hbehind c (List.mem_reverse.mp hc))
      fun c hc => hlast c ?_
    rwa [List.head?_reverse] at hc
  rw [trim, hstart, trimEnd, hend, List.reverse_reverse]

/-! ## Lines -/

theorem linesFrom_lineEnd (current rest : List Char) :
    linesFrom current ('\n' :: rest) = finished current :: linesFrom [] rest := by
  rw [linesFrom.eq_def]
  rfl

theorem linesFrom_cons {c : Char} (hc : c ≠ '\n') (current rest : List Char) :
    linesFrom current (c :: rest) = linesFrom (c :: current) rest := by
  rw [linesFrom.eq_def]
  exact if_neg hc

theorem finished_cons {c : Char} (hc : c ≠ '\r') (current : List Char) :
    finished (c :: current) = (c :: current).reverse := by
  rw [finished]
  rintro line ⟨⟩
  exact hc rfl

theorem linesFrom_of_notMem {line : List Char} (h : '\n' ∉ line)
    (current rest : List Char) :
    linesFrom current (line ++ rest) = linesFrom (line.reverse ++ current) rest := by
  induction line generalizing current with
  | nil => rfl
  | cons c line ih =>
    rw [List.mem_cons, not_or] at h
    rw [List.cons_append, linesFrom_cons (Ne.symm h.1), ih h.2, List.reverse_cons,
      List.append_assoc, List.singleton_append]

theorem lines_append_cons {line : List Char} (h : '\n' ∉ line) (rest : List Char) :
    lines (line ++ '\n' :: rest) = finished line.reverse :: lines rest := by
  rw [lines, linesFrom_of_notMem h, linesFrom_lineEnd, List.append_nil]
  rfl

theorem lines_of_notMem {line : List Char} (h : '\n' ∉ line) (hne : line ≠ []) :
    lines line = [line] := by
  have hlines := linesFrom_of_notMem h [] []
  rw [List.append_nil, List.append_nil, linesFrom, if_neg] at hlines
  · rw [lines, hlines, List.reverse_reverse]
  · rwa [List.isEmpty_iff, List.reverse_eq_nil_iff]

theorem lines_ne_nil {text : List Char} (hne : text ≠ []) : lines text ≠ [] := by
  by_cases hmem : '\n' ∈ text
  · obtain ⟨line, rest, rfl, hline⟩ := List.eq_append_cons_of_mem hmem
    rw [lines_append_cons hline]
    exact List.cons_ne_nil _ _
  · rw [lines_of_notMem hmem hne]
    exact List.cons_ne_nil _ _

/-- Behind a line end, the lines are those of the rest. -/
theorem lines_append {text : List Char} (h : text.getLast? = some '\n')
    (rest : List Char) : lines (text ++ rest) = lines text ++ lines rest := by
  have hfrom (current : List Char) :
      linesFrom current (text ++ rest) = linesFrom current text ++ linesFrom [] rest := by
    induction text generalizing current with
    | nil => cases h
    | cons c text ih =>
      cases text with
      | nil =>
        obtain rfl : c = '\n' := Option.some.inj h
        rw [List.singleton_append, linesFrom_lineEnd, linesFrom_lineEnd]
        rfl
      | cons d text =>
        rw [List.getLast?_cons_cons] at h
        by_cases hc : c = '\n'
        · rw [hc, List.cons_append, linesFrom_lineEnd, linesFrom_lineEnd, ih h,
            List.cons_append]
        · rw [List.cons_append, linesFrom_cons hc, linesFrom_cons hc, ih h]
  exact hfrom []

/-- A line end closes the last line. -/
theorem lines_append_lineEnd {text : List Char} {c : Char} (hlast : text.getLast? = some c)
    (hc : c ≠ '\n' ∧ c ≠ '\r') {lineEnd : List Char}
    (hend : lineEnd = ['\n'] ∨ lineEnd = ['\r', '\n']) : lines (text ++ lineEnd) = lines text := by
  have hfrom (current : List Char) :
      linesFrom current (text ++ lineEnd) = linesFrom current text := by
    induction text generalizing current with
    | nil => cases hlast
    | cons d text ih =>
      cases text with
      | nil =>
        obtain rfl : d = c := Option.some.inj hlast
        have hline : linesFrom current [d] = [(d :: current).reverse] := by
          rw [linesFrom_cons hc.1]
          rfl
        rw [hline, List.singleton_append, linesFrom_cons hc.1]
        rcases hend with rfl | rfl
        · rw [linesFrom_lineEnd, finished_cons hc.2]
          rfl
        · rw [linesFrom_cons (by decide), linesFrom_lineEnd]
          rfl
      | cons e text =>
        rw [List.getLast?_cons_cons] at hlast
        by_cases hd : d = '\n'
        · rw [hd, List.cons_append, linesFrom_lineEnd, linesFrom_lineEnd, ih hlast]
        · rw [List.cons_append, linesFrom_cons hd, linesFrom_cons hd, ih hlast]
  exact hfrom []

/-- A line is a part of the text up to its line end. -/
theorem exists_append_finished (line : List Char) :
    ∃ more, line = finished line.reverse ++ more ∧ (more = [] ∨ more = ['\r']) := by
  rcases List.eq_nil_or_concat line with rfl | ⟨init, c, rfl⟩
  · exact ⟨[], rfl, .inl rfl⟩
  rw [List.concat_eq_append, List.reverse_append, List.reverse_singleton,
    List.singleton_append]
  by_cases hc : c = '\r'
  · refine ⟨['\r'], ?_, .inr rfl⟩
    rw [hc, finished, List.reverse_reverse]
  · refine ⟨[], ?_, .inl rfl⟩
    rw [finished_cons hc, List.append_nil, List.reverse_cons, List.reverse_reverse]

end Preflight.Text
