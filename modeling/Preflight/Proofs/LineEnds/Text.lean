import Preflight.Proofs.LetterCase.Text
import Preflight.Proofs.Lines

/-!
# Texts with other line ends

`crlf` is a text with CR LF in the place of every LF, the way scripts come from
Windows.

* `contains_crlf`: a needle without line ends stands in both texts or in none.
* `lowercase_crlf`: the lower case of the text has other line ends, too.
* `lines_crlf`: the lines are the same.  Only here the text must have no CR of
  its own: one before an LF is taken off with it.
-/

namespace Preflight.Text

/-- The text with CR LF for every LF. -/
def crlf (text : List Char) : List Char :=
  text.flatMap fun c => if c = '\n' then ['\r', '\n'] else [c]

@[simp] theorem crlf_nil : crlf [] = [] := rfl

@[simp] theorem crlf_lineEnd (text : List Char) :
    crlf ('\n' :: text) = '\r' :: '\n' :: crlf text :=
  rfl

theorem crlf_cons {c : Char} (h : c ≠ '\n') (text : List Char) :
    crlf (c :: text) = c :: crlf text := by
  rw [crlf, List.flatMap_cons, if_neg h]
  rfl

@[simp] theorem crlf_append (text more : List Char) :
    crlf (text ++ more) = crlf text ++ crlf more :=
  List.flatMap_append

/-- Every text is empty, or starts with a line end, or with something else. -/
theorem crlf_induction {motive : List Char → Prop} (nil : motive [])
    (lineEnd : ∀ text, motive text → motive ('\n' :: text))
    (cons : ∀ c text, c ≠ '\n' → motive text → motive (c :: text))
    (text : List Char) : motive text := by
  induction text with
  | nil => exact nil
  | cons c text ih =>
    by_cases hc : c = '\n'
    · exact hc ▸ lineEnd text ih
    · exact cons c text hc ih

/-- A text on one line is as it was. -/
theorem crlf_eq_self {text : List Char} (h : '\n' ∉ text) : crlf text = text := by
  induction text using crlf_induction with
  | nil => rfl
  | lineEnd text ih => exact absurd List.mem_cons_self h
  | cons c text hc ih =>
    rw [crlf_cons hc, ih fun hmem => h (List.mem_cons_of_mem c hmem)]

/-- No characters come in but CR. -/
theorem mem_crlf_iff {c : Char} (hc : c ≠ '\r') {text : List Char} :
    c ∈ crlf text ↔ c ∈ text := by
  induction text using crlf_induction with
  | nil => rfl
  | lineEnd text ih => simp [hc, ih]
  | cons d text hd ih => simp [crlf_cons hd, ih]

/-- Texts on one line are the same with either line end. -/
theorem crlf_eq_iff {text line : List Char} (hline : '\n' ∉ line) :
    crlf text = line ↔ text = line := by
  constructor
  · intro h
    have htext : '\n' ∉ text := by rwa [← mem_crlf_iff (by decide), h]
    rwa [crlf_eq_self htext] at h
  · rintro rfl
    exact crlf_eq_self hline

@[simp] theorem getLast?_crlf (text : List Char) :
    (crlf text).getLast? = text.getLast? := by
  have hlast (c : Char) (text : List Char) :
      (crlf (text ++ [c])).getLast? = some c := by
    rw [crlf_append, List.getLast?_append]
    by_cases hc : c = '\n'
    · rw [hc]
      rfl
    · rw [crlf_cons hc]
      rfl
  rcases text.eq_nil_or_concat with rfl | ⟨text, c, rfl⟩
  · rfl
  · rw [List.concat_eq_append, hlast, List.getLast?_concat]

/-- A text with other line ends can be cut where the text can be cut, and in the
middle of each line end. -/
theorem cut_crlf {text front rest : List Char} (h : crlf text = front ++ rest) :
    (∃ left right, text = left ++ right ∧ front = crlf left ∧
        rest = crlf right) ∨
      ∃ left right, text = left ++ '\n' :: right ∧ front = crlf left ++ ['\r'] ∧
        rest = '\n' :: crlf right := by
  induction text using crlf_induction generalizing front with
  | nil =>
    obtain ⟨rfl, rfl⟩ := List.append_eq_nil_iff.mp h.symm
    exact .inl ⟨[], [], rfl, rfl, rfl⟩
  | lineEnd text ih =>
    rw [crlf_lineEnd] at h
    rcases List.cons_eq_append_iff.mp h with ⟨rfl, rfl⟩ | ⟨front, rfl, hlf⟩
    · exact .inl ⟨[], '\n' :: text, rfl, rfl, rfl⟩
    rcases List.cons_eq_append_iff.mp hlf with ⟨rfl, rfl⟩ | ⟨front, rfl, hrest⟩
    · exact .inr ⟨[], text, rfl, rfl, rfl⟩
    rcases ih hrest with ⟨left, right, rfl, rfl, rfl⟩ | ⟨left, right, rfl, rfl, rfl⟩
    · exact .inl ⟨'\n' :: left, right, rfl, rfl, rfl⟩
    · exact .inr ⟨'\n' :: left, right, rfl, rfl, rfl⟩
  | cons c text hc ih =>
    rw [crlf_cons hc] at h
    rcases List.cons_eq_append_iff.mp h with ⟨rfl, rfl⟩ | ⟨front, rfl, hrest⟩
    · exact .inl ⟨[], c :: text, rfl, rfl, (crlf_cons hc text).symm⟩
    rcases ih hrest with ⟨left, right, rfl, rfl, rfl⟩ | ⟨left, right, rfl, rfl, rfl⟩
    · exact .inl ⟨c :: left, right, rfl, (crlf_cons hc left).symm, rfl⟩
    · refine .inr ⟨c :: left, right, rfl, ?_, rfl⟩
      rw [crlf_cons hc, List.cons_append]

/-! ## Offsets -/

/-- Where an offset of the text is once it has other line ends. -/
def crlfOffset (text : List Char) (n : Nat) : Nat := (crlf (text.take n)).length

theorem crlfOffset_append_length (front back : List Char) :
    crlfOffset (front ++ back) front.length = (crlf front).length := by
  rw [crlfOffset, List.take_left]

theorem crlfOffset_succ (front : List Char) (c : Char) (back : List Char) :
    crlfOffset (front ++ c :: back) (front.length + 1) =
      (crlf front).length + (crlf [c]).length := by
  have h := crlfOffset_append_length (front ++ [c]) back
  rw [List.append_assoc, List.length_append, crlf_append, List.length_append] at h
  exact h

theorem crlfOffset_mono (text : List Char) {m n : Nat} (h : m ≤ n) :
    crlfOffset text m ≤ crlfOffset text n := by
  rw [crlfOffset, crlfOffset, ← List.take_append_drop m (text.take n),
    List.take_take, Nat.min_eq_left h, crlf_append, List.length_append]
  exact Nat.le_add_right _ _

/-- The order of offsets in the text is kept. -/
theorem crlfOffset_lt_iff (text : List Char) {m n : Nat}
    (hn : n ≤ text.length) : crlfOffset text m < crlfOffset text n ↔ m < n := by
  have hstep {m : Nat} (h : m < text.length) :
      crlfOffset text m < crlfOffset text (m + 1) := by
    rw [crlfOffset, crlfOffset, List.take_succ_eq_append_getElem h, crlf_append,
      List.length_append]
    have hpos : 0 < (crlf [text[m]]).length := by
      by_cases hc : text[m] = '\n'
      · simp [hc]
      · simp [crlf_cons hc]
    omega
  constructor
  · intro h
    refine Nat.lt_of_not_le fun hle => ?_
    exact Nat.not_lt_of_le (crlfOffset_mono text hle) h
  · intro h
    exact Nat.lt_of_lt_of_le (hstep (Nat.lt_of_lt_of_le h hn))
      (crlfOffset_mono text h)

/-- A piece of the text is where its offsets are. -/
theorem take_drop_crlf (text : List Char) (start stop : Nat) :
    ((crlf text).drop (crlfOffset text start)).take
        (crlfOffset text stop - crlfOffset text start) =
      crlf ((text.drop start).take (stop - start)) := by
  rcases Nat.le_total start stop with hle | hle
  · obtain ⟨n, rfl⟩ := Nat.exists_eq_add_of_le hle
    have hsplit (n : Nat) (text : List Char) :
        crlf text = crlf (text.take n) ++ crlf (text.drop n) := by
      rw [← crlf_append, List.take_append_drop]
    have hpiece : crlfOffset text (start + n) =
        crlfOffset text start + (crlf ((text.drop start).take n)).length := by
      rw [crlfOffset, List.take_add, crlf_append, List.length_append, crlfOffset]
    rw [hpiece, Nat.add_sub_cancel_left, Nat.add_sub_cancel_left, hsplit start text,
      crlfOffset, List.drop_left, hsplit n (text.drop start), List.take_left]
  · rw [Nat.sub_eq_zero_of_le hle,
      Nat.sub_eq_zero_of_le (crlfOffset_mono text hle), List.take_zero,
      List.take_zero, crlf_nil]

/-! ## Looking for a text -/

/-- A needle without line ends. -/
def OnLine (needle : List Char) : Prop := '\r' ∉ needle ∧ '\n' ∉ needle

instance (needle : List Char) : Decidable (OnLine needle) :=
  inferInstanceAs (Decidable (_ ∧ _))

theorem isPrefixOf_crlf {needle : List Char} (h : OnLine needle)
    (text : List Char) :
    needle.isPrefixOf (crlf text) = needle.isPrefixOf text := by
  induction needle generalizing text with
  | nil => simp
  | cons d needle ih =>
    have hcr : (d == '\r') = false :=
      beq_false_of_ne fun heq => h.1 (heq ▸ List.mem_cons_self)
    have hlf : (d == '\n') = false :=
      beq_false_of_ne fun heq => h.2 (heq ▸ List.mem_cons_self)
    have ih := ih ⟨fun hmem => h.1 (List.mem_cons_of_mem d hmem),
      fun hmem => h.2 (List.mem_cons_of_mem d hmem)⟩
    induction text using crlf_induction with
    | nil => rfl
    | lineEnd text _ => simp [List.isPrefixOf, hcr, hlf]
    | cons c text hc _ => simp [crlf_cons hc, List.isPrefixOf, ih]

/-- A needle without line ends stands in both texts or in none. -/
theorem contains_crlf {needle : List Char} (h : OnLine needle)
    (text : List Char) : contains needle (crlf text) = contains needle text := by
  induction text using crlf_induction with
  | nil => rfl
  | lineEnd text ih =>
    -- No needle starts inside of a line end, except the empty one.
    have hstart := isPrefixOf_crlf h ('\n' :: text)
    rw [crlf_lineEnd] at hstart ⊢
    rw [contains, contains, contains, hstart, ih]
    cases needle with
    | nil => simp
    | cons d needle =>
      have hlf : (d == '\n') = false :=
        beq_false_of_ne fun heq => h.2 (heq ▸ List.mem_cons_self)
      simp [List.isPrefixOf, hlf]
  | cons c text hc ih =>
    have hstart := isPrefixOf_crlf h (c :: text)
    rw [crlf_cons hc] at hstart ⊢
    rw [contains, contains, hstart, ih]

/-! ## Lower case -/

/-- Only a line end becomes a line end. -/
theorem lowerChar_eq_lineEnd_iff (c : Char) : lowerChar c = '\n' ↔ c = '\n' := by
  have hruns : ∀ run ∈ lowerRuns, 10 < run.first + run.offset := by
    decide +kernel
  rw [lowerChar]
  split
  · exact toLower_eq_iff (by decide) (by decide) c
  · rename_i hhigh
    have hc : c ≠ '\n' := fun heq => hhigh (by rw [heq]; decide)
    split
    · rename_i run hrun
      have hlow := hruns run (List.mem_of_find?_eq_some hrun)
      have hfirst := List.find?_some hrun
      simp only [Bool.and_eq_true, decide_eq_true_eq] at hfirst
      refine iff_of_false (fun heq => ?_) hc
      by_cases hvalid : (c.toNat + run.offset).toNat.isValidChar
      · have hchar : Char.ofNatAux _ hvalid = '\n' := (dif_pos hvalid).symm.trans heq
        have hten : (c.toNat + run.offset).toNat = 10 := congrArg Char.toNat hchar
        omega
      · have hnull : '\x00' = '\n' := (dif_neg hvalid).symm.trans heq
        cases hnull
    · exact iff_of_false hc hc

theorem meetsCased_cons (c : Char) (text : List Char) :
    meetsCased (c :: text) =
      if inRanges caseIgnorableRanges c then meetsCased text
      else inRanges casedRanges c := by
  rw [meetsCased, List.dropWhile_cons]
  by_cases h : inRanges caseIgnorableRanges c = true
  · rw [if_pos h, if_pos h, meetsCased]
  · rw [if_neg h, if_neg h]

/-- A line end is not cased and is not ignored. -/
theorem meetsCased_lineEnd (text : List Char) :
    meetsCased ('\r' :: text) = false ∧ meetsCased ('\n' :: text) = false := by
  have hcr : inRanges caseIgnorableRanges '\r' = false ∧
      inRanges casedRanges '\r' = false := by decide +kernel
  have hlf : inRanges caseIgnorableRanges '\n' = false ∧
      inRanges casedRanges '\n' = false := by decide +kernel
  simp [meetsCased_cons, hcr, hlf]

theorem meetsCased_crlf (text : List Char) :
    meetsCased (crlf text) = meetsCased text := by
  induction text using crlf_induction with
  | nil => rfl
  | lineEnd text ih =>
    rw [crlf_lineEnd, (meetsCased_lineEnd _).1, (meetsCased_lineEnd _).2]
  | cons c text hc ih => rw [crlf_cons hc, meetsCased_cons, meetsCased_cons, ih]

theorem lowerAfter_crlf (text : List Char) {before before' : List Char}
    (hbefore : meetsCased before' = meetsCased before) :
    lowerAfter before' (crlf text) = crlf (lowerAfter before text) := by
  have hlineEnd : lowerChar '\r' = '\r' ∧ lowerChar '\n' = '\n' := by decide
  induction text using crlf_induction generalizing before before' with
  | nil => rfl
  | lineEnd text ih =>
    have hnext : meetsCased ('\n' :: '\r' :: before') =
        meetsCased ('\n' :: before) := by
      rw [(meetsCased_lineEnd _).2, (meetsCased_lineEnd _).2]
    rw [crlf_lineEnd, lowerAfter, lowerAfter, lowerAfter, ih hnext]
    simp [hlineEnd]
  | cons c text hc ih =>
    have hnext : meetsCased (c :: before') = meetsCased (c :: before) := by
      rw [meetsCased_cons, meetsCased_cons, hbefore]
    rw [crlf_cons hc, lowerAfter, lowerAfter, ih hnext, hbefore, meetsCased_crlf]
    have hlower : lowerChar c ≠ '\n' := fun h =>
      hc ((lowerChar_eq_lineEnd_iff c).mp h)
    split
    · split
      · rw [crlf_cons (by decide)]
      · rw [crlf_cons (by decide)]
    · split
      · rw [crlf_cons (by decide), crlf_cons (by decide)]
      · rw [crlf_cons hlower]

/-- The text in lower case has other line ends where the text has. -/
theorem lowercase_crlf (text : List Char) :
    lowercase (crlf text) = crlf (lowercase text) :=
  lowerAfter_crlf text rfl

/-! ## Lines -/

theorem linesFrom_crlf {text : List Char} (htext : '\r' ∉ text)
    {current : List Char} (hcurrent : ∀ c ∈ current.head?, c ≠ '\r') :
    linesFrom current (crlf text) = linesFrom current text := by
  induction text using crlf_induction generalizing current with
  | nil => rfl
  | lineEnd text ih =>
    have htext := fun h => htext (List.mem_cons_of_mem _ h)
    have hline : finished ('\r' :: current) = finished current := by
      cases current with
      | nil => rfl
      | cons c current => exact (finished_cons (hcurrent c rfl) current).symm
    have hnext : linesFrom [] (crlf text) = linesFrom [] text := ih htext nofun
    rw [crlf_lineEnd, linesFrom_cons (by decide), linesFrom_lineEnd, linesFrom_lineEnd,
      hline, hnext]
  | cons c text hc ih =>
    have hne : c ≠ '\r' := fun h => htext (h ▸ List.mem_cons_self)
    have htext := fun h => htext (List.mem_cons_of_mem c h)
    rw [crlf_cons hc, linesFrom_cons hc, linesFrom_cons hc]
    refine ih htext ?_
    rintro _ ⟨⟩
    exact hne

/-- The lines are the same. -/
theorem lines_crlf {text : List Char} (htext : '\r' ∉ text) :
    lines (crlf text) = lines text :=
  linesFrom_crlf htext nofun

end Preflight.Text
