import Preflight.Proofs.Pattern.Ends

/-!
# Matching in front of a continuation

A search takes the first of the ends of a pattern.  What comes first in a
sequence depends on what follows, so this module looks at a pattern in front of
a continuation: `first` is what becomes of the first end from which the
continuation goes on.  The continuation of a part is what follows the part.

There is one equation per constructor.  The one for repetitions,
`first_star`, is about bodies that close no group: from one start they come to
any end in one way only, so the ends that are dropped as repeated
(`firstPerOffset`) make no difference.
-/

namespace Preflight

/-! ## The first result in a list -/

section

variable {α β γ : Type}

theorem findSome?_flatMap (k : β → Option γ) (f : α → List β) (l : List α) :
    (l.flatMap f).findSome? k = l.findSome? fun a => (f a).findSome? k := by
  simp only [← List.head?_filterMap, List.filterMap_flatMap, List.head?_flatMap]

theorem findSome?_congr {k k' : α → Option β} {l : List α}
    (h : ∀ a ∈ l, k a = k' a) : l.findSome? k = l.findSome? k' := by
  induction l with
  | nil => rfl
  | cons a l ih =>
    obtain ⟨ha, hl⟩ := List.forall_mem_cons.mp h
    rw [List.findSome?_cons, List.findSome?_cons, ha, ih hl]

theorem findSome?_filter (k : α → Option β) (ok : α → Bool) (l : List α) :
    (l.filter ok).findSome? k =
      l.findSome? fun a => if ok a then k a else none := by
  induction l with
  | nil => rfl
  | cons a l ih =>
    rw [List.filter_cons, List.findSome?_cons, ← ih]
    by_cases ha : ok a = true
    · rw [if_pos ha, if_pos ha, List.findSome?_cons]
    · rw [if_neg ha, if_neg ha]

end

/-- Dropping places with repeated offsets drops repetitions of places. -/
theorem findSome?_firstPerOffset {α : Type} (k : Place → Option α) (seen : Nat)
    {places : List Place}
    (hplaces : ∀ p ∈ places, ∀ q ∈ places, p.offset = q.offset → p = q)
    (hseen : ∀ p ∈ places, seen.testBit p.offset = true → k p = none) :
    (firstPerOffset seen places).findSome? k = places.findSome? k := by
  induction places generalizing seen with
  | nil => rfl
  | cons p places ih =>
    obtain ⟨hp, hseen⟩ := List.forall_mem_cons.mp hseen
    have htail : ∀ q ∈ places, ∀ r ∈ places, q.offset = r.offset → q = r :=
      fun q hq r hr =>
        hplaces q (List.mem_cons_of_mem p hq) r (List.mem_cons_of_mem p hr)
    rw [firstPerOffset, List.findSome?_cons]
    split
    · rename_i hbit
      rw [hp hbit]
      exact ih seen htail hseen
    · rw [List.findSome?_cons]
      cases hk : k p with
      | some a => rfl
      | none =>
        refine ih _ htail fun q hq hbit => ?_
        rw [Nat.testBit_or, Nat.one_shiftLeft, Nat.testBit_two_pow,
          Bool.or_eq_true] at hbit
        rcases hbit with hbit | hbit
        · exact hseen q hq hbit
        · have hsame : p = q := hplaces p List.mem_cons_self q
            (List.mem_cons_of_mem p hq) (of_decide_eq_true hbit)
          exact hsame ▸ hk

namespace Pattern

variable {α : Type} {casing : Casing}

/-! ## One equation per constructor -/

/-- What becomes of the first end, in the order of preference, from which the
continuation goes on. -/
def first (casing : Casing) (pattern : Pattern) (k : Place → Option α)
    (p : Place) : Option α :=
  (pattern.ends casing p).findSome? k

section

variable (k : Place → Option α) (p : Place)

@[simp] theorem first_empty : first casing .empty k p = k p := by
  simp [first, ends]

theorem first_one (cls : CharClass) :
    first casing (.one cls) k p = (p.step? (cls.accepts casing)).bind k := by
  rw [first, ends]
  cases p.step? (cls.accepts casing) <;> simp

/-- A run takes a step if it can. -/
theorem first_run (cls : CharClass) :
    first casing (.run cls) k p =
      ((p.step? (cls.accepts casing)).bind (first casing (.run cls) k)).or
        (k p) := by
  have hfound (before : Option Char) (offset : Nat) (groups : List Group)
      (found : List Place) (rest : List Char) :
      runEnds (cls.accepts casing) before offset groups found rest =
        runEnds (cls.accepts casing) before offset groups [] rest ++ found := by
    induction rest generalizing before offset found with
    | nil => rfl
    | cons c rest ih =>
      rw [runEnds, runEnds]
      split
      · rw [ih, ih _ _ [_], List.append_assoc]
        rfl
      · rfl
  obtain ⟨before, rest, offset, groups⟩ := p
  cases rest with
  | nil => simp [first, ends, runEnds, Place.step?]
  | cons c rest =>
    by_cases hc : cls.accepts casing c = true
    · rw [Place.step?]
      simp only [if_pos hc, Option.bind_some, first, ends]
      rw [runEnds, if_pos hc, hfound, List.findSome?_append]
      simp
    · simp [first, ends, runEnds, Place.step?, hc]

theorem first_wordBoundary :
    first casing .wordBoundary k p = if p.atWordBoundary then k p else none := by
  rw [first, ends]
  split <;> simp

theorem first_textStart :
    first casing .textStart k p = if p.before.isNone then k p else none := by
  rw [first, ends]
  split <;> simp

theorem first_lineStart :
    first casing .lineStart k p = if p.atLineStart then k p else none := by
  rw [first, ends]
  split <;> simp

theorem first_seq (a b : Pattern) :
    first casing (.seq a b) k p = first casing a (first casing b k) p :=
  findSome?_flatMap k (b.ends casing) (a.ends casing p)

theorem first_alt (a b : Pattern) :
    first casing (.alt a b) k p =
      (first casing a k p).or (first casing b k p) :=
  List.findSome?_append

theorem first_group (index : Nat) (body : Pattern) :
    first casing (.group index body) k p =
      first casing body (fun q => k (.close index p q)) p :=
  List.findSome?_map

end

/-! ## Repetitions -/

/-- The pattern closes no group. -/
def groupless : Pattern → Bool
  | group _ _ => false
  | seq first second | alt first second => first.groupless && second.groupless
  | star body => body.groupless
  | empty | one _ | run _ | wordBoundary | textStart | lineStart => true

theorem Matches.groups_eq {pattern : Pattern} {p q : Place}
    (hpattern : pattern.groupless = true) (h : Matches casing pattern p q) :
    q.groups = p.groups := by
  induction h with
  | empty _ | runStop _ | starStop _ => rfl
  | wordBoundary _ | textStart _ | lineStart _ => rfl
  | one h =>
    obtain ⟨c, -, -, hgroups⟩ := Place.Leads.of_step? h
    exact hgroups
  | runStep h _ ih =>
    obtain ⟨c, -, -, hgroups⟩ := Place.Leads.of_step? h
    exact (ih hpattern).trans hgroups
  | seq _ _ ihLeft ihRight =>
    obtain ⟨hfirst, hsecond⟩ := Bool.and_eq_true_iff.mp hpattern
    exact (ihRight hsecond).trans (ihLeft hfirst)
  | altFirst _ ih => exact ih (Bool.and_eq_true_iff.mp hpattern).1
  | altSecond _ ih => exact ih (Bool.and_eq_true_iff.mp hpattern).2
  | starStep _ _ ihOnce ihRest => exact (ihRest hpattern).trans (ihOnce hpattern)
  | group _ _ => cases hpattern

/-- Without groups, the offset tells the ends of matches apart. -/
theorem Matches.eq_of_offset_eq {pattern : Pattern} {p q r : Place}
    (hpattern : pattern.groupless = true) (hq : Matches casing pattern p q)
    (hr : Matches casing pattern p r) (hoffset : q.offset = r.offset) : q = r := by
  obtain ⟨_, hleads⟩ := hq.leads
  obtain ⟨_, hleads'⟩ := hr.leads
  have hgroups := (hq.groups_eq hpattern).trans (hr.groups_eq hpattern).symm
  rw [hleads'.eq_regroup hleads hoffset, hgroups]
  rfl

/-- A repetition that moves on leaves less text. -/
theorem rest_length_lt_of_mem_ends {body : Pattern} {p q : Place}
    (hq : q ∈ body.ends casing p) (hlt : p.offset < q.offset) : q.rest.length < p.rest.length := by
  obtain ⟨piece, hleads⟩ := (matches_of_mem_ends hq).leads
  exact hleads.rest_length_lt hlt

section

variable {body : Pattern} (hbody : body.groupless = true) (k : Place → Option α)

include hbody

/-- One more repetition, if it moves on, or none. -/
theorem findSome?_repeatEnds (fuel : Nat) (p : Place) :
    (repeatEnds (body.ends casing) (fuel + 1) p).findSome? k =
      (first casing body (fun q =>
        if p.offset < q.offset then
          (repeatEnds (body.ends casing) fuel q).findSome? k
        else none) p).or (k p) := by
  have hstep (p q : Place) (h : q ∈ body.ends casing p) :
      Matches casing body p q := matches_of_mem_ends h
  rw [repeatEnds, findSome?_firstPerOffset, List.findSome?_append,
    findSome?_flatMap, findSome?_filter, findSome?_firstPerOffset]
  · simp [first]
  · exact fun q hq r hr => (hstep p q hq).eq_of_offset_eq hbody (hstep p r hr)
  · simp
  · -- All of them are ends of repetitions from `p`.
    have hmatches (q : Place) (hq : q ∈ ((firstPerOffset 0
        (body.ends casing p)).filter fun q => p.offset < q.offset).flatMap
          (repeatEnds (body.ends casing) fuel) ++ [p]) :
        Matches casing (.star body) p q := by
      rcases List.mem_append.mp hq with hq | hq
      · obtain ⟨r, hr, hq⟩ := List.mem_flatMap.mp hq
        have hr := mem_of_mem_firstPerOffset (List.mem_filter.mp hr).1
        exact .starStep (hstep p r hr) (matches_of_mem_repeatEnds hstep hq)
      · obtain rfl := List.mem_singleton.mp hq
        exact .starStop q
    have hstar : (star body).groupless = true := hbody
    exact fun q hq r hr => (hmatches q hq).eq_of_offset_eq hstar (hmatches r hr)
  · simp

/-- Where there is fuel for every character that is left, more makes no
difference. -/
theorem findSome?_repeatEnds_succ {fuel : Nat} {p : Place}
    (h : p.rest.length ≤ fuel) :
    (repeatEnds (body.ends casing) (fuel + 1) p).findSome? k =
      (repeatEnds (body.ends casing) fuel p).findSome? k := by
  induction fuel generalizing p with
  | zero =>
    have hstays : first casing body (fun q =>
        if p.offset < q.offset then
          (repeatEnds (body.ends casing) 0 q).findSome? k
        else none) p = none := by
      refine List.findSome?_eq_none_iff.mpr fun q hq => if_neg fun hlt => ?_
      have := rest_length_lt_of_mem_ends hq hlt
      omega
    rw [findSome?_repeatEnds hbody, hstays]
    simp [repeatEnds]
  | succ fuel ih =>
    rw [findSome?_repeatEnds hbody, findSome?_repeatEnds hbody]
    congr 1
    refine findSome?_congr fun q hq => ?_
    by_cases hlt : p.offset < q.offset
    · have := rest_length_lt_of_mem_ends hq hlt
      rw [if_pos hlt, if_pos hlt, ih (by omega)]
    · rw [if_neg hlt, if_neg hlt]

theorem findSome?_repeatEnds_of_le {fuel : Nat} {p : Place}
    (h : p.rest.length ≤ fuel) :
    (repeatEnds (body.ends casing) fuel p).findSome? k =
      first casing (.star body) k p := by
  induction h with
  | refl => rfl
  | step h ih => rw [findSome?_repeatEnds_succ hbody k h, ih]

/-- A repetition is one more repetition, if it moves on, or none. -/
theorem first_star (p : Place) :
    first casing (.star body) k p =
      (first casing body (fun q =>
        if p.offset < q.offset then first casing (.star body) k q else none)
        p).or (k p) := by
  rw [← findSome?_repeatEnds_of_le hbody k (Nat.le_succ p.rest.length),
    findSome?_repeatEnds hbody]
  congr 1
  refine findSome?_congr fun q hq => ?_
  by_cases hlt : p.offset < q.offset
  · have := rest_length_lt_of_mem_ends hq hlt
    rw [if_pos hlt, if_pos hlt,
      findSome?_repeatEnds_of_le hbody k (Nat.le_of_lt this)]
  · rw [if_neg hlt, if_neg hlt]

end

end Pattern

end Preflight
