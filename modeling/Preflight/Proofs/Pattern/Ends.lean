import Preflight.Pattern.Search

/-!
# Matches and their ends

`Pattern.Matches` says which pieces of a text a pattern matches, and
`Pattern.ends` lists where they end.  This module proves that the two agree,
up to the groups that a place carries: of several ways to the same end, the
list keeps the preferred one.

* `Leads`: going through a piece of text leads from one place to another.  All
  matches lead somewhere (`Matches.leads`), and where they lead is decided by
  the offset (`Leads.eq_regroup`).
* `matches_of_mem_ends` and `exists_mem_ends_of_matches`: every listed end is
  the end of a match, and the end of every match is listed.
-/

namespace Preflight

/-! ## Going through a piece of text -/

namespace Place

/-- The same place with other groups closed on the way there. -/
def regroup (p : Place) (groups : List Group) : Place := { p with groups }

/-- Going through `piece` leads from `p` to `q`. -/
structure Leads (p : Place) (piece : List Char) (q : Place) : Prop where
  rest : p.rest = piece ++ q.rest
  before : q.before = piece.getLast?.or p.before
  offset : q.offset = p.offset + piece.length

theorem Leads.nil (p : Place) (groups : List Group) :
    p.Leads [] (p.regroup groups) :=
  ⟨rfl, rfl, rfl⟩

theorem Leads.trans {p q r : Place} {piece more : List Char}
    (h : p.Leads piece q) (h' : q.Leads more r) : p.Leads (piece ++ more) r where
  rest := by rw [h.rest, h'.rest, List.append_assoc]
  before := by
    rw [h'.before, h.before, List.getLast?_append]
    cases more.getLast? <;> rfl
  offset := by rw [h'.offset, h.offset, List.length_append, Nat.add_assoc]

theorem Leads.regroup {p q : Place} {piece : List Char}
    (h : p.Leads piece q) (groups groups' : List Group) :
    (p.regroup groups).Leads piece (q.regroup groups') :=
  ⟨h.rest, h.before, h.offset⟩

/-- The piece is what two places have between them. -/
theorem Leads.piece_unique {p q : Place} {piece piece' : List Char}
    (h : p.Leads piece q) (h' : p.Leads piece' q) : piece = piece' :=
  List.append_cancel_right (h.rest.symm.trans h'.rest)

theorem Leads.offset_le {p q : Place} {piece : List Char}
    (h : p.Leads piece q) : p.offset ≤ q.offset := by
  have := h.offset
  omega

/-- Going on leaves less text. -/
theorem Leads.rest_length_lt {p q : Place} {piece : List Char}
    (h : p.Leads piece q) (hlt : p.offset < q.offset) :
    q.rest.length < p.rest.length := by
  have hlength := congrArg List.length h.rest
  have hoffset := h.offset
  rw [List.length_append] at hlength
  omega

/-- From one place, the offset decides where one is. -/
theorem Leads.eq_regroup {p q r : Place} {piece piece' : List Char}
    (h : p.Leads piece q) (h' : p.Leads piece' r)
    (hoffset : r.offset = q.offset) : r = q.regroup r.groups := by
  have hlength : piece'.length = piece.length := by
    have := h.offset
    have := h'.offset
    omega
  have hsplit : piece' ++ r.rest = piece ++ q.rest := h'.rest.symm.trans h.rest
  obtain ⟨rfl, hrest⟩ := List.append_inj hsplit hlength
  have hbefore : r.before = q.before := h'.before.trans h.before.symm
  cases r
  cases q
  simp_all [Place.regroup]

theorem Leads.of_step? {ok : Char → Bool} {p q : Place}
    (h : p.step? ok = some q) :
    ∃ c, ok c = true ∧ p.Leads [c] q ∧ q.groups = p.groups := by
  obtain ⟨before, rest, offset, groups⟩ := p
  cases rest with
  | nil => simp [step?] at h
  | cons c cs =>
    simp only [step?] at h
    split at h
    · rename_i hok
      obtain rfl := Option.some.inj h
      exact ⟨c, hok, ⟨rfl, rfl, rfl⟩, rfl⟩
    · cases h

/-- A step is taken wherever a single character leads on. -/
theorem Leads.step? {ok : Char → Bool} {p q : Place} {c : Char}
    (h : p.Leads [c] q) (hok : ok c = true) :
    p.step? ok = some (q.regroup p.groups) := by
  obtain ⟨before, rest, offset, groups⟩ := p
  obtain ⟨hrest, hbefore, hoffset⟩ := h
  simp only [List.singleton_append] at hrest
  subst hrest
  simp only [List.getLast?_singleton, Option.some_or, List.length_singleton]
    at hbefore hoffset
  simp only [Place.step?, if_pos hok, Place.regroup, hbefore, hoffset]

theorem Leads.eq_of_nil {p q : Place} (h : p.Leads [] q)
    (hgroups : q.groups = p.groups) : q = p := by
  have hq : q = (p.regroup p.groups).regroup q.groups :=
    (Leads.nil p p.groups).eq_regroup h h.offset
  rw [hq, hgroups]
  rfl

/-- The first character of a piece is a step by itself. -/
theorem Leads.uncons {before : Option Char} {rest : List Char} {offset : Nat}
    {groups : List Group} {c : Char} {piece : List Char} {q : Place}
    (h : Leads ⟨before, rest, offset, groups⟩ (c :: piece) q) :
    ∃ tail, rest = c :: tail ∧
      Leads ⟨some c, tail, offset + 1, groups⟩ piece q := by
  refine ⟨piece ++ q.rest, h.rest, rfl, ?_, ?_⟩
  · rw [h.before]
    cases piece with
    | nil => rfl
    | cons d piece => simp [List.getLast?_cons]
  · have := h.offset
    simp only [List.length_cons] at this ⊢
    omega

theorem Leads.cons {before : Option Char} {tail : List Char} {offset : Nat}
    {groups : List Group} {c : Char} {piece : List Char} {q : Place}
    (h : Leads ⟨some c, tail, offset + 1, groups⟩ piece q) :
    Leads ⟨before, c :: tail, offset, groups⟩ (c :: piece) q := by
  have hstep : Leads ⟨before, c :: tail, offset, groups⟩ [c]
      ⟨some c, tail, offset + 1, groups⟩ := ⟨rfl, rfl, rfl⟩
  exact hstep.trans h

end Place

/-! ## Runs -/

/-- A run ends behind every piece whose characters are all admitted. -/
theorem mem_runEnds_iff {ok : Char → Bool} {before : Option Char} {offset : Nat}
    {groups : List Group} {found : List Place} {rest : List Char} {q : Place} :
    q ∈ runEnds ok before offset groups found rest ↔
      q ∈ found ∨ ∃ piece, (∀ c ∈ piece, ok c = true) ∧
        Place.Leads ⟨before, rest, offset, groups⟩ piece q ∧
        q.groups = groups := by
  -- The empty piece leads to the start of the run and nowhere else.
  have hhere {before : Option Char} {offset : Nat} {rest : List Char} :
      q = ⟨before, rest, offset, groups⟩ →
        ∃ piece, (∀ c ∈ piece, ok c = true) ∧
          Place.Leads ⟨before, rest, offset, groups⟩ piece q ∧
          q.groups = groups := by
    rintro rfl
    exact ⟨[], List.forall_mem_nil _, .nil _ groups, rfl⟩
  induction rest generalizing before offset found with
  | nil =>
    rw [runEnds, List.mem_cons, or_comm]
    refine or_congr_right ⟨hhere, ?_⟩
    rintro ⟨piece, -, hleads, hgroups⟩
    obtain ⟨rfl, -⟩ := List.append_eq_nil_iff.mp hleads.rest.symm
    exact hleads.eq_of_nil hgroups
  | cons c cs ih =>
    rw [runEnds]
    by_cases hc : ok c = true
    · rw [if_pos hc]
      refine ih.trans ?_
      rw [List.mem_cons, or_comm (a := q = _), or_assoc]
      refine or_congr_right ⟨?_, ?_⟩
      · rintro (hq | ⟨piece, hpiece, hleads, hgroups⟩)
        · exact hhere hq
        · exact ⟨c :: piece, List.forall_mem_cons.mpr ⟨hc, hpiece⟩,
            hleads.cons, hgroups⟩
      · rintro ⟨piece, hpiece, hleads, hgroups⟩
        cases piece with
        | nil => exact .inl (hleads.eq_of_nil hgroups)
        | cons d piece =>
          obtain ⟨tail, htail, hleads⟩ := hleads.uncons
          obtain ⟨rfl, rfl⟩ := List.cons.inj htail
          exact .inr ⟨piece, fun x hx => hpiece x (List.mem_cons_of_mem _ hx),
            hleads, hgroups⟩
    · rw [if_neg hc, List.mem_cons, or_comm]
      refine or_congr_right ⟨hhere, ?_⟩
      rintro ⟨piece, hpiece, hleads, hgroups⟩
      cases piece with
      | nil => exact hleads.eq_of_nil hgroups
      | cons d piece =>
        obtain ⟨tail, htail, -⟩ := hleads.uncons
        obtain ⟨rfl, rfl⟩ := List.cons.inj htail
        exact absurd (hpiece c List.mem_cons_self) hc

/-! ## Repetitions -/

theorem mem_of_mem_firstPerOffset {seen : Nat} {places : List Place}
    {q : Place} (h : q ∈ firstPerOffset seen places) : q ∈ places := by
  induction places generalizing seen with
  | nil => exact h
  | cons p places ih =>
    rw [firstPerOffset] at h
    split at h
    · exact List.mem_cons_of_mem p (ih h)
    · rcases List.mem_cons.mp h with rfl | h
      · exact List.mem_cons_self
      · exact List.mem_cons_of_mem p (ih h)

/-- Of every offset that has not been seen, a place is kept. -/
theorem exists_mem_firstPerOffset {seen : Nat} {places : List Place}
    {q : Place} (hq : q ∈ places) (hseen : seen.testBit q.offset = false) :
    ∃ r ∈ firstPerOffset seen places, r.offset = q.offset := by
  induction places generalizing seen with
  | nil => cases hq
  | cons p places ih =>
    rw [firstPerOffset]
    split
    · rename_i hp
      rcases List.mem_cons.mp hq with rfl | hq
      · rw [hp] at hseen
        cases hseen
      · exact ih hq hseen
    · by_cases hoffset : p.offset = q.offset
      · exact ⟨p, List.mem_cons_self, hoffset⟩
      have hq : q ∈ places := by
        rcases List.mem_cons.mp hq with rfl | hq
        · exact absurd rfl hoffset
        · exact hq
      have hseen : (seen ||| 1 <<< p.offset).testBit q.offset = false := by
        rw [Nat.testBit_or, hseen, Bool.false_or, Nat.one_shiftLeft,
          Nat.testBit_two_pow]
        exact decide_eq_false hoffset
      obtain ⟨r, hr, hoffset⟩ := ih hq hseen
      exact ⟨r, List.mem_cons_of_mem p hr, hoffset⟩

namespace Pattern

variable {casing : Casing} {pattern : Pattern} {p q r : Place}

/-! ## Matches lead somewhere -/

theorem Matches.leads (h : Matches casing pattern p q) :
    ∃ piece, p.Leads piece q := by
  induction h with
  | empty p | runStop p | starStop p => exact ⟨[], .nil p p.groups⟩
  | one h =>
    obtain ⟨c, -, hleads, -⟩ := Place.Leads.of_step? h
    exact ⟨[c], hleads⟩
  | runStep h _ ih =>
    obtain ⟨c, -, hleads, -⟩ := Place.Leads.of_step? h
    obtain ⟨piece, hrest⟩ := ih
    exact ⟨[c] ++ piece, hleads.trans hrest⟩
  | wordBoundary _ | textStart _ | lineStart _ => exact ⟨[], .nil _ _⟩
  | seq _ _ ihLeft ihRight =>
    obtain ⟨piece, hleft⟩ := ihLeft
    obtain ⟨more, hright⟩ := ihRight
    exact ⟨piece ++ more, hleft.trans hright⟩
  | altFirst _ ih | altSecond _ ih => exact ih
  | starStep _ _ ihOnce ihRest =>
    obtain ⟨piece, honce⟩ := ihOnce
    obtain ⟨more, hrest⟩ := ihRest
    exact ⟨piece ++ more, honce.trans hrest⟩
  | group _ ih =>
    obtain ⟨piece, hleads⟩ := ih
    exact ⟨piece, hleads.rest, hleads.before, hleads.offset⟩

/-- The groups that have been closed before do not matter. -/
theorem Matches.regroup (h : Matches casing pattern p q) (groups : List Group) :
    ∃ groups',
      Matches casing pattern (p.regroup groups) (q.regroup groups') := by
  have hstep {ok : Char → Bool} {p q : Place} (h : p.step? ok = Option.some q)
      (groups : List Group) :
      (p.regroup groups).step? ok = Option.some (q.regroup groups) := by
    obtain ⟨c, hok, hleads, -⟩ := Place.Leads.of_step? h
    exact (hleads.regroup groups groups).step? hok
  induction h generalizing groups with
  | empty p => exact ⟨groups, .empty _⟩
  | one h => exact ⟨groups, .one (hstep h groups)⟩
  | runStop p => exact ⟨groups, .runStop _⟩
  | runStep h _ ih =>
    obtain ⟨groups', hrest⟩ := ih groups
    exact ⟨groups', .runStep (hstep h groups) hrest⟩
  | wordBoundary h => exact ⟨groups, .wordBoundary h⟩
  | textStart h => exact ⟨groups, .textStart h⟩
  | lineStart h => exact ⟨groups, .lineStart h⟩
  | seq _ _ ihLeft ihRight =>
    obtain ⟨between, hleft⟩ := ihLeft groups
    obtain ⟨groups', hright⟩ := ihRight between
    exact ⟨groups', .seq hleft hright⟩
  | altFirst _ ih =>
    obtain ⟨groups', hfirst⟩ := ih groups
    exact ⟨groups', .altFirst hfirst⟩
  | altSecond _ ih =>
    obtain ⟨groups', hsecond⟩ := ih groups
    exact ⟨groups', .altSecond hsecond⟩
  | starStop p => exact ⟨groups, .starStop _⟩
  | starStep _ _ ihOnce ihRest =>
    obtain ⟨between, honce⟩ := ihOnce groups
    obtain ⟨groups', hrest⟩ := ihRest between
    exact ⟨groups', .starStep honce hrest⟩
  | @group index body p q _ ih =>
    obtain ⟨groups', hbody⟩ := ih groups
    exact ⟨⟨index, p.offset, q.offset⟩ :: groups', .group hbody⟩

theorem matches_run_iff {cls : CharClass} :
    Matches casing (.run cls) p q ↔
      ∃ piece, (∀ c ∈ piece, cls.accepts casing c = true) ∧
        p.Leads piece q ∧ q.groups = p.groups := by
  constructor
  · intro h
    generalize hpattern : Pattern.run cls = pattern at h
    induction h with
    | runStop p => exact ⟨[], List.forall_mem_nil _, .nil p p.groups, rfl⟩
    | runStep h _ ih =>
      obtain rfl := Pattern.run.inj hpattern
      obtain ⟨c, hc, hleads, hgroups⟩ := Place.Leads.of_step? h
      obtain ⟨piece, hpiece, hrest, hgroups'⟩ := ih hpattern
      exact ⟨[c] ++ piece, List.forall_mem_cons.mpr ⟨hc, hpiece⟩,
        hleads.trans hrest, hgroups'.trans hgroups⟩
    | _ => cases hpattern
  · rintro ⟨piece, hpiece, hleads, hgroups⟩
    induction piece generalizing p with
    | nil =>
      obtain rfl := hleads.eq_of_nil hgroups
      exact .runStop q
    | cons c piece ih =>
      obtain ⟨before, rest, offset, groups⟩ := p
      obtain ⟨tail, rfl, htail⟩ := hleads.uncons
      obtain ⟨hc, hpiece⟩ := List.forall_mem_cons.mp hpiece
      have hstep : Place.step? (cls.accepts casing)
          ⟨before, c :: tail, offset, groups⟩ =
            Option.some ⟨Option.some c, tail, offset + 1, groups⟩ := by
        simp only [Place.step?, if_pos hc]
      exact .runStep hstep (ih hpiece htail hgroups)

/-! ## Every listed end is the end of a match -/

theorem matches_of_mem_repeatEnds {body : Pattern} {step : Place → List Place}
    (hstep : ∀ p q, q ∈ step p → Matches casing body p q) {fuel : Nat}
    (h : q ∈ repeatEnds step fuel p) : Matches casing (.star body) p q := by
  induction fuel generalizing p with
  | zero =>
    obtain rfl := List.mem_singleton.mp h
    exact .starStop q
  | succ fuel ih =>
    rw [repeatEnds] at h
    rcases List.mem_append.mp (mem_of_mem_firstPerOffset h) with h | h
    · obtain ⟨r, hr, hq⟩ := List.mem_flatMap.mp h
      have hr := mem_of_mem_firstPerOffset (List.mem_filter.mp hr).1
      exact .starStep (hstep p r hr) (ih hq)
    · obtain rfl := List.mem_singleton.mp h
      exact .starStop q

theorem matches_of_mem_ends (h : q ∈ pattern.ends casing p) :
    Matches casing pattern p q := by
  induction pattern generalizing p q with
  | empty =>
    obtain rfl := List.mem_singleton.mp h
    exact .empty q
  | one cls =>
    rw [ends, Option.mem_toList] at h
    exact .one h
  | run cls =>
    rcases mem_runEnds_iff.mp h with h | h
    · cases h
    · exact matches_run_iff.mpr h
  | wordBoundary =>
    rw [ends] at h
    split at h
    · rename_i hp
      obtain rfl := List.mem_singleton.mp h
      exact .wordBoundary hp
    · cases h
  | textStart =>
    rw [ends] at h
    split at h
    · rename_i hp
      obtain rfl := List.mem_singleton.mp h
      exact .textStart (Option.isNone_iff_eq_none.mp hp)
    · cases h
  | lineStart =>
    rw [ends] at h
    split at h
    · rename_i hp
      obtain rfl := List.mem_singleton.mp h
      exact .lineStart hp
    · cases h
  | seq first second ihFirst ihSecond =>
    obtain ⟨r, hr, hq⟩ := List.mem_flatMap.mp h
    exact .seq (ihFirst hr) (ihSecond hq)
  | alt first second ihFirst ihSecond =>
    rcases List.mem_append.mp h with h | h
    · exact .altFirst (ihFirst h)
    · exact .altSecond (ihSecond h)
  | star body ih => exact matches_of_mem_repeatEnds (fun _ _ => ih) h
  | group index body ih =>
    obtain ⟨r, hr, rfl⟩ := List.mem_map.mp h
    exact .group (ih hr)

/-! ## The end of every match is listed -/

/-- A repetition stays where it is, or it starts with a match that goes on. -/
theorem Matches.star_cases {body : Pattern}
    (h : Matches casing (.star body) p q) :
    (∃ groups, q = p.regroup groups) ∨
      ∃ r groups, p.offset < r.offset ∧ Matches casing body p r ∧
        Matches casing (.star body) r (q.regroup groups) := by
  generalize hpattern : Pattern.star body = pattern at h
  induction h with
  | starStop p => exact .inl ⟨p.groups, rfl⟩
  | @starStep body' p r q once rest _ ihRest =>
    obtain rfl := Pattern.star.inj hpattern
    obtain ⟨piece, hleads⟩ := once.leads
    rcases Nat.lt_or_eq_of_le hleads.offset_le with hlt | heq
    · exact .inr ⟨r, q.groups, hlt, once, rest⟩
    -- The first match was empty, so the repetition starts with a later one.
    have hr : r = p.regroup r.groups :=
      (Place.Leads.nil p p.groups).eq_regroup hleads heq.symm
    rcases ihRest hpattern with ⟨groups, hq⟩ | ⟨s, groups, hlt, honce, hrest⟩
    · refine .inl ⟨groups, ?_⟩
      rw [hq, hr]
      rfl
    · obtain ⟨groups', honce⟩ := honce.regroup p.groups
      obtain ⟨groups'', hrest⟩ := hrest.regroup groups'
      rw [hr] at honce hlt
      exact .inr ⟨s.regroup groups', groups'', hlt, honce, hrest⟩
  | _ => cases hpattern

/-- Of places that all lie ahead of one, each stays listed, groups apart, when
repeated offsets are dropped. -/
theorem regroup_mem_firstPerOffset {places : List Place} {s : Place}
    (hleads : ∀ r ∈ places, ∃ piece, p.Leads piece r) (hs : s ∈ places) :
    ∃ groups, s.regroup groups ∈ firstPerOffset 0 places := by
  obtain ⟨r, hr, hoffset⟩ := exists_mem_firstPerOffset hs (Nat.zero_testBit _)
  obtain ⟨piece, hleadsS⟩ := hleads s hs
  obtain ⟨piece', hleadsR⟩ := hleads r (mem_of_mem_firstPerOffset hr)
  exact ⟨r.groups, hleadsS.eq_regroup hleadsR hoffset ▸ hr⟩

theorem exists_mem_repeatEnds {body : Pattern}
    (hbody : ∀ {p q}, Matches casing body p q → ∀ groups, ∃ groups',
      q.regroup groups' ∈ body.ends casing (p.regroup groups))
    {fuel : Nat} (hfuel : p.rest.length ≤ fuel)
    (h : Matches casing (.star body) p q) (groups : List Group) :
    ∃ groups',
      q.regroup groups' ∈
        repeatEnds (body.ends casing) fuel (p.regroup groups) := by
  induction fuel generalizing p q groups with
  | zero =>
    obtain ⟨piece, hleads⟩ := h.leads
    have hrest : p.rest = [] := List.length_eq_zero_iff.mp (by omega)
    obtain ⟨rfl, -⟩ := List.append_eq_nil_iff.mp (hleads.rest.symm.trans hrest)
    have hq : q = p.regroup q.groups :=
      (Place.Leads.nil p p.groups).eq_regroup hleads hleads.offset
    rw [hq]
    exact ⟨groups, List.mem_singleton_self _⟩
  | succ fuel ih =>
    have hsound {p r : Place}
        (hr : r ∈ repeatEnds (body.ends casing) fuel p) :
        Matches casing (.star body) p r :=
      matches_of_mem_repeatEnds (fun _ _ => matches_of_mem_ends) hr
    have hmembers : ∀ r ∈ ((firstPerOffset 0 (body.ends casing
          (p.regroup groups))).filter fun q => p.offset < q.offset).flatMap
            (repeatEnds (body.ends casing) fuel) ++ [p.regroup groups],
        ∃ piece, (p.regroup groups).Leads piece r := by
      intro r hr
      rcases List.mem_append.mp hr with hr | hr
      · obtain ⟨s, hs, hr⟩ := List.mem_flatMap.mp hr
        have hs := mem_of_mem_firstPerOffset (List.mem_filter.mp hs).1
        exact (Matches.starStep (matches_of_mem_ends hs) (hsound hr)).leads
      · obtain rfl := List.mem_singleton.mp hr
        exact ⟨[], .nil _ groups⟩
    rw [repeatEnds]
    rcases h.star_cases with ⟨groups', rfl⟩ | ⟨r, groups', hlt, honce, hrest⟩
    · exact regroup_mem_firstPerOffset (s := p.regroup groups) hmembers
        (List.mem_append_right _ (List.mem_singleton_self _))
    -- The first match is listed, and from its end the rest of the repetition.
    obtain ⟨piece, hleads⟩ := honce.leads
    have hfuel : r.rest.length ≤ fuel := by
      have := hleads.rest_length_lt hlt
      omega
    obtain ⟨between, hr⟩ := hbody honce groups
    obtain ⟨between, hr⟩ :=
      regroup_mem_firstPerOffset (fun s hs => (matches_of_mem_ends hs).leads) hr
    obtain ⟨groups'', hq⟩ := ih hfuel hrest between
    have hr : r.regroup between ∈ (firstPerOffset 0 (body.ends casing
        (p.regroup groups))).filter fun q => p.offset < q.offset :=
      List.mem_filter.mpr ⟨hr, decide_eq_true hlt⟩
    exact regroup_mem_firstPerOffset (s := q.regroup groups'') hmembers
      (List.mem_append_left _ (List.mem_flatMap.mpr ⟨_, hr, hq⟩))

theorem exists_mem_ends_of_matches (h : Matches casing pattern p q)
    (groups : List Group) :
    ∃ groups',
      q.regroup groups' ∈ pattern.ends casing (p.regroup groups) := by
  induction pattern generalizing p q groups with
  | empty =>
    cases h
    exact ⟨groups, List.mem_singleton_self _⟩
  | one cls =>
    cases h with
    | one h =>
      obtain ⟨c, hc, hleads, -⟩ := Place.Leads.of_step? h
      have hstep := (hleads.regroup groups groups).step? hc
      exact ⟨groups, Option.mem_toList.mpr hstep⟩
  | run cls =>
    obtain ⟨piece, hpiece, hleads, -⟩ := matches_run_iff.mp h
    exact ⟨groups, mem_runEnds_iff.mpr
      (.inr ⟨piece, hpiece, hleads.regroup groups groups, rfl⟩)⟩
  | wordBoundary =>
    cases h with
    | wordBoundary h =>
      refine ⟨groups, ?_⟩
      rw [ends, if_pos (show (p.regroup groups).atWordBoundary = true from h)]
      exact List.mem_singleton_self _
  | textStart =>
    cases h with
    | textStart h =>
      refine ⟨groups, ?_⟩
      have h : (p.regroup groups).before.isNone = true :=
        Option.isNone_iff_eq_none.mpr h
      rw [ends, if_pos h]
      exact List.mem_singleton_self _
  | lineStart =>
    cases h with
    | lineStart h =>
      refine ⟨groups, ?_⟩
      rw [ends, if_pos (show (p.regroup groups).atLineStart = true from h)]
      exact List.mem_singleton_self _
  | seq first second ihFirst ihSecond =>
    cases h with
    | seq left right =>
      obtain ⟨between, hleft⟩ := ihFirst left groups
      obtain ⟨groups', hright⟩ := ihSecond right between
      exact ⟨groups', List.mem_flatMap.mpr ⟨_, hleft, hright⟩⟩
  | alt first second ihFirst ihSecond =>
    cases h with
    | altFirst h =>
      obtain ⟨groups', h⟩ := ihFirst h groups
      exact ⟨groups', List.mem_append_left _ h⟩
    | altSecond h =>
      obtain ⟨groups', h⟩ := ihSecond h groups
      exact ⟨groups', List.mem_append_right _ h⟩
  | star body ih =>
    exact exists_mem_repeatEnds ih (Nat.le_refl _) h groups
  | group index body ih =>
    cases h with
    | @group _ _ _ q h =>
      obtain ⟨groups', h⟩ := ih h groups
      exact ⟨⟨index, p.offset, q.offset⟩ :: groups',
        List.mem_map.mpr ⟨_, h, rfl⟩⟩

end Pattern

end Preflight
