import Preflight.Proofs.Pattern.Scan

/-!
# What a match keeps

`Captures` is `Finds` with the groups that a match closes on its way.  The
lemmas `captures_seq_iff`, `captures_group_iff` and their like take a pattern
apart, constructor by constructor, so that a match can be asked for the text of
any of its groups (`captures_of_matchAt?`, `Match.group?_of_find?`).

A pattern may find several pieces at one place.  Two lemmas say which one a
search takes:

* `Exhausts`: where a pattern ends with a run, the run goes on as long as it can.
* `captures_of_matchAt?_optional`: an optional tail is left out only where it
  does not match.
-/

namespace Preflight

/-- A match holds the piece between the ends of a group that it keeps. -/
theorem Match.group?_of_find? {found : Match} {index : Nat} {g : Group}
    {front piece back : List Char}
    (hfind : found.groups.find? (·.index == index) = some g)
    (hstart : g.start = front.length) (hstop : g.stop = (front ++ piece).length) :
    found.group? (front ++ (piece ++ back)) index = some piece := by
  rw [Match.group?, hfind, Option.map_some, hstart, hstop, List.drop_left,
    List.length_append, Nat.add_sub_cancel_left, List.take_left]

namespace Pattern

variable {casing : Casing} {pattern first second body : Pattern}
  {front piece rest back : List Char} {groups : List Group} {index : Nat}

/-! ## Groups -/

/-- A match puts its own groups in front of those that were closed before,
whatever these are. -/
theorem Matches.exists_own {p q : Place} (h : Matches casing pattern p q) :
    ∃ own, q.groups = own ++ p.groups ∧ ∀ groups,
      Matches casing pattern (p.regroup groups) (q.regroup (own ++ groups)) := by
  have hstep {ok : Char → Bool} {p q : Place} (h : p.step? ok = Option.some q) :
      q.groups = p.groups ∧ ∀ groups,
        (p.regroup groups).step? ok = Option.some (q.regroup groups) := by
    obtain ⟨c, hok, hleads, hgroups⟩ := Place.Leads.of_step? h
    exact ⟨hgroups, fun groups => (hleads.regroup groups groups).step? hok⟩
  induction h with
  | empty p => exact ⟨[], rfl, fun _ => .empty _⟩
  | one h =>
    obtain ⟨hgroups, hregroup⟩ := hstep h
    exact ⟨[], hgroups, fun groups => .one (hregroup groups)⟩
  | runStop p => exact ⟨[], rfl, fun _ => .runStop _⟩
  | runStep h _ ih =>
    obtain ⟨hgroups, hregroup⟩ := hstep h
    obtain ⟨own, hown, hrest⟩ := ih
    exact ⟨own, hgroups ▸ hown,
      fun groups => .runStep (hregroup groups) (hrest groups)⟩
  | wordBoundary h => exact ⟨[], rfl, fun _ => .wordBoundary h⟩
  | textStart h => exact ⟨[], rfl, fun _ => .textStart h⟩
  | lineStart h => exact ⟨[], rfl, fun _ => .lineStart h⟩
  | seq _ _ ihLeft ihRight =>
    obtain ⟨own, hown, hleft⟩ := ihLeft
    obtain ⟨later, hlater, hright⟩ := ihRight
    refine ⟨later ++ own, ?_, fun groups => .seq (hleft groups) ?_⟩
    · rw [hlater, hown, List.append_assoc]
    · rw [List.append_assoc]
      exact hright (own ++ groups)
  | altFirst _ ih =>
    obtain ⟨own, hown, hfirst⟩ := ih
    exact ⟨own, hown, fun groups => .altFirst (hfirst groups)⟩
  | altSecond _ ih =>
    obtain ⟨own, hown, hsecond⟩ := ih
    exact ⟨own, hown, fun groups => .altSecond (hsecond groups)⟩
  | starStop p => exact ⟨[], rfl, fun _ => .starStop _⟩
  | starStep _ _ ihOnce ihRest =>
    obtain ⟨own, hown, honce⟩ := ihOnce
    obtain ⟨later, hlater, hrest⟩ := ihRest
    refine ⟨later ++ own, ?_, fun groups => .starStep (honce groups) ?_⟩
    · rw [hlater, hown, List.append_assoc]
    · rw [List.append_assoc]
      exact hrest (own ++ groups)
  | @group index body p q _ ih =>
    obtain ⟨own, hown, hbody⟩ := ih
    exact ⟨⟨index, p.offset, q.offset⟩ :: own, congrArg (_ :: ·) hown,
      fun groups => .group (hbody groups)⟩

/-- The pattern finds `piece` between two parts of a text, and closes these
groups on the way. -/
def Captures (casing : Casing) (pattern : Pattern) (front piece back : List Char)
    (groups : List Group) : Prop :=
  Matches casing pattern (.between front (piece ++ back))
    ((Place.between (front ++ piece) back).regroup groups)

theorem Captures.finds (h : pattern.Captures casing front piece back groups) :
    pattern.Finds casing front piece back :=
  ⟨_, (Place.leads_between front piece back).regroup [] groups, h⟩

theorem captures_of_matches {q : Place}
    (h : Matches casing pattern (.between front rest) q) :
    ∃ piece, rest = piece ++ q.rest ∧
      q = (Place.between (front ++ piece) q.rest).regroup q.groups ∧
      pattern.Captures casing front piece q.rest q.groups := by
  obtain ⟨piece, hleads⟩ := h.leads
  have hrest : rest = piece ++ q.rest := hleads.rest
  rw [hrest] at h hleads
  have hq := hleads.eq_between
  rw [hq] at h
  exact ⟨piece, hrest, hq, h⟩

theorem finds_iff_exists_captures :
    pattern.Finds casing front piece back ↔
      ∃ groups, pattern.Captures casing front piece back groups := by
  constructor
  · rintro ⟨q, hleads, hmatches⟩
    rw [hleads.eq_between] at hmatches
    exact ⟨q.groups, hmatches⟩
  · rintro ⟨groups, h⟩
    exact h.finds

/-- A piece that is captured is matched whatever groups have been closed
before. -/
theorem Captures.regroup (h : pattern.Captures casing front piece back groups)
    (earlier : List Group) :
    Matches casing pattern ((Place.between front (piece ++ back)).regroup earlier)
      ((Place.between (front ++ piece) back).regroup (groups ++ earlier)) := by
  obtain ⟨own, hown, hmatches⟩ := h.exists_own
  have hgroups : groups = own ++ [] := hown
  rw [List.append_nil] at hgroups
  rw [hgroups]
  exact hmatches earlier

/-! ## Constructor by constructor -/

/-- Without groups, a pattern captures what it finds. -/
theorem captures_groupless_iff (h : pattern.groupless = true) :
    pattern.Captures casing front piece back groups ↔
      groups = [] ∧ pattern.Finds casing front piece back := by
  constructor
  · intro hcaptures
    exact ⟨Matches.groups_eq h hcaptures, hcaptures.finds⟩
  · rintro ⟨rfl, q, hleads, hmatches⟩
    have hq := hleads.eq_between
    have hgroups : q.groups = [] := hmatches.groups_eq h
    rw [hgroups] at hq
    rw [hq] at hmatches
    exact hmatches

theorem groupless_text (s : String) : (text s).groupless = true := by
  rw [text]
  induction s.toList with
  | nil => rfl
  | cons c letters ih =>
    cases letters with
    | nil => rfl
    | cons d letters => exact ih

theorem captures_seq_iff :
    Captures casing (.seq first second) front piece back groups ↔
      ∃ left right own later, piece = left ++ right ∧ groups = later ++ own ∧
        first.Captures casing front left (right ++ back) own ∧
        second.Captures casing (front ++ left) right back later := by
  constructor
  · intro h
    cases h with
    | @seq _ _ _ r _ hfirst hsecond =>
      obtain ⟨left, hleft, hr, hcaptures⟩ := captures_of_matches hfirst
      obtain ⟨later, hlater, hrest⟩ := hsecond.exists_own
      have hsecond := hrest []
      have hplace : r.regroup [] = .between (front ++ left) r.rest := by
        rw [hr]
        rfl
      rw [hplace, List.append_nil] at hsecond
      obtain ⟨right, hright, -, -⟩ := captures_of_matches hsecond
      have hback : r.rest = right ++ back := hright
      have hpiece : piece = left ++ right := by
        rw [hback, ← List.append_assoc] at hleft
        exact List.append_cancel_right hleft
      rw [hback] at hcaptures hsecond
      rw [hpiece, ← List.append_assoc] at hsecond
      exact ⟨left, right, r.groups, later, hpiece, hlater, hcaptures, hsecond⟩
  · rintro ⟨left, right, own, later, rfl, rfl, hfirst, hsecond⟩
    have hsecond := hsecond.regroup own
    unfold Captures at hfirst ⊢
    rw [← List.append_assoc] at hfirst
    rw [List.append_assoc front] at hsecond
    exact .seq hfirst hsecond

theorem captures_append_iff :
    Captures casing (first ++ second) front piece back groups ↔
      ∃ left right own later, piece = left ++ right ∧ groups = later ++ own ∧
        first.Captures casing front left (right ++ back) own ∧
        second.Captures casing (front ++ left) right back later :=
  captures_seq_iff

/-- A group is kept in front of the groups inside of it. -/
theorem captures_group_iff :
    Captures casing (.group index body) front piece back groups ↔
      ∃ inner, groups = ⟨index, front.length, (front ++ piece).length⟩ :: inner ∧
        body.Captures casing front piece back inner := by
  constructor
  · intro h
    unfold Captures at h
    generalize hstop : (Place.between (front ++ piece) back).regroup groups = stop
      at h
    cases h with
    | @group _ _ _ r hbody =>
      have hplace : r = (Place.between (front ++ piece) back).regroup r.groups := by
        obtain ⟨before, rest, offset, inner⟩ := r
        obtain rfl : (front ++ piece).getLast? = before := congrArg Place.before hstop
        obtain rfl : back = rest := congrArg Place.rest hstop
        obtain rfl : (front ++ piece).length = offset := congrArg Place.offset hstop
        rfl
      have hgroups : groups =
          ⟨index, front.length, (front ++ piece).length⟩ :: r.groups := by
        have hgroups := congrArg Place.groups hstop
        rw [hplace] at hgroups
        exact hgroups
      exact ⟨r.groups, hgroups, hplace ▸ hbody⟩
  · rintro ⟨inner, rfl, hbody⟩
    exact .group hbody

/-- At the end of a pattern, a part without groups captures what it finds. -/
theorem captures_append_groupless_iff (h : second.groupless = true) :
    Captures casing (first ++ second) front piece back groups ↔
      ∃ left right, piece = left ++ right ∧
        first.Captures casing front left (right ++ back) groups ∧
        second.Finds casing (front ++ left) right back := by
  rw [captures_append_iff]
  constructor
  · rintro ⟨left, right, own, later, hpiece, rfl, hfirst, hsecond⟩
    obtain ⟨rfl, hfinds⟩ := (captures_groupless_iff h).mp hsecond
    exact ⟨left, right, hpiece, hfirst, hfinds⟩
  · rintro ⟨left, right, hpiece, hfirst, hfinds⟩
    exact ⟨left, right, groups, [], hpiece, rfl, hfirst,
      (captures_groupless_iff h).mpr ⟨rfl, hfinds⟩⟩

/-- At the end of a pattern, a group without groups inside of it is kept in front of the
others. -/
theorem captures_append_group_iff (h : body.groupless = true) :
    Captures casing (first ++ group index body) front piece back groups ↔
      ∃ left right own, piece = left ++ right ∧
        groups = ⟨index, (front ++ left).length, (front ++ left ++ right).length⟩ :: own ∧
        first.Captures casing front left (right ++ back) own ∧
        body.Finds casing (front ++ left) right back := by
  simp only [captures_append_iff, captures_group_iff, captures_groupless_iff h]
  constructor
  · rintro ⟨left, right, own, _, hpiece, rfl, hfirst, _, rfl, rfl, hbody⟩
    exact ⟨left, right, own, hpiece, rfl, hfirst, hbody⟩
  · rintro ⟨left, right, own, hpiece, rfl, hfirst, hbody⟩
    exact ⟨left, right, own, _, hpiece, rfl, hfirst, _, rfl, rfl, hbody⟩

/-! ## What a search takes -/

/-- A search keeps the groups of the piece that it takes. -/
theorem captures_of_matchAt? {found : Match}
    (h : pattern.matchAt? casing front.getLast? rest front.length =
      Option.some found) :
    ∃ piece back, rest = piece ++ back ∧ found.Cuts front piece back ∧
      pattern.Captures casing front piece back found.groups := by
  obtain ⟨q, hq, rfl⟩ := Option.map_eq_some_iff.mp h
  have hmatches : Matches casing pattern (.between front rest) q :=
    matches_of_mem_ends (List.mem_of_mem_head? hq)
  obtain ⟨piece, hrest, hplace, hcaptures⟩ := captures_of_matches hmatches
  refine ⟨piece, q.rest, hrest, ⟨rfl, ?_, rfl⟩, hcaptures⟩
  rw [hplace]
  exact List.length_append

/-- The match that a search takes ends in front of a character that is not in the
class. -/
def Exhausts (casing : Casing) (cls : CharClass) (pattern : Pattern) : Prop :=
  ∀ p q, (pattern.ends casing p).head? = Option.some q →
    ∀ c ∈ q.rest.head?, cls.accepts casing c = false

/-- The first end of a run is its longest one. -/
theorem exhausts_run (cls : CharClass) : (run cls).Exhausts casing cls := by
  have hlast (found : List Place) (before : Option Char) (offset : Nat)
      (groups : List Group) (rest : List Char) (q : Place)
      (h : (runEnds (cls.accepts casing) before offset groups found rest).head? =
        Option.some q) :
      ∀ c ∈ q.rest.head?, cls.accepts casing c = false := by
    induction rest generalizing found before offset with
    | nil =>
      obtain rfl := Option.some.inj h
      exact nofun
    | cons c rest ih =>
      rw [runEnds] at h
      split at h
      · exact ih _ _ _ h
      · rename_i hc
        obtain rfl := Option.some.inj h
        rintro _ ⟨⟩
        exact Bool.not_eq_true _ ▸ hc
  exact fun p => hlast [] p.before p.offset p.groups p.rest

theorem Exhausts.seq {cls : CharClass} (first : Pattern)
    (h : second.Exhausts casing cls) :
    (Pattern.seq first second).Exhausts casing cls := by
  intro p q hq
  rw [ends, List.head?_flatMap] at hq
  obtain ⟨r, -, hr⟩ := List.exists_of_findSome?_eq_some hq
  exact h r q hr

theorem Exhausts.group {cls : CharClass} (index : Nat)
    (h : body.Exhausts casing cls) :
    (Pattern.group index body).Exhausts casing cls := by
  intro p q hq
  rw [ends, List.head?_map] at hq
  obtain ⟨r, hr, rfl⟩ := Option.map_eq_some_iff.mp hq
  exact h p r hr

theorem Exhausts.not_accepts {cls : CharClass} {found : Match}
    (h : pattern.Exhausts casing cls)
    (hmatch : pattern.matchAt? casing front.getLast? rest front.length =
      Option.some found) :
    ∀ c ∈ found.after.head?, cls.accepts casing c = false := by
  obtain ⟨q, hq, rfl⟩ := Option.map_eq_some_iff.mp hmatch
  exact h _ q hq

/-- A search takes the optional tail, if there is a way to it. -/
theorem captures_of_matchAt?_optional {lead tail : Pattern} {found : Match}
    (h : (lead ++ optional tail).matchAt? casing front.getLast? rest front.length =
      Option.some found) :
    ∃ left more own, rest = left ++ more ∧
      lead.Captures casing front left more own ∧
      ((∃ right back later, more = right ++ back ∧
          tail.Captures casing (front ++ left) right back later ∧
          found.Cuts front (left ++ right) back ∧ found.groups = later ++ own) ∨
        (∀ right back, more = right ++ back →
          ¬tail.Finds casing (front ++ left) right back) ∧
          found.Cuts front left more ∧ found.groups = own) := by
  obtain ⟨q, hq, rfl⟩ := Option.map_eq_some_iff.mp h
  have hends : (lead ++ optional tail).ends casing (.between front rest) =
      (lead.ends casing (.between front rest)).flatMap
        fun r => tail.ends casing r ++ [r] := rfl
  have hq : ((lead ++ optional tail).ends casing (.between front rest)).head? =
      Option.some q := hq
  rw [hends, List.head?_flatMap] at hq
  obtain ⟨r, hr, hq⟩ := List.exists_of_findSome?_eq_some hq
  obtain ⟨left, hrest, hplace, hlead⟩ :=
    captures_of_matches (matches_of_mem_ends hr)
  refine ⟨left, r.rest, r.groups, hrest, hlead, ?_⟩
  cases htail : tail.ends casing r with
  | nil =>
    -- The tail does not match, so the search stops where the lead does.
    right
    rw [htail] at hq
    obtain rfl : r = q := Option.some.inj hq
    refine ⟨fun right back hmore hfinds => ?_, ⟨rfl, ?_, rfl⟩, rfl⟩
    · obtain ⟨s, -, hmatches⟩ := hfinds
      obtain ⟨groups, hmem⟩ := exists_mem_ends_of_matches hmatches r.groups
      rw [← hmore, ← hplace, htail] at hmem
      cases hmem
    · rw [hplace]
      exact List.length_append
  | cons s ends =>
    left
    rw [htail] at hq
    obtain rfl : s = q := Option.some.inj hq
    have hmatches : Matches casing tail r s :=
      matches_of_mem_ends (htail ▸ List.mem_cons_self)
    obtain ⟨own, hown, hfresh⟩ := hmatches.exists_own
    have hfresh := hfresh []
    have hstart : r.regroup [] = .between (front ++ left) r.rest := by
      rw [hplace]
      rfl
    rw [hstart, List.append_nil] at hfresh
    obtain ⟨right, hmore, hstop, hcaptures⟩ := captures_of_matches hfresh
    refine ⟨right, s.rest, own, hmore, hcaptures, ⟨rfl, ?_, rfl⟩, hown⟩
    have hoffset := congrArg Place.offset hstop
    rw [List.append_assoc] at hoffset
    exact hoffset.trans List.length_append

end Pattern

end Preflight
