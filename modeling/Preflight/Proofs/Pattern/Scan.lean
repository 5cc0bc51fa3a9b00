import Preflight.Proofs.Pattern.First
import Preflight.Proofs.Pattern.Finds

/-!
# Going through a text

A search goes through a text once and takes the first match, the first one
behind it, and so on.  `Trail` says so as a relation, for patterns that find no
empty pieces (`Solid`), and `trail_findAll` says that this is what a search does.

To compute what is found in a text that is made of known pieces, the text is
taken apart.  `Scans` says what a search finds from the start of a piece on,
until it goes on behind the piece:

* `Scans.append`: pieces one behind the other are gone through one after the
  other.
* `Silent.scans`: where no match starts, nothing is found.
* `Definite.scans`: a piece that the pattern finds is found as a whole, if the
  pattern finds no other piece at its place.

`captured_of_matchAt?` says what a numbered group of a match holds.
-/

namespace Preflight

/-- The match cuts its text into `front`, `piece` and `back`. -/
structure Match.Cuts (found : Match) (front piece back : List Char) : Prop where
  start : found.start = front.length
  stop : found.stop = front.length + piece.length
  after : found.after = back

/-- A match with a single group holds the piece between the group's ends. -/
theorem Match.group?_of_groups {found : Match} {index : Nat}
    {front piece back : List Char}
    (h : found.groups = [⟨index, front.length, (front ++ piece).length⟩]) :
    found.group? (front ++ (piece ++ back)) index = some piece := by
  simp [Match.group?, h]

/-- Texts up to the first character that is not of a kind are the same. -/
theorem append_inj_of_kind {kind : Char → Bool} {left left' right right' : List Char}
    (h : left ++ right = left' ++ right')
    (hleft : ∀ c ∈ left, kind c = true) (hleft' : ∀ c ∈ left', kind c = true)
    (hright : ∀ c ∈ right.head?, kind c = false)
    (hright' : ∀ c ∈ right'.head?, kind c = false) :
    left = left' ∧ right = right' := by
  induction left generalizing left' with
  | nil =>
    cases left' with
    | nil => exact ⟨rfl, h⟩
    | cons d left' =>
      obtain rfl : right = d :: (left' ++ right') := h
      have hd := hright d rfl
      rw [hleft' d List.mem_cons_self] at hd
      cases hd
  | cons c left ih =>
    obtain ⟨hc, hleft⟩ := List.forall_mem_cons.mp hleft
    cases left' with
    | nil =>
      obtain rfl : c :: (left ++ right) = right' := h
      have hd := hright' c rfl
      rw [hc] at hd
      cases hd
    | cons d left' =>
      obtain ⟨rfl, htail⟩ := List.cons.inj h
      obtain ⟨rfl, hrest⟩ := ih htail hleft (List.forall_mem_cons.mp hleft').2
      exact ⟨rfl, hrest⟩

/-- Two texts up to the first occurrence of a character are the same. -/
theorem append_cons_inj_of_notMem {c : Char} {left left' right right' : List Char}
    (hleft : c ∉ left) (hleft' : c ∉ left')
    (h : left ++ c :: right = left' ++ c :: right') :
    left = left' ∧ right = right' := by
  rcases List.append_eq_append_iff.mp h
    with ⟨more, rfl, htail⟩ | ⟨more, rfl, htail⟩
  · cases more with
    | nil => exact ⟨(List.append_nil left).symm, (List.cons.inj htail).2⟩
    | cons d more =>
      obtain ⟨rfl, -⟩ := List.cons.inj htail
      exact absurd (List.mem_append_right _ List.mem_cons_self) hleft'
  · cases more with
    | nil => exact ⟨List.append_nil left', (List.cons.inj htail).2.symm⟩
    | cons d more =>
      obtain ⟨rfl, -⟩ := List.cons.inj htail
      exact absurd (List.mem_append_right _ List.mem_cons_self) hleft

/-- An occurrence of a character stands behind a text without it. -/
theorem exists_append_of_notMem {c : Char} {left right before after : List Char}
    (hleft : c ∉ left) (h : left ++ right = before ++ c :: after) :
    ∃ more, before = left ++ more ∧ right = more ++ c :: after := by
  rcases List.append_eq_append_iff.mp h
    with ⟨more, rfl, hright⟩ | ⟨more, hmore, hright⟩
  · exact ⟨more, rfl, hright⟩
  · cases more with
    | nil =>
      rw [List.append_nil] at hmore
      exact ⟨[], by rw [hmore, List.append_nil], hright.symm⟩
    | cons d more =>
      obtain ⟨rfl, -⟩ := List.cons.inj hright
      rw [hmore] at hleft
      exact absurd (List.mem_append_right _ List.mem_cons_self) hleft

namespace Pattern

variable {casing : Casing} {pattern : Pattern}
  {front piece rest back : List Char} {found : Match}

/-- A search takes a piece that the pattern finds. -/
theorem cuts_of_matchAt?
    (h : pattern.matchAt? casing front.getLast? rest front.length =
      Option.some found) :
    ∃ piece back, rest = piece ++ back ∧ found.Cuts front piece back ∧
      pattern.Finds casing front piece back := by
  obtain ⟨q, hq, rfl⟩ := Option.map_eq_some_iff.mp h
  have hmatches : Matches casing pattern (.between front rest) q :=
    matches_of_mem_ends (List.mem_of_mem_head? hq)
  obtain ⟨piece, hrest, hfinds⟩ := hmatches.finds
  obtain ⟨piece', hleads⟩ := hmatches.leads
  obtain rfl : piece = piece' :=
    List.append_cancel_right (hrest.symm.trans hleads.rest)
  exact ⟨piece, q.rest, hrest, ⟨rfl, hleads.offset, rfl⟩, hfinds⟩

/-! ## Searching behind a part of the text -/

/-- The matches that a search finds behind `front`. -/
def findBehind (casing : Casing) (pattern : Pattern) (front rest : List Char) :
    List Match :=
  pattern.findFrom casing front.getLast? front.length front.length rest

/-- A search that may go on goes on. -/
theorem findFrom_eq_findBehind {resume : Nat} (h : resume ≤ front.length) :
    pattern.findFrom casing front.getLast? front.length resume rest =
      pattern.findBehind casing front rest := by
  unfold findBehind
  induction rest generalizing front resume with
  | nil => rw [findFrom, findFrom, if_neg (by omega), if_neg (by omega)]
  | cons c rest ih =>
    have hnext {resume : Nat} (h : resume ≤ front.length) :
        pattern.findFrom casing (Option.some c) (front.length + 1) resume rest =
          pattern.findFrom casing (Option.some c) (front.length + 1)
            (front.length + 1) rest := by
      have ih := @ih (front ++ [c]) resume
      rw [List.getLast?_concat, List.length_append] at ih
      exact ih (Nat.le_succ_of_le h)
    rw [findFrom, findFrom, if_neg (by omega), if_neg (by omega), hnext h,
      hnext (Nat.le_refl _)]

/-- Where the pattern does not match, the search moves on by one character. -/
theorem findBehind_of_eq_none {c : Char}
    (h : pattern.matchAt? casing front.getLast? (c :: rest) front.length = none) :
    pattern.findBehind casing front (c :: rest) =
      pattern.findBehind casing (front ++ [c]) rest := by
  have hnext := @findFrom_eq_findBehind casing pattern (front ++ [c]) rest
    front.length
  rw [List.getLast?_concat, List.length_append] at hnext
  rw [findBehind, findFrom, if_neg (Nat.lt_irrefl _), h]
  exact hnext (Nat.le_succ _)

/-- A search that goes on behind a piece of text skips the piece. -/
theorem findFrom_skip (front piece rest : List Char) :
    pattern.findFrom casing front.getLast? front.length
        (front.length + piece.length) (piece ++ rest) =
      pattern.findBehind casing (front ++ piece) rest := by
  induction piece generalizing front with
  | nil =>
    rw [List.append_nil]
    rfl
  | cons c piece ih =>
    have ih := ih (front ++ [c])
    rw [List.getLast?_concat, List.length_append, List.length_singleton,
      List.append_assoc, Nat.add_assoc, Nat.add_comm 1] at ih
    rw [List.cons_append, findFrom, List.length_cons,
      if_pos (Nat.lt_add_of_pos_right (Nat.succ_pos _))]
    exact ih

/-- Behind a match, the search goes on. -/
theorem findBehind_of_eq_some (hcuts : found.Cuts front piece back)
    (hne : piece ≠ [])
    (h : pattern.matchAt? casing front.getLast? (piece ++ back) front.length =
      Option.some found) :
    pattern.findBehind casing front (piece ++ back) =
      found :: pattern.findBehind casing (front ++ piece) back := by
  cases piece with
  | nil => exact absurd rfl hne
  | cons c piece =>
    have hskip := @findFrom_skip casing pattern (front ++ [c]) piece back
    rw [List.getLast?_concat, List.length_append, List.length_singleton,
      List.append_assoc, Nat.add_assoc, Nat.add_comm 1] at hskip
    have hstop : max found.stop (front.length + 1) =
        front.length + (piece.length + 1) := by
      rw [hcuts.stop, List.length_cons]
      omega
    rw [List.cons_append] at h ⊢
    rw [findBehind, findFrom, if_neg (Nat.lt_irrefl _), h]
    simp only [hstop]
    rw [hskip]
    rfl

/-! ## Trails -/

/-- The pattern finds no empty piece. -/
def Solid (casing : Casing) (pattern : Pattern) : Prop :=
  ∀ front back, ¬pattern.Finds casing front [] back

/-- No match starts in `piece`, where it stands. -/
def Silent (casing : Casing) (pattern : Pattern)
    (front piece back : List Char) : Prop :=
  ∀ skipped rest, piece = skipped ++ rest → rest ≠ [] →
    ∀ left right, rest ++ back = left ++ right →
      ¬pattern.Finds casing (front ++ skipped) left right

/-- The matches that one comes upon behind `front`: before each of them and behind
the last one, nothing that the pattern finds starts outside of a match. -/
inductive Trail (casing : Casing) (pattern : Pattern) :
    (front rest : List Char) → List Match → Prop where
  | done {front rest : List Char} (h : pattern.Silent casing front rest []) :
      Trail casing pattern front rest []
  | next {front skipped piece back : List Char} {found : Match}
      {more : List Match}
      (hsilent : pattern.Silent casing front skipped (piece ++ back))
      (hcuts : found.Cuts (front ++ skipped) piece back)
      (hfinds : pattern.Finds casing (front ++ skipped) piece back)
      (h : Trail casing pattern (front ++ skipped ++ piece) back more) :
      Trail casing pattern front (skipped ++ (piece ++ back)) (found :: more)

theorem silent_nil (front back : List Char) :
    pattern.Silent casing front [] back := by
  intro skipped rest h hne
  exact absurd (List.append_eq_nil_iff.mp h.symm).2 hne

theorem silent_cons_iff {c : Char} :
    pattern.Silent casing front (c :: piece) back ↔
      pattern.matchAt? casing front.getLast? (c :: (piece ++ back))
          front.length = none ∧
        pattern.Silent casing (front ++ [c]) piece back := by
  rw [← Option.not_isSome_iff_eq_none, matchAt?_isSome_iff]
  constructor
  · intro h
    constructor
    · rintro ⟨left, right, hsplit, hfinds⟩
      refine h [] (c :: piece) rfl (List.cons_ne_nil _ _) left right hsplit ?_
      rwa [List.append_nil]
    · intro skipped rest hpiece hne left right hsplit
      rw [List.append_assoc, List.singleton_append]
      exact h (c :: skipped) rest (congrArg (c :: ·) hpiece) hne left right hsplit
  · rintro ⟨hhere, hlater⟩ skipped rest hpiece hne left right hsplit hfinds
    cases skipped with
    | nil =>
      rw [List.nil_append] at hpiece
      rw [List.append_nil] at hfinds
      rw [← hpiece] at hsplit
      exact hhere ⟨left, right, hsplit, hfinds⟩
    | cons d skipped =>
      obtain ⟨rfl, htail⟩ := List.cons.inj hpiece
      refine hlater skipped rest htail hne left right hsplit ?_
      rwa [List.append_assoc, List.singleton_append]

theorem Solid.findBehind_nil (hsolid : pattern.Solid casing)
    (front : List Char) : pattern.findBehind casing front [] = [] := by
  have hnone : pattern.matchAt? casing front.getLast? [] front.length = none := by
    rw [← Option.not_isSome_iff_eq_none, matchAt?_isSome_iff]
    rintro ⟨left, right, hsplit, hfinds⟩
    obtain ⟨rfl, rfl⟩ := List.append_eq_nil_iff.mp hsplit.symm
    exact hsolid front [] hfinds
  rw [findBehind, findFrom, if_neg (Nat.lt_irrefl _), hnone]
  rfl

theorem Trail.skip {c : Char} {more : List Match}
    (hnone : pattern.matchAt? casing front.getLast? (c :: rest) front.length =
      none)
    (h : Trail casing pattern (front ++ [c]) rest more) :
    Trail casing pattern front (c :: rest) more := by
  generalize hfront : front ++ [c] = next at h
  cases h with
  | done h =>
    subst hfront
    refine .done (silent_cons_iff.mpr ⟨?_, h⟩)
    rwa [List.append_nil]
  | @next _ skipped piece back found more hsilent hcuts hfinds h =>
    subst hfront
    rw [List.append_assoc front, List.singleton_append] at hcuts hfinds h
    rw [← List.cons_append]
    exact .next (silent_cons_iff.mpr ⟨hnone, hsilent⟩) hcuts hfinds h

theorem Trail.here {more : List Match} (hcuts : found.Cuts front piece back)
    (hfinds : pattern.Finds casing front piece back)
    (h : Trail casing pattern (front ++ piece) back more) :
    Trail casing pattern front (piece ++ back) (found :: more) := by
  have hnext := @Trail.next casing pattern front [] piece back found more
    (silent_nil front _)
  rw [List.append_nil] at hnext
  exact hnext hcuts hfinds h

/-- A search leaves a trail. -/
theorem Solid.trail_findBehind (hsolid : pattern.Solid casing) :
    ∀ front rest,
      Trail casing pattern front rest (pattern.findBehind casing front rest)
  | front, [] => by
    rw [hsolid.findBehind_nil]
    exact .done (silent_nil front [])
  | front, c :: tail => by
    cases hmatch : pattern.matchAt? casing front.getLast? (c :: tail)
        front.length with
    | none =>
      rw [findBehind_of_eq_none hmatch]
      exact (hsolid.trail_findBehind (front ++ [c]) tail).skip hmatch
    | some found =>
      obtain ⟨piece, back, hsplit, hcuts, hfinds⟩ := cuts_of_matchAt? hmatch
      have hne : piece ≠ [] := fun hnil => hsolid front back (hnil ▸ hfinds)
      have hshorter : back.length < (c :: tail).length := by
        have := List.length_pos_of_ne_nil hne
        rw [hsplit, List.length_append]
        omega
      rw [hsplit] at hmatch ⊢
      rw [findBehind_of_eq_some hcuts hne hmatch]
      exact .here hcuts hfinds (hsolid.trail_findBehind (front ++ piece) back)
termination_by _ rest => rest.length
decreasing_by
  · exact Nat.lt_succ_self tail.length
  · exact hshorter

theorem Solid.trail_findAll (hsolid : pattern.Solid casing) (text : List Char) :
    Trail casing pattern [] text (pattern.findAll casing text) :=
  hsolid.trail_findBehind [] text

/-- Each match of a trail is a piece of the text that the pattern finds. -/
theorem Trail.cuts {trail : List Match}
    (h : Trail casing pattern front rest trail) (hfound : found ∈ trail) :
    ∃ skipped piece back, rest = skipped ++ (piece ++ back) ∧
      found.Cuts (front ++ skipped) piece back ∧
      pattern.Finds casing (front ++ skipped) piece back := by
  induction h with
  | done _ => cases hfound
  | @next front skipped piece back first more _ hcuts hfinds _ ih =>
    rcases List.mem_cons.mp hfound with rfl | hlater
    · exact ⟨skipped, piece, back, rfl, hcuts, hfinds⟩
    · obtain ⟨between, piece', back', rfl, hcuts', hfinds'⟩ := ih hlater
      rw [List.append_assoc (front ++ skipped), List.append_assoc front]
        at hcuts' hfinds'
      refine ⟨skipped ++ (piece ++ between), piece', back', ?_, hcuts', hfinds'⟩
      simp only [List.append_assoc]

/-- The matches of a trail stand one behind the other. -/
theorem Trail.pairwise {trail : List Match}
    (h : Trail casing pattern front rest trail) :
    trail.Pairwise fun first second => first.stop ≤ second.start := by
  induction h with
  | done _ => exact .nil
  | @next front skipped piece back first more _ hcuts _ h ih =>
    refine .cons (fun later hlater => ?_) ih
    obtain ⟨between, _, _, -, hlaterCuts, -⟩ := h.cuts hlater
    rw [hcuts.stop, hlaterCuts.start]
    simp only [List.length_append]
    omega

/-! ## Going through a piece -/

/-- From the start of `piece` on, the search finds `trail`, and then it goes on
behind the piece. -/
def Scans (casing : Casing) (pattern : Pattern)
    (front piece back : List Char) (trail : List Match) : Prop :=
  pattern.findBehind casing front (piece ++ back) =
    trail ++ pattern.findBehind casing (front ++ piece) back

theorem Scans.append {piece' : List Char} {trail trail' : List Match}
    (h : pattern.Scans casing front piece (piece' ++ back) trail)
    (h' : pattern.Scans casing (front ++ piece) piece' back trail') :
    pattern.Scans casing front (piece ++ piece') back (trail ++ trail') := by
  unfold Scans at h h' ⊢
  rw [List.append_assoc, h, h', List.append_assoc, List.append_assoc]

/-- Where no match starts, nothing is found. -/
theorem Silent.scans (h : pattern.Silent casing front piece back) :
    pattern.Scans casing front piece back [] := by
  unfold Scans
  induction piece generalizing front with
  | nil =>
    rw [List.append_nil]
    rfl
  | cons c piece ih =>
    obtain ⟨hnone, hlater⟩ := silent_cons_iff.mp h
    have ih := ih hlater
    rw [List.append_assoc, List.singleton_append] at ih
    exact (findBehind_of_eq_none hnone).trans ih

theorem Silent.append {piece' : List Char}
    (h : pattern.Silent casing front piece (piece' ++ back))
    (h' : pattern.Silent casing (front ++ piece) piece' back) :
    pattern.Silent casing front (piece ++ piece') back := by
  induction piece generalizing front with
  | nil => rwa [List.append_nil] at h'
  | cons c piece ih =>
    obtain ⟨hnone, hlater⟩ := silent_cons_iff.mp h
    rw [List.cons_append]
    refine silent_cons_iff.mpr ⟨?_, ih hlater ?_⟩
    · rwa [List.append_assoc]
    · rwa [List.append_assoc, List.singleton_append]

/-- A text that has been gone through to its end. -/
theorem Solid.findAll_of_scans (hsolid : pattern.Solid casing)
    {text : List Char} {trail : List Match}
    (h : pattern.Scans casing [] text [] trail) :
    pattern.findAll casing text = trail := by
  have htext : pattern.findBehind casing [] (text ++ []) = _ := h
  rw [List.append_nil, hsolid.findBehind_nil, List.append_nil] at htext
  exact htext

/-- At no place the pattern finds more than one piece. -/
def Definite (casing : Casing) (pattern : Pattern) : Prop :=
  ∀ front piece back piece' back', piece ++ back = piece' ++ back' →
    pattern.Finds casing front piece back →
    pattern.Finds casing front piece' back' → piece' = piece

theorem Definite.matchAt? (hdefinite : pattern.Definite casing)
    (hfinds : pattern.Finds casing front piece back) :
    ∃ found, found.Cuts front piece back ∧
      pattern.matchAt? casing front.getLast? (piece ++ back) front.length =
        Option.some found := by
  obtain ⟨found, hmatch⟩ := Option.isSome_iff_exists.mp <|
    matchAt?_isSome_iff.mpr ⟨piece, back, rfl, hfinds⟩
  obtain ⟨piece', back', hsplit, hcuts, hfinds'⟩ := cuts_of_matchAt? hmatch
  obtain rfl := hdefinite front piece back piece' back' hsplit hfinds hfinds'
  obtain rfl := List.append_cancel_left hsplit
  exact ⟨found, hcuts, hmatch⟩

/-- What the pattern finds is found as a whole. -/
theorem Definite.scans (hdefinite : pattern.Definite casing)
    (hsolid : pattern.Solid casing)
    (hfinds : pattern.Finds casing front piece back) :
    ∃ found, found.Cuts front piece back ∧
      pattern.matchAt? casing front.getLast? (piece ++ back) front.length =
        Option.some found ∧
      pattern.Scans casing front piece back [found] := by
  have hne : piece ≠ [] := fun hnil => hsolid front back (hnil ▸ hfinds)
  obtain ⟨found, hcuts, hmatch⟩ := hdefinite.matchAt? hfinds
  exact ⟨found, hcuts, hmatch, findBehind_of_eq_some hcuts hne hmatch⟩

/-- No match that starts in `piece` goes on behind it. -/
def Confined (casing : Casing) (pattern : Pattern)
    (front piece back : List Char) : Prop :=
  ∀ skipped rest, piece = skipped ++ rest → rest ≠ [] →
    ∀ left right, rest ++ back = left ++ right →
      pattern.Finds casing (front ++ skipped) left right → ∃ more, rest = left ++ more

theorem Confined.of_append {skipped : List Char}
    (h : pattern.Confined casing front (skipped ++ piece) back) :
    pattern.Confined casing (front ++ skipped) piece back := by
  intro between rest hsplit hne left right hrest hfinds
  rw [List.append_assoc] at hfinds
  refine h (skipped ++ between) rest ?_ hne left right hrest hfinds
  rw [hsplit, List.append_assoc]

/-- A piece that its matches do not leave is gone through on its own. -/
theorem Confined.exists_scans (hsolid : pattern.Solid casing) :
    ∀ {front piece : List Char}, pattern.Confined casing front piece back →
      ∃ trail, pattern.Scans casing front piece back trail
  | front, [], _ => ⟨[], (silent_nil front back).scans⟩
  | front, c :: piece, h => by
    cases hmatch : pattern.matchAt? casing front.getLast? (c :: (piece ++ back))
        front.length with
    | none =>
      have h : pattern.Confined casing front ([c] ++ piece) back := h
      have hrest : pattern.Confined casing (front ++ [c]) piece back := h.of_append
      obtain ⟨trail, hscans⟩ := hrest.exists_scans hsolid
      refine ⟨trail, (findBehind_of_eq_none hmatch).trans ?_⟩
      unfold Scans at hscans
      rwa [List.append_assoc, List.singleton_append] at hscans
    | some found =>
      obtain ⟨left, right, hsplit, hcuts, hfinds⟩ := cuts_of_matchAt? hmatch
      have hne : left ≠ [] := fun hnil => hsolid front right (hnil ▸ hfinds)
      obtain ⟨more, hmore⟩ := h [] (c :: piece) rfl (List.cons_ne_nil _ _) left right
        hsplit (by rwa [List.append_nil])
      have hshorter : more.length < (c :: piece).length := by
        have := List.length_pos_of_ne_nil hne
        rw [hmore, List.length_append]
        omega
      obtain rfl : right = more ++ back := by
        rw [← List.cons_append, hmore, List.append_assoc] at hsplit
        exact (List.append_cancel_left hsplit).symm
      have hrest : pattern.Confined casing (front ++ left) more back :=
        .of_append (hmore ▸ h)
      obtain ⟨trail, hscans⟩ := hrest.exists_scans hsolid
      rw [hsplit] at hmatch
      refine ⟨found :: trail, ?_⟩
      unfold Scans at hscans ⊢
      rw [hmore, List.append_assoc, findBehind_of_eq_some hcuts hne hmatch, hscans,
        List.append_assoc]
      rfl
termination_by _ piece => piece.length
decreasing_by
  · exact Nat.lt_succ_self piece.length
  · exact hshorter

/-! ## Groups -/

/-- The piece that a match of a part without groups finds, and where it leads. -/
theorem Matches.finds_groupless {part : Pattern} {q : Place}
    (hpart : part.groupless = true)
    (h : Matches casing part (.between front rest) q) :
    ∃ piece, rest = piece ++ q.rest ∧ q = .between (front ++ piece) q.rest ∧
      part.Finds casing front piece q.rest := by
  obtain ⟨piece, hleads⟩ := h.leads
  have hrest : rest = piece ++ q.rest := hleads.rest
  have hgroups : q.groups = [] := h.groups_eq hpart
  rw [hrest] at h hleads
  have hq := hleads.eq_between
  rw [hgroups] at hq
  exact ⟨piece, hrest, hq, q, hleads, h⟩

/-- A numbered group between parts without groups holds the piece that its body
has found. -/
theorem captured_of_matchAt? {lead body trail : Pattern} {index : Nat}
    (hlead : lead.groupless = true) (hbody : body.groupless = true)
    (htrail : trail.groupless = true)
    (h : (lead ++ group index body ++ trail).matchAt? casing front.getLast? rest
      front.length = Option.some found) :
    ∃ left piece right back, rest = left ++ (piece ++ (right ++ back)) ∧
      lead.Finds casing front left (piece ++ (right ++ back)) ∧
      body.Finds casing (front ++ left) piece (right ++ back) ∧
      trail.Finds casing (front ++ left ++ piece) right back ∧
      found.group? (front ++ rest) index = Option.some piece := by
  obtain ⟨q, hq, rfl⟩ := Option.map_eq_some_iff.mp h
  have hmatches : Matches casing (.seq (.seq lead (.group index body)) trail)
      (.between front rest) q := matches_of_mem_ends (List.mem_of_mem_head? hq)
  cases hmatches with
  | @seq _ _ _ closed _ hfirst htrailing =>
    cases hfirst with
    | @seq _ _ _ r _ hleading hgroup =>
      cases hgroup with
      | @group _ _ _ s hinside =>
        obtain ⟨left, hleft, hr, hfindsLeft⟩ := hleading.finds_groupless hlead
        rw [hr] at hinside
        obtain ⟨piece, hpiece, hs, hfindsPiece⟩ :=
          hinside.finds_groupless hbody
        obtain ⟨groups, hloose⟩ := htrailing.regroup []
        have hplace : (Place.close index r s).regroup [] =
            .between (front ++ left ++ piece) s.rest := by
          rw [hs]
          rfl
        rw [hplace] at hloose
        obtain ⟨right, hright, hfindsRight⟩ := hloose.finds
        have hsplit : rest = left ++ (piece ++ (right ++ q.rest)) := by
          rw [hleft, hpiece, hright]
          rfl
        have hgroups : q.groups = [⟨index, r.offset, s.offset⟩] := by
          rw [htrailing.groups_eq htrail, hs]
          rfl
        rw [hpiece, hright] at hfindsLeft
        rw [hright] at hfindsPiece
        refine ⟨left, piece, right, q.rest, hsplit, hfindsLeft, hfindsPiece,
          hfindsRight, ?_⟩
        rw [hsplit, ← List.append_assoc]
        refine Match.group?_of_groups ?_
        show q.groups = _
        rw [hgroups, hs, hr]
        rfl

end Pattern

end Preflight
