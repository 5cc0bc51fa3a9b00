import Preflight.Proofs.LineEnds.Text
import Preflight.Proofs.Pattern.Finds
import Preflight.Proofs.Pattern.First

/-!
# Patterns and line ends

When every LF of a text becomes CR LF, every place of the text has a place in
the other text (`Place.crlf`), and there is one new place in the middle of each
line end.  A match of the text goes over to the other one as long as what
happens in the middle of line ends makes no difference.

`Midway` says how a continuation behaves there: it fails, or does what it does
behind the line end, or fails at least where it fails behind.  `Pattern.enters`
computes how a pattern behaves midway from how its continuation does, and is
undefined where the other line ends might show.  It is sound:

* `holds_first`: midway, a pattern behaves as computed.
* `agrees_first`: at all other places, it does in both texts the same.

A pattern that is safe to put at the end and fails midway by itself is
`LineNeutral`, which is decided by computation for each pattern.
-/

namespace Preflight

open Text

/-! ## Places -/

/-- The same group when the text has other line ends. -/
def Group.crlf (text : List Char) (g : Group) : Group :=
  { g with start := crlfOffset text g.start, stop := crlfOffset text g.stop }

namespace Place

/-- The place is one of the text. -/
def IsOf (text : List Char) (p : Place) : Prop :=
  ∃ front, text = front ++ p.rest ∧ p.before = front.getLast? ∧
    p.offset = front.length

/-- The same place when the text has other line ends. -/
def crlf (text : List Char) (p : Place) : Place where
  before := p.before
  rest := Text.crlf p.rest
  offset := crlfOffset text p.offset
  groups := p.groups.map (·.crlf text)

/-- The place in the middle of the line end behind `front`. -/
def midway (front back : List Char) (groups : List Group) : Place :=
  ⟨some '\r', '\n' :: Text.crlf back, (Text.crlf front).length + 1, groups⟩

/-- The place behind the line end behind `front`. -/
def passed (front back : List Char) (groups : List Group) : Place :=
  ⟨some '\n', Text.crlf back, (Text.crlf front).length + 2, groups⟩

variable {text : List Char} {p q : Place}

theorem IsOf.step (hp : p.IsOf text) {ok : Char → Bool}
    (h : p.step? ok = some q) : q.IsOf text := by
  obtain ⟨front, htext, hbefore, hoffset⟩ := hp
  obtain ⟨c, -, hleads, -⟩ := Leads.of_step? h
  refine ⟨front ++ [c], ?_, ?_, ?_⟩
  · rw [htext, hleads.rest, List.append_assoc]
  · rw [hleads.before, List.getLast?_concat]
    rfl
  · rw [hleads.offset, hoffset, List.length_append]

theorem IsOf.length_eq (hp : p.IsOf text) :
    text.length = p.offset + p.rest.length := by
  obtain ⟨front, htext, -, hoffset⟩ := hp
  rw [hoffset, ← List.length_append, ← htext]

/-- CR is as little a word character as LF is. -/
@[simp] theorem atWordBoundary_crlf (text : List Char) (p : Place) :
    (p.crlf text).atWordBoundary = p.atWordBoundary := by
  have hhead : (Text.crlf p.rest).head?.any isWord = p.rest.head?.any isWord := by
    cases p.rest using crlf_induction with
    | nil => rfl
    | lineEnd rest _ => rfl
    | cons c rest hc _ => rw [crlf_cons hc, List.head?_cons, List.head?_cons]
  rw [atWordBoundary, atWordBoundary, ← hhead]
  rfl

/-- Characters other than line ends are passed alike. -/
theorem step?_crlf (hp : p.IsOf text) (hline : p.rest.head? ≠ some '\n')
    (ok : Char → Bool) :
    (p.crlf text).step? ok = (p.step? ok).map (·.crlf text) := by
  obtain ⟨before, rest, offset, groups⟩ := p
  obtain ⟨front, rfl, rfl, rfl⟩ := hp
  cases rest with
  | nil => rfl
  | cons c rest =>
    have hc : c ≠ '\n' := fun h => hline (congrArg some h)
    have hnext : crlfOffset (front ++ c :: rest) (front.length + 1) =
        crlfOffset (front ++ c :: rest) front.length + 1 := by
      rw [crlfOffset_succ, crlfOffset_append_length, crlf_cons hc]
      rfl
    simp only [step?, crlf, crlf_cons hc]
    split
    · simp only [Option.map_some, hnext]
    · rfl

theorem step?_midway (front back : List Char) (groups : List Group)
    (ok : Char → Bool) :
    (midway front back groups).step? ok =
      if ok '\n' then some (passed front back groups) else none :=
  rfl

/-- In front of a line end, what accepts it leads behind it in the one text, and
in the other text what accepts CR leads to the middle of it. -/
theorem step?_of_lineEnd (hp : p.IsOf text) (hline : p.rest.head? = some '\n') :
    ∃ front back groups q, text = front ++ '\n' :: back ∧ q.IsOf text ∧
      q.offset = p.offset + 1 ∧ q.crlf text = passed front back groups ∧
      ∀ ok : Char → Bool,
        p.step? ok = (if ok '\n' then some q else none) ∧
          (p.crlf text).step? ok =
            if ok '\r' then some (midway front back groups) else none := by
  obtain ⟨before, rest, offset, groups⟩ := p
  obtain ⟨front, rfl, rfl, rfl⟩ := hp
  obtain ⟨back, rfl⟩ := List.head?_eq_some_iff.mp hline
  refine ⟨front, back, groups.map (·.crlf (front ++ '\n' :: back)),
    ⟨some '\n', back, front.length + 1, groups⟩, rfl,
    ⟨front ++ ['\n'], ?_, ?_, ?_⟩, rfl, ?_, fun ok => ⟨rfl, ?_⟩⟩
  · exact List.append_cons front '\n' back
  · rw [List.getLast?_concat]
  · rw [List.length_append, List.length_singleton]
  · simp only [crlf, passed, crlfOffset_succ]
    rfl
  · simp only [step?, crlf, crlf_lineEnd, midway, crlfOffset_append_length]

end Place

/-! ## Midway through a line end -/

/-- How a continuation behaves in the middle of a line end. -/
inductive Midway where
  /-- It fails. -/
  | fails
  /-- It does what it does behind the line end. -/
  | skips
  /-- It fails where it fails behind the line end. -/
  | follows
  | unknown
  deriving DecidableEq, Repr

namespace Midway

variable {α : Type}

/-- What comes of a continuation midway, and what comes of it behind the line
end. -/
def Relates (midway passed : Option α) : Midway → Prop
  | fails => midway = none
  | skips => midway = passed
  | follows => passed = none → midway = none
  | unknown => True

/-- The continuation behaves so in the middle of all line ends of the text. -/
def Holds (text : List Char) (q : Midway) (k : Place → Option α) : Prop :=
  ∀ front back groups, text = front ++ '\n' :: back →
    q.Relates (k (.midway front back groups)) (k (.passed front back groups))

/-- How two alternatives behave, one after the other. -/
def either : Midway → Midway → Midway
  | fails, fails => fails
  | skips, skips => skips
  | unknown, _ | _, unknown => unknown
  | _, _ => follows

/-- How a single character in front behaves, by whether its class accepts CR and
LF.  It passes a line end in two steps, so what follows has to skip the second
one. -/
def behindOne (cr lf : Bool) (q : Midway) : Option Midway :=
  if lf then if cr ∧ q = skips then some unknown else none
  else if cr ∧ q ≠ fails then none
  else some fails

/-- How a run in front behaves.  If it can pass CR alone, the first place where it
stops is midway, so what follows has to fail there. -/
def behindRun (cr lf : Bool) (q : Midway) : Option Midway :=
  if lf then if cr ∧ q ≠ unknown then some skips else none
  else if cr then if q = fails then some fails else none
  else some (if q = skips then follows else q)

/-- What is left when a group is closed: the group shows where it was. -/
def closed : Midway → Midway
  | fails => fails
  | skips | follows | unknown => unknown

variable {q r : Midway}

theorem Relates.follows {midway passed : Option α} (h : q.Relates midway passed)
    (hq : q ≠ unknown) : passed = none → midway = none := by
  cases q with
  | fails => exact fun _ => h
  | skips => exact fun hpassed => h.trans hpassed
  | follows => exact h
  | unknown => exact absurd rfl hq

theorem Relates.either {midway passed midway' passed' : Option α}
    (h : q.Relates midway passed) (h' : r.Relates midway' passed') :
    (q.either r).Relates (midway.or midway') (passed.or passed') := by
  have hboth (hq : q ≠ unknown) (hr : r ≠ unknown) :
      passed.or passed' = none → midway.or midway' = none := by
    intro hpassed
    obtain ⟨hfirst, hsecond⟩ := Option.or_eq_none_iff.mp hpassed
    exact Option.or_eq_none_iff.mpr
      ⟨h.follows hq hfirst, h'.follows hr hsecond⟩
  cases q <;> cases r <;> try exact trivial
  case fails.fails => exact Option.or_eq_none_iff.mpr ⟨h, h'⟩
  case skips.skips => exact congrArg₂ Option.or h h'
  all_goals exact hboth nofun nofun

variable {text : List Char} {k : Place → Option α}

theorem Holds.closed (h : q.Holds text k) (close : Place → Place)
    (hclose : ∀ front back groups, ∃ groups',
      close (.midway front back groups) = .midway front back groups') :
    q.closed.Holds text fun p => k (close p) := by
  intro front back groups htext
  cases q with
  | fails =>
    obtain ⟨groups', heq⟩ := hclose front back groups
    exact (congrArg k heq).trans (h front back groups' htext)
  | skips | follows | unknown => exact trivial

end Midway

namespace Pattern

variable {casing : Casing} {text : List Char} {α β : Type}

/-- How the pattern behaves midway when its continuation behaves as `q`, or
`none` if it might show that the text has other line ends. -/
def enters (casing : Casing) : Pattern → Midway → Option Midway
  | empty, q => Option.some q
  | one cls, q =>
    Midway.behindOne (cls.accepts casing '\r') (cls.accepts casing '\n') q
  | run cls, q =>
    Midway.behindRun (cls.accepts casing '\r') (cls.accepts casing '\n') q
  | wordBoundary, _ | textStart, _ | lineStart, _ => Option.some .fails
  | seq first second, q => (second.enters casing q).bind (first.enters casing)
  | alt first second, q =>
    (first.enters casing q).bind fun r => (second.enters casing q).map r.either
  | star body, q =>
    if q = .fails ∧ body.groupless = true ∧
        body.enters casing .fails = Option.some .fails then
      Option.some .fails
    else none
  | group _ body, q => (body.enters casing q.closed).map Midway.closed

theorem enters_star_iff {body : Pattern} {q r : Midway} :
    enters casing (.star body) q = Option.some r ↔
      (q = .fails ∧ r = .fails) ∧ body.groupless = true ∧
        body.enters casing .fails = Option.some .fails := by
  rw [enters]
  split
  · rename_i hstar
    rw [Option.some_inj, eq_comm]
    exact ⟨fun hr => ⟨⟨hstar.1, hr⟩, hstar.2⟩, fun h => h.1.2⟩
  · rename_i hstar
    exact iff_of_false nofun fun h => hstar ⟨h.1.1, h.2⟩

/-! ## In the middle of line ends -/

theorem first_one_midway (cls : CharClass) (k : Place → Option α)
    (front back : List Char) (groups : List Group) :
    first casing (.one cls) k (.midway front back groups) =
      if cls.accepts casing '\n' then k (.passed front back groups) else none := by
  rw [first_one, Place.step?_midway]
  split <;> rfl

theorem first_run_midway (cls : CharClass) (k : Place → Option α)
    (front back : List Char) (groups : List Group) :
    first casing (.run cls) k (.midway front back groups) =
      if cls.accepts casing '\n' then
        (first casing (.run cls) k (.passed front back groups)).or
          (k (.midway front back groups))
      else k (.midway front back groups) := by
  rw [first_run, Place.step?_midway]
  split <;> rfl

/-- A run fails only where its continuation does. -/
theorem eq_none_of_first_run {cls : CharClass} {k : Place → Option α} {p : Place}
    (h : first casing (.run cls) k p = none) : k p = none := by
  rw [first_run] at h
  exact (Option.or_eq_none_iff.mp h).2

theorem holds_first_one {cls : CharClass} {q r : Midway}
    (h : enters casing (.one cls) q = Option.some r) {k : Place → Option α} :
    r.Holds text (first casing (.one cls) k) := by
  intro front back groups htext
  rw [enters, Midway.behindOne] at h
  split at h
  · split at h
    · obtain rfl := Option.some.inj h
      exact trivial
    · cases h
  · rename_i hlf
    split at h
    · cases h
    · obtain rfl := Option.some.inj h
      exact (first_one_midway cls k front back groups).trans (if_neg hlf)

theorem holds_first_run {cls : CharClass} {q r : Midway}
    (h : enters casing (.run cls) q = Option.some r) {k : Place → Option α}
    (hk : q.Holds text k) : r.Holds text (first casing (.run cls) k) := by
  intro front back groups htext
  have hmidway : first casing (.run cls) k _ = _ :=
    first_run_midway cls k front back groups
  rw [enters, Midway.behindRun] at h
  by_cases hlf : cls.accepts casing '\n' = true
  · rw [if_pos hlf] at h hmidway
    split at h
    · rename_i hq
      obtain rfl := Option.some.inj h
      have hfollows := (hk front back groups htext).follows hq.2
      -- What fails behind the line end fails midway, so it can be left out.
      cases hpassed : first casing (.run cls) k (.passed front back groups) with
      | some a =>
        rw [hpassed, Option.some_or] at hmidway
        exact hmidway
      | none =>
        rw [hpassed, Option.none_or] at hmidway
        exact hmidway.trans (hfollows (eq_none_of_first_run hpassed))
    · cases h
  · rw [if_neg hlf] at h hmidway
    have hk := hk front back groups htext
    split at h
    · split at h
      · rename_i hq
        obtain rfl := Option.some.inj h
        subst hq
        exact hmidway.trans hk
      · cases h
    · obtain rfl := Option.some.inj h
      cases q with
      | fails => exact hmidway.trans hk
      | skips =>
        exact fun hpassed =>
          hmidway.trans (hk.trans (eq_none_of_first_run hpassed))
      | follows =>
        exact fun hpassed => hmidway.trans (hk (eq_none_of_first_run hpassed))
      | unknown => exact trivial

/-- Of two line ends of a text, the one that is further on has less text
behind it. -/
theorem length_lt_of_midway_offset_lt {front back front' back' : List Char}
    {groups groups' : List Group} (htext : text = front ++ '\n' :: back)
    (htext' : text = front' ++ '\n' :: back')
    (hlt : (Place.midway front back groups).offset <
      (Place.midway front' back' groups').offset) :
    back'.length < back.length := by
  have hlength := congrArg List.length htext
  have hlength' := congrArg List.length htext'
  rw [List.length_append, List.length_cons] at hlength hlength'
  have hoffset : crlfOffset text front.length = (crlf front).length := by
    rw [htext, crlfOffset_append_length]
  have hoffset' : crlfOffset text front'.length = (crlf front').length := by
    rw [htext', crlfOffset_append_length]
  have hfront : front.length < front'.length := by
    rw [← crlfOffset_lt_iff text (by omega), hoffset, hoffset']
    exact Nat.lt_of_add_lt_add_right hlt
  omega

theorem holds_first_star {body : Pattern} (hgroupless : body.groupless = true)
    (hbody : ∀ {k : Place → Option α}, Midway.fails.Holds text k →
      Midway.fails.Holds text (first casing body k))
    {k : Place → Option α} (hk : Midway.fails.Holds text k) :
    Midway.fails.Holds text (first casing (.star body) k) := by
  intro front back groups htext
  induction hn : back.length using Nat.strongRecOn
    generalizing front back groups with
  | ind n ih =>
    have hlater : Midway.fails.Holds text fun p =>
        if (Place.midway front back groups).offset < p.offset then
          first casing (.star body) k p
        else none := by
      intro front' back' groups' htext'
      by_cases hlt : (Place.midway front back groups).offset <
          (Place.midway front' back' groups').offset
      · have := length_lt_of_midway_offset_lt htext htext' hlt
        exact (if_pos hlt).trans
          (ih _ (hn ▸ this) front' back' groups' htext' rfl)
      · exact if_neg hlt
    show first casing (.star body) k _ = none
    rw [first_star hgroupless]
    exact Option.or_eq_none_iff.mpr
      ⟨hbody hlater front back groups htext, hk front back groups htext⟩

/-- Midway, a pattern behaves as computed. -/
theorem holds_first {pattern : Pattern} {q r : Midway}
    (h : pattern.enters casing q = Option.some r) {k : Place → Option α}
    (hk : q.Holds text k) : r.Holds text (pattern.first casing k) := by
  induction pattern generalizing q r k with
  | empty =>
    obtain rfl := Option.some.inj h
    intro front back groups htext
    simpa only [first_empty] using hk front back groups htext
  | one cls => exact holds_first_one h
  | run cls => exact holds_first_run h hk
  | wordBoundary =>
    obtain rfl := Option.some.inj h
    exact fun front back groups _ => first_wordBoundary k _
  | textStart =>
    obtain rfl := Option.some.inj h
    exact fun front back groups _ => first_textStart k _
  | lineStart =>
    obtain rfl := Option.some.inj h
    exact fun front back groups _ => first_lineStart k _
  | seq first second ihFirst ihSecond =>
    obtain ⟨between, hsecond, hfirst⟩ := Option.bind_eq_some_iff.mp h
    have hboth := ihFirst hfirst (ihSecond hsecond hk)
    intro front back groups htext
    simpa only [first_seq] using hboth front back groups htext
  | alt first second ihFirst ihSecond =>
    obtain ⟨r, hfirst, h⟩ := Option.bind_eq_some_iff.mp h
    obtain ⟨s, hsecond, rfl⟩ := Option.map_eq_some_iff.mp h
    intro front back groups htext
    have heither := (ihFirst hfirst hk front back groups htext).either
      (ihSecond hsecond hk front back groups htext)
    simpa only [first_alt] using heither
  | star body ih =>
    obtain ⟨⟨rfl, rfl⟩, hgroupless, hbody⟩ := enters_star_iff.mp h
    exact holds_first_star hgroupless (ih hbody) hk
  | group index body ih =>
    obtain ⟨r, hbody, rfl⟩ := Option.map_eq_some_iff.mp h
    intro front back groups htext
    have hclosed := hk.closed (.close index (.midway front back groups))
      fun front' back' groups' => ⟨_, rfl⟩
    have hmidway := ih hbody hclosed front back groups htext
    cases r with
    | fails => exact (first_group k _ index body).trans hmidway
    | skips | follows | unknown => exact trivial

/-! ## At the other places -/

/-- At the places of the text, a continuation in the one text comes to what the
other does in the other text. -/
def Agrees (text : List Char) (F : α → β) (k : Place → Option α)
    (k' : Place → Option β) : Prop :=
  ∀ p, p.IsOf text → k' (p.crlf text) = (k p).map F

variable {F : α → β} {k : Place → Option α} {k' : Place → Option β}

/-- A step over anything but a line end. -/
theorem Agrees.step (hk : Agrees text F k k') {p : Place} (hp : p.IsOf text)
    (hline : p.rest.head? ≠ Option.some '\n') (ok : Char → Bool) :
    ((p.crlf text).step? ok).bind k' = ((p.step? ok).bind k).map F := by
  rw [Place.step?_crlf hp hline]
  cases hstep : p.step? ok with
  | none => rfl
  | some q => exact hk q (hp.step hstep)

theorem agrees_first_one {cls : CharClass} {q r : Midway}
    (h : enters casing (.one cls) q = Option.some r) (hk : Agrees text F k k')
    (hmidway : q.Holds text k') :
    Agrees text F (first casing (.one cls) k) (first casing (.one cls) k') := by
  intro p hp
  rw [first_one, first_one]
  by_cases hline : p.rest.head? = Option.some '\n'
  · obtain ⟨front, back, groups, next, htext, hnext, -, hpassed, hstep⟩ :=
      Place.step?_of_lineEnd hp hline
    obtain ⟨hstep, hstep'⟩ := hstep (cls.accepts casing)
    have hmidway := hmidway front back groups htext
    rw [hstep, hstep']
    rw [enters, Midway.behindOne] at h
    by_cases hlf : cls.accepts casing '\n' = true
    · rw [if_pos hlf] at h ⊢
      split at h
      · rename_i hcr
        obtain ⟨hcr, rfl⟩ := hcr
        have hskips : k' (.midway front back groups) = k' (next.crlf text) :=
          hpassed ▸ hmidway
        rw [if_pos hcr]
        exact hskips.trans (hk next hnext)
      · cases h
    · rw [if_neg hlf] at h ⊢
      split at h
      · cases h
      · rename_i hfails
        by_cases hcr : cls.accepts casing '\r' = true
        · obtain rfl : q = .fails := Decidable.not_not.mp fun hq => hfails ⟨hcr, hq⟩
          rw [if_pos hcr]
          exact hmidway
        · rw [if_neg hcr]
          rfl
  · exact hk.step hp hline (cls.accepts casing)

/-- In front of a line end, a run does the same in both texts if it does from the
next place on. -/
theorem first_run_crlf_of_lineEnd {cls : CharClass} {q r : Midway}
    (h : enters casing (.run cls) q = Option.some r) (hk : Agrees text F k k')
    (hmidway : q.Holds text k') {p : Place} (hp : p.IsOf text)
    (hline : p.rest.head? = Option.some '\n')
    (hnext : ∀ next, p.step? (cls.accepts casing) = Option.some next →
      first casing (.run cls) k' (next.crlf text) =
        (first casing (.run cls) k next).map F) :
    first casing (.run cls) k' (p.crlf text) =
      (first casing (.run cls) k p).map F := by
  obtain ⟨front, back, groups, next, htext, -, -, hpassed, hstep⟩ :=
    Place.step?_of_lineEnd hp hline
  obtain ⟨hstep, hstep'⟩ := hstep (cls.accepts casing)
  have hmidway := hmidway front back groups htext
  rw [first_run, first_run, hk p hp, hstep, hstep']
  rw [enters, Midway.behindRun] at h
  by_cases hlf : cls.accepts casing '\n' = true
  · rw [if_pos hlf] at h hstep
    split at h
    · rename_i hcr
      obtain ⟨hcr, hq⟩ := hcr
      have hnext := hnext next hstep
      rw [if_pos hcr, if_pos hlf, Option.bind_some, Option.bind_some,
        first_run_midway, if_pos hlf, ← hpassed, hnext]
      -- What the other text has besides fails where the rest fails.
      cases hrun : first casing (.run cls) k next with
      | some a => rfl
      | none =>
        rw [hrun] at hnext
        have hfails := hmidway.follows hq
          (hpassed ▸ eq_none_of_first_run hnext)
        rw [hfails]
        rfl
    · cases h
  · rw [if_neg hlf] at h ⊢
    by_cases hcr : cls.accepts casing '\r' = true
    · rw [if_pos hcr] at h ⊢
      split at h
      · rename_i hq
        subst hq
        have hfails : k' (.midway front back groups) = none := hmidway
        rw [Option.bind_some, first_run_midway, if_neg hlf, hfails]
        rfl
      · cases h
    · rw [if_neg hcr]
      rfl

theorem agrees_first_run {cls : CharClass} {q r : Midway}
    (h : enters casing (.run cls) q = Option.some r) (hk : Agrees text F k k')
    (hmidway : q.Holds text k') :
    Agrees text F (first casing (.run cls) k) (first casing (.run cls) k') := by
  intro p hp
  induction hn : p.rest.length using Nat.strongRecOn generalizing p with
  | ind n ih =>
    have hnext (next : Place)
        (hstep : p.step? (cls.accepts casing) = Option.some next) :
        first casing (.run cls) k' (next.crlf text) =
          (first casing (.run cls) k next).map F := by
      obtain ⟨c, -, hleads, -⟩ := Place.Leads.of_step? hstep
      refine ih next.rest.length ?_ next (hp.step hstep) rfl
      rw [← hn, hleads.rest]
      exact Nat.lt_succ_self _
    by_cases hline : p.rest.head? = Option.some '\n'
    · exact first_run_crlf_of_lineEnd h hk hmidway hp hline hnext
    · rw [first_run, first_run, hk p hp, Place.step?_crlf hp hline]
      cases hstep : p.step? (cls.accepts casing) with
      | none => rfl
      | some next =>
        rw [Option.map_some, Option.bind_some, Option.bind_some,
          hnext next hstep, Option.map_or]

/-- The order of places is kept. -/
theorem offset_crlf_lt_iff {p q : Place} (hq : q.IsOf text) :
    (p.crlf text).offset < (q.crlf text).offset ↔ p.offset < q.offset := by
  refine crlfOffset_lt_iff text ?_
  rw [hq.length_eq]
  exact Nat.le_add_right _ _

theorem agrees_first_star {body : Pattern} (hgroupless : body.groupless = true)
    (hbody : ∀ {k : Place → Option α} {k' : Place → Option β},
      Agrees text F k k' → Midway.fails.Holds text k' →
      Agrees text F (first casing body k) (first casing body k'))
    (hk : Agrees text F k k')
    (hstar : Midway.fails.Holds text (first casing (.star body) k')) :
    Agrees text F (first casing (.star body) k) (first casing (.star body) k') := by
  intro p hp
  induction hn : p.rest.length using Nat.strongRecOn generalizing p with
  | ind n ih =>
    rw [first_star hgroupless, first_star hgroupless, hk p hp, Option.map_or]
    congr 1
    refine hbody (fun next hnext => ?_) (fun front back groups htext => ?_) p hp
    · by_cases hlt : p.offset < next.offset
      · rw [if_pos ((offset_crlf_lt_iff hnext).mpr hlt), if_pos hlt]
        have := hp.length_eq
        have := hnext.length_eq
        exact ih next.rest.length (by omega) next hnext rfl
      · rw [if_neg fun h => hlt ((offset_crlf_lt_iff hnext).mp h), if_neg hlt]
        rfl
    · show (if _ then _ else none) = none
      split
      · exact hstar front back groups htext
      · rfl

/-- Where it enters in a known way, a pattern does the same in both texts. -/
theorem agrees_first {pattern : Pattern} {q r : Midway}
    (h : pattern.enters casing q = Option.some r) (hk : Agrees text F k k')
    (hmidway : q.Holds text k') :
    Agrees text F (pattern.first casing k) (pattern.first casing k') := by
  induction pattern generalizing q r k k' with
  | empty =>
    intro p hp
    rw [first_empty, first_empty, hk p hp]
  | one cls => exact agrees_first_one h hk hmidway
  | run cls => exact agrees_first_run h hk hmidway
  | wordBoundary =>
    intro p hp
    rw [first_wordBoundary, first_wordBoundary, hk p hp,
      Place.atWordBoundary_crlf]
    split <;> rfl
  | textStart =>
    intro p hp
    rw [first_textStart, first_textStart, hk p hp]
    show (if p.before.isNone then _ else _) = _
    split <;> rfl
  | lineStart =>
    intro p hp
    rw [first_lineStart, first_lineStart, hk p hp]
    show (if p.atLineStart then _ else _) = _
    split <;> rfl
  | seq first second ihFirst ihSecond =>
    obtain ⟨between, hsecond, hfirst⟩ := Option.bind_eq_some_iff.mp h
    intro p hp
    rw [first_seq, first_seq]
    exact ihFirst hfirst (ihSecond hsecond hk hmidway)
      (holds_first hsecond hmidway) p hp
  | alt first second ihFirst ihSecond =>
    obtain ⟨r, hfirst, h⟩ := Option.bind_eq_some_iff.mp h
    obtain ⟨s, hsecond, -⟩ := Option.map_eq_some_iff.mp h
    intro p hp
    rw [first_alt, first_alt, ihFirst hfirst hk hmidway p hp,
      ihSecond hsecond hk hmidway p hp, Option.map_or]
  | star body ih =>
    have hstar := holds_first h hmidway
    obtain ⟨⟨rfl, rfl⟩, hgroupless, hbody⟩ := enters_star_iff.mp h
    exact agrees_first_star hgroupless (ih hbody) hk hstar
  | group index body ih =>
    obtain ⟨r, hbody, -⟩ := Option.map_eq_some_iff.mp h
    intro p hp
    rw [first_group, first_group]
    refine ih hbody (fun q hq => ?_) (hmidway.closed _ fun _ _ _ => ⟨_, rfl⟩) p hp
    exact hk (.close index p q) hq

/-- The pattern fails in the middle of line ends, and elsewhere its first match
does not show how lines end. -/
def LineNeutral (casing : Casing) (pattern : Pattern) : Prop :=
  pattern.enters casing .follows = Option.some .fails

instance (casing : Casing) (pattern : Pattern) :
    Decidable (pattern.LineNeutral casing) :=
  inferInstanceAs (Decidable (_ = _))

end Pattern

end Preflight
