import Preflight.Pattern.Basic

/-!
# Matching at a place

`Pattern.Matches` says which pieces of a text a pattern matches, as a relation between the place
where the piece starts and the place where it ends.  `Pattern.ends` lists those ends for one start
in the order of preference: longer repetitions before shorter ones, first alternatives before
second ones.  The head of the list is the match that a search takes.
-/

namespace Preflight

/-- A numbered piece of the text, from offset `start` up to offset `stop`. -/
structure Group where
  index : Nat
  start : Nat
  stop : Nat
  deriving DecidableEq, Repr

/-- A place in a text, with the groups that a match has closed on its way there, latest first. -/
structure Place where
  /-- The character just before the place. -/
  before : Option Char
  /-- The text from the place on. -/
  rest : List Char
  /-- How many characters are before the place. -/
  offset : Nat
  groups : List Group
  deriving DecidableEq, Repr

namespace Place

/-- The start of a text. -/
def start (text : List Char) : Place := ⟨none, text, 0, []⟩

/-- The place behind the next character, if `ok` admits that character. -/
def step? (ok : Char → Bool) (p : Place) : Option Place :=
  match p.rest with
  | [] => none
  | c :: cs => if ok c then some ⟨some c, cs, p.offset + 1, p.groups⟩ else none

/-- One side of the place is a word character and the other is not. -/
def atWordBoundary (p : Place) : Bool :=
  p.before.any Text.isWord != p.rest.head?.any Text.isWord

/-- The text or a line starts here. -/
def atLineStart (p : Place) : Bool :=
  p.before.all (· == '\n')

/-- Keeps the piece from `opened` to `p` under the number `index`. -/
def close (index : Nat) (opened p : Place) : Place :=
  { p with groups := ⟨index, opened.offset, p.offset⟩ :: p.groups }

end Place

/-- The places behind runs of characters that `ok` admits, in front of `found`: the longest run
first, the empty run last. -/
def runEnds (ok : Char → Bool) (before : Option Char) (offset : Nat) (groups : List Group)
    (found : List Place) : List Char → List Place
  | [] => ⟨before, [], offset, groups⟩ :: found
  | c :: cs =>
    let here := ⟨before, c :: cs, offset, groups⟩ :: found
    if ok c then runEnds ok (some c) (offset + 1) groups here cs else here

/-- Drops a place if an earlier one of the list has the same offset.  `seen` has the bits of the
offsets that came before. -/
def firstPerOffset (seen : Nat) : List Place → List Place
  | [] => []
  | p :: ps =>
    if seen.testBit p.offset then firstPerOffset seen ps
    else p :: firstPerOffset (seen ||| 1 <<< p.offset) ps

/-- The ends of repetitions of a step: after each end that moves on, the repetitions from there;
last of all the start itself.  `fuel` bounds the number of repetitions. -/
def repeatEnds (step : Place → List Place) : Nat → Place → List Place
  | 0, p => [p]
  | fuel + 1, p =>
    let next := (firstPerOffset 0 (step p)).filter fun q => p.offset < q.offset
    firstPerOffset 0 (next.flatMap (repeatEnds step fuel) ++ [p])

namespace Pattern

/-- The ends of the matches that start at a place, in order of preference. -/
def ends (casing : Casing) : Pattern → Place → List Place
  | empty, p => [p]
  | one cls, p => (p.step? (cls.accepts casing)).toList
  | run cls, p => runEnds (cls.accepts casing) p.before p.offset p.groups [] p.rest
  | wordBoundary, p => if p.atWordBoundary then [p] else []
  | textStart, p => if p.before.isNone then [p] else []
  | lineStart, p => if p.atLineStart then [p] else []
  | seq first second, p => (first.ends casing p).flatMap (second.ends casing)
  | alt first second, p => first.ends casing p ++ second.ends casing p
  | star body, p => repeatEnds (body.ends casing) p.rest.length p
  | group index body, p => (body.ends casing p).map (Place.close index p)

/-- The pattern matches the piece of text between two places. -/
inductive Matches (casing : Casing) : Pattern → Place → Place → Prop where
  | empty (p) : Matches casing .empty p p
  | one {cls p q} (h : p.step? (cls.accepts casing) = Option.some q) : Matches casing (.one cls) p q
  | runStop {cls} (p) : Matches casing (.run cls) p p
  | runStep {cls p q r} (h : p.step? (cls.accepts casing) = Option.some q)
      (rest : Matches casing (.run cls) q r) : Matches casing (.run cls) p r
  | wordBoundary {p} (h : p.atWordBoundary = true) : Matches casing .wordBoundary p p
  | textStart {p} (h : p.before = none) : Matches casing .textStart p p
  | lineStart {p} (h : p.atLineStart = true) : Matches casing .lineStart p p
  | seq {first second p q r} (left : Matches casing first p q)
      (right : Matches casing second q r) : Matches casing (.seq first second) p r
  | altFirst {first second p q} (h : Matches casing first p q) :
      Matches casing (.alt first second) p q
  | altSecond {first second p q} (h : Matches casing second p q) :
      Matches casing (.alt first second) p q
  | starStop {body} (p) : Matches casing (.star body) p p
  | starStep {body p q r} (once : Matches casing body p q)
      (rest : Matches casing (.star body) q r) : Matches casing (.star body) p r
  | group {index body p q} (h : Matches casing body p q) :
      Matches casing (.group index body) p (Place.close index p q)

end Pattern

end Preflight
