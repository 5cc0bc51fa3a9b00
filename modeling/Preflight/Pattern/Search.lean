import Preflight.Pattern.Match

/-!
# Searching a text

A search goes through the places of a text from its start.  At the first place where the pattern
matches it takes the preferred match, and goes on behind it.  Found matches therefore never
overlap.  On top of the search stand the questions that the checks ask: whether, how often, which
groups, and which delimited bodies follow.
-/

namespace Preflight

/-- A found piece of text. -/
structure Match where
  start : Nat
  stop : Nat
  groups : List Group
  /-- The text behind the match. -/
  after : List Char
  deriving DecidableEq, Repr

namespace Match

/-- The text of a numbered group, if the match went through it. -/
def group? (found : Match) (text : List Char) (index : Nat) : Option (List Char) :=
  (found.groups.find? (·.index == index)).map fun g => (text.drop g.start).take (g.stop - g.start)

end Match

namespace Pattern

/-- The preferred match that starts between `before` and `rest`. -/
def matchAt? (casing : Casing) (p : Pattern) (before : Option Char) (rest : List Char)
    (offset : Nat) : Option Match :=
  (p.ends casing ⟨before, rest, offset, []⟩).head?.map fun q =>
    ⟨offset, q.offset, q.groups, q.rest⟩

/-- The matches found from a place on, none of which starts before the offset `resume`.  A match
of the empty text moves the search on by one character. -/
def findFrom (casing : Casing) (p : Pattern) (before : Option Char) (offset resume : Nat) :
    List Char → List Match
  | [] =>
    if offset < resume then [] else (p.matchAt? casing before [] offset).toList
  | c :: cs =>
    if offset < resume then p.findFrom casing (Option.some c) (offset + 1) resume cs
    else
      match p.matchAt? casing before (c :: cs) offset with
      | none => p.findFrom casing (Option.some c) (offset + 1) resume cs
      | Option.some found =>
        found :: p.findFrom casing (Option.some c) (offset + 1) (max found.stop (offset + 1)) cs

/-- The matches of a search through the whole text, in text order. -/
def findAll (casing : Casing) (p : Pattern) (text : List Char) : List Match :=
  p.findFrom casing none 0 0 text

/-- The pattern matches at some place from here on. -/
def occursFrom (casing : Casing) (p : Pattern) (before : Option Char) (offset : Nat) :
    List Char → Bool
  | [] => (p.matchAt? casing before [] offset).isSome
  | c :: cs =>
    (p.matchAt? casing before (c :: cs) offset).isSome ||
      p.occursFrom casing (Option.some c) (offset + 1) cs

/-- The pattern matches somewhere in the text. -/
def occursIn (casing : Casing) (p : Pattern) (text : List Char) : Bool :=
  p.occursFrom casing none 0 text

/-- How many matches a search finds. -/
def count (casing : Casing) (p : Pattern) (text : List Char) : Nat :=
  (p.findAll casing text).length

/-- The texts of the first group, of those matches that have one. -/
def captures (casing : Casing) (p : Pattern) (text : List Char) : List (List Char) :=
  (p.findAll casing text).filterMap fun found => found.group? text 1

end Pattern

/-- A pair of delimiters that nest. -/
structure Delimiters where
  opening : Char
  closing : Char
  deriving DecidableEq, Repr

namespace Delimiters

/-- Curly braces. -/
def braces : Delimiters := ⟨'{', '}'⟩

/-- Round brackets. -/
def parens : Delimiters := ⟨'(', ')'⟩

/-- The text up to the delimiter that closes what is open, `inner` pairs having been opened since.
A body that is never closed goes to the end of the text. -/
def body (d : Delimiters) (inner : Nat) : List Char → List Char
  | [] => []
  | c :: cs =>
    if c = d.opening then c :: d.body (inner + 1) cs
    else if c = d.closing then
      match inner with
      | 0 => []
      | inner + 1 => c :: d.body inner cs
    else c :: d.body inner cs

end Delimiters

namespace Pattern

/-- For each match of an opener, which ends with an opening delimiter, the body that follows. -/
def bodiesAfter (casing : Casing) (opener : Pattern) (d : Delimiters) (text : List Char) :
    List (List Char) :=
  (opener.findAll casing text).map fun found => d.body 0 found.after

end Pattern

end Preflight
