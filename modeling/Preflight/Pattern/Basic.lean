import Preflight.Text.Classes

/-!
# Patterns

A pattern describes pieces of text: characters of a class, one after the other, in alternatives
and repetitions, with assertions about the place in the text and numbered groups.  Repetition is
greedy, and of two alternatives the first is preferred.

This module holds the patterns themselves and the constructors they are written with.  When a
pattern matches is said in `Preflight.Pattern.Match`.
-/

namespace Preflight

/-- Whether a pattern tells upper from lower case. -/
inductive Casing where
  | sensitive
  | insensitive
  deriving DecidableEq, Repr

/-- One item of a character class. -/
inductive ClassItem where
  | char (c : Char)
  | range (low high : Char)
  | space
  | digit
  | word
  deriving DecidableEq, Repr

/-- A set of characters: those of some item, or, if `negated`, those of none. -/
structure CharClass where
  items : List ClassItem
  negated : Bool
  deriving DecidableEq, Repr

inductive Pattern where
  /-- The empty text. -/
  | empty
  /-- One character of the class. -/
  | one (cls : CharClass)
  /-- As many characters of the class as possible. -/
  | run (cls : CharClass)
  /-- A place between a word character and something else. -/
  | wordBoundary
  /-- The start of the text. -/
  | textStart
  /-- The start of the text or of a line. -/
  | lineStart
  | seq (first second : Pattern)
  | alt (first second : Pattern)
  /-- As many repetitions of `body` as possible. -/
  | star (body : Pattern)
  /-- The text of `body`, kept under a number. -/
  | group (index : Nat) (body : Pattern)
  deriving DecidableEq, Repr

namespace ClassItem

/-- The item holds exactly this character, letter case apart for white space, digits and words. -/
def holds (c : Char) : ClassItem → Bool
  | char x => c == x
  | range low high => low ≤ c && c ≤ high
  | space => Text.isSpace c
  | digit => Text.isDigit c
  | word => Text.isWord c

end ClassItem

/-- The characters equal to `c` up to letter case, as far as an ASCII letter is among them: the
letter in both cases, and for `s` and `k` the long s and the Kelvin sign. -/
def caseVariants (c : Char) : List Char :=
  if c = 's' ∨ c = 'S' ∨ c = 'ſ' then ['s', 'S', 'ſ']
  else if c = 'k' ∨ c = 'K' ∨ c = '\u212A' then ['k', 'K', '\u212A']
  else if c.isAlpha then [c.toLower, c.toUpper]
  else [c]

namespace CharClass

/-- The class holds `c`, or under case-insensitive matching one of its case variants. -/
def accepts (casing : Casing) (cls : CharClass) (c : Char) : Bool :=
  let variants := match casing with
    | .sensitive => [c]
    | .insensitive => caseVariants c
  (variants.any fun v => cls.items.any (·.holds v)) != cls.negated

/-- The class of one character. -/
def just (c : Char) : CharClass := ⟨[.char c], false⟩

/-- The class of some characters. -/
def anyOf (cs : String) : CharClass := ⟨cs.toList.map .char, false⟩

/-- The class of all characters but some. -/
def noneOf (cs : String) : CharClass := ⟨cs.toList.map .char, true⟩

/-- White space. -/
def space : CharClass := ⟨[.space], false⟩

/-- Decimal digits. -/
def digit : CharClass := ⟨[.digit], false⟩

/-- Word characters. -/
def word : CharClass := ⟨[.word], false⟩

/-- Everything that stays on the line. -/
def inLine : CharClass := noneOf "\n"

end CharClass

namespace Pattern

/-- The patterns one after the other. -/
def all : List Pattern → Pattern
  | [] => empty
  | [p] => p
  | p :: ps => seq p (all ps)

/-- The first of the patterns that leads to a match. -/
def firstOf : List Pattern → Pattern
  | [] => empty
  | [p] => p
  | p :: ps => alt p (firstOf ps)

/-- One character. -/
def char (c : Char) : Pattern := one (.just c)

/-- The characters of a text, in order. -/
def text (s : String) : Pattern := all (s.toList.map char)

/-- The pattern, or nothing. -/
def optional (p : Pattern) : Pattern := alt p empty

/-- At least one character of the class, as many as possible. -/
def some (cls : CharClass) : Pattern := seq (one cls) (run cls)

instance : Append Pattern := ⟨seq⟩

/-- Any white space. -/
def spaces : Pattern := run .space

/-- Some white space. -/
def someSpace : Pattern := some .space

end Pattern

end Preflight
