import Preflight.Pattern.Basic

/-!
# Written patterns

Patterns can be written as text: characters stand for themselves, `\` escapes, `[...]` are classes,
`.` is any character of the line, `(...)` numbered groups, `(?:...)` plain groups, `|` separates
alternatives, `*`, `+` and `?` repeat, `\b` and `^` are assertions, and `(?m)` lets `^` match at
every line.

Reading goes in two steps.  `Notation.tokens` cuts the text into tokens, each with its offset, and
`Notation.assemble` builds the pattern from them on a stack of open groups.
-/

namespace Preflight

/-- Why a text is no pattern. -/
inductive NotationError where
  | unclosedGroup (offset : Nat)
  | unopenedGroup (offset : Nat)
  | unclosedClass (offset : Nat)
  | unfinishedEscape (offset : Nat)
  | unknownEscape (offset : Nat)
  | nothingToRepeat (offset : Nat)
  | unsupported (offset : Nat)
  deriving DecidableEq, Repr

namespace NotationError

/-- Where the fault starts. -/
def offset : NotationError → Nat
  | unclosedGroup n | unopenedGroup n | unclosedClass n | unfinishedEscape n | unknownEscape n
  | nothingToRepeat n | unsupported n => n

/-- The fault in a few words. -/
def reason : NotationError → String
  | unclosedGroup _ => "unclosed group"
  | unopenedGroup _ => "unopened group"
  | unclosedClass _ => "unclosed character class"
  | unfinishedEscape _ => "incomplete escape sequence, reached end of pattern prematurely"
  | unknownEscape _ => "unrecognized escape sequence"
  | nothingToRepeat _ => "repetition operator missing expression"
  | unsupported _ => "unsupported construct"

/-- The pattern's text with a mark under the fault, and the reason. -/
def message (written : String) (e : NotationError) : String :=
  let mark := String.ofList (List.replicate e.offset ' ')
  s!"regex parse error:\n    {written}\n    {mark}^\nerror: {e.reason}"

end NotationError

namespace Notation

inductive Token where
  | atom (p : Pattern)
  | caret
  | multiline
  | openGroup
  | openPlain
  | close
  | bar
  | star
  | plus
  | optional
  deriving DecidableEq, Repr

/-- A bracketed class that is being read. -/
structure OpenClass where
  offset : Nat
  negated : Bool
  /-- Latest first. -/
  items : List ClassItem
  deriving DecidableEq, Repr

/-- What the characters at one place of a written pattern stand for. -/
inductive Lexeme where
  | token (t : Token)
  | classStart (negated : Bool)
  | classEnd
  /-- An item of the open class, or a class of its own outside of brackets. -/
  | item (i : ClassItem)
  deriving DecidableEq, Repr

/-- The value of a hexadecimal digit. -/
def hexValue? (c : Char) : Option Nat :=
  if c.isDigit then some (c.toNat - '0'.toNat)
  else if 'a' ≤ c ∧ c ≤ 'f' then some (c.toNat - 'a'.toNat + 10)
  else if 'A' ≤ c ∧ c ≤ 'F' then some (c.toNat - 'A'.toNat + 10)
  else none

/-- What an escaped character means: a class item. -/
def escaped? (c : Char) : Option ClassItem :=
  match c with
  | 's' => some .space
  | 'd' => some .digit
  | 'w' => some .word
  | 'n' => some (.char '\n')
  | 't' => some (.char '\t')
  | 'r' => some (.char '\r')
  | c => if c.isAlphanum then none else some (.char c)

/-- The lexeme at the start of a text, with its width.  `offset` is where the text starts. -/
def escape (offset : Nat) (inClass : Bool) : List Char → Except NotationError (Nat × Lexeme)
  | [] => .error (.unfinishedEscape offset)
  | 'x' :: h :: l :: _ =>
    match hexValue? h, hexValue? l with
    | some h, some l => .ok (4, .item (.char (Char.ofNat (16 * h + l))))
    | _, _ => .error (.unknownEscape offset)
  | c :: _ =>
    if c = 'b' ∧ !inClass then .ok (2, .token (.atom .wordBoundary))
    else
      match escaped? c with
      | some item => .ok (2, .item item)
      | none => .error (.unknownEscape offset)

/-- The lexeme that starts with the character `c` inside of brackets. -/
def classLexeme (c : Char) (after : List Char) : Nat × Lexeme :=
  if c = ']' then (1, .classEnd)
  else
    match after with
    | '-' :: high :: _ =>
      if high = ']' ∨ high = '\\' then (1, .item (.char c)) else (3, .item (.range c high))
    | _ => (1, .item (.char c))

/-- The lexeme that starts with the character `c` outside of brackets. -/
def plainLexeme (offset : Nat) (c : Char) (after : List Char) :
    Except NotationError (Nat × Lexeme) :=
  match c, after with
  | '[', '^' :: _ => .ok (2, .classStart true)
  | '[', _ => .ok (1, .classStart false)
  | '(', '?' :: ':' :: _ => .ok (3, .token .openPlain)
  | '(', '?' :: 'm' :: ')' :: _ => .ok (4, .token .multiline)
  | '(', _ => .ok (1, .token .openGroup)
  | ')', _ => .ok (1, .token .close)
  | '|', _ => .ok (1, .token .bar)
  | '*', _ => .ok (1, .token .star)
  | '+', _ => .ok (1, .token .plus)
  | '?', _ => .ok (1, .token .optional)
  | '^', _ => .ok (1, .token .caret)
  | '.', _ => .ok (1, .token (.atom (.one .inLine)))
  | '$', _ | '{', _ => .error (.unsupported offset)
  | _, _ => .ok (1, .item (.char c))

/-- The tokens of a text from `offset` on, after `skip` characters that belong to the lexeme
before.  `open?` is the class that is open there. -/
def tokens (offset skip : Nat) (open? : Option OpenClass) :
    List Char → Except NotationError (List (Nat × Token))
  | [] =>
    match open? with
    | none => .ok []
    | some cls => .error (.unclosedClass cls.offset)
  | c :: cs =>
    match skip with
    | skip + 1 => tokens (offset + 1) skip open? cs
    | 0 => do
      let (width, lexeme) ←
        if c = '\\' then escape offset open?.isSome cs
        else
          match open? with
          | some _ => pure (classLexeme c cs)
          | none => plainLexeme offset c cs
      match lexeme, open? with
      | .token t, _ => return (offset, t) :: (← tokens (offset + 1) (width - 1) none cs)
      | .classStart negated, _ =>
        tokens (offset + 1) (width - 1) (some ⟨offset, negated, []⟩) cs
      | .classEnd, some cls =>
        let atom := Token.atom (.one ⟨cls.items.reverse, cls.negated⟩)
        return (cls.offset, atom) :: (← tokens (offset + 1) (width - 1) none cs)
      | .classEnd, none => tokens (offset + 1) (width - 1) none cs
      | .item i, some cls =>
        tokens (offset + 1) (width - 1) (some { cls with items := i :: cls.items }) cs
      | .item i, none =>
        return (offset, .atom (.one ⟨[i], false⟩)) :: (← tokens (offset + 1) (width - 1) none cs)

/-- A group that is being read; the outermost one is the pattern itself. -/
structure Frame where
  offset : Nat
  /-- The number of a numbered group. -/
  index : Option Nat
  /-- The finished alternatives, latest first. -/
  alternatives : List Pattern
  /-- The parts of the alternative being read, latest first. -/
  parts : List Pattern
  /-- `^` matches at every line from here on. -/
  multiline : Bool
  deriving DecidableEq, Repr

namespace Frame

/-- The group as a pattern. -/
def pattern (f : Frame) : Pattern :=
  let body := Pattern.firstOf ((Pattern.all f.parts.reverse :: f.alternatives).reverse)
  match f.index with
  | some n => .group n body
  | none => body

/-- Adds a part to the alternative being read. -/
def push (f : Frame) (p : Pattern) : Frame := { f with parts := p :: f.parts }

/-- Replaces the latest part, which a repetition operator at `offset` stands behind. -/
def modifyLast (f : Frame) (offset : Nat) (change : Pattern → Pattern) :
    Except NotationError Frame :=
  match f.parts with
  | [] => .error (.nothingToRepeat offset)
  | p :: ps => .ok { f with parts := change p :: ps }

end Frame

/-- A part as often as possible. -/
def many : Pattern → Pattern
  | .one cls => .run cls
  | p => .star p

/-- Builds the pattern: `inner` is the innermost open group, `outer` are the ones around it, and
`groups` is how many numbered groups have been opened. -/
def assemble (groups : Nat) (inner : Frame) (outer : List Frame) :
    List (Nat × Token) → Except NotationError Pattern
  | [] =>
    match outer with
    | [] => .ok inner.pattern
    | _ :: _ => .error (.unclosedGroup inner.offset)
  | (offset, token) :: more =>
    match token with
    | .atom p => assemble groups (inner.push p) outer more
    | .caret =>
      assemble groups (inner.push (if inner.multiline then .lineStart else .textStart)) outer more
    | .multiline => assemble groups { inner with multiline := true } outer more
    | .openGroup =>
      assemble (groups + 1) ⟨offset, some (groups + 1), [], [], inner.multiline⟩ (inner :: outer)
        more
    | .openPlain =>
      assemble groups ⟨offset, none, [], [], inner.multiline⟩ (inner :: outer) more
    | .close =>
      match outer with
      | [] => .error (.unopenedGroup offset)
      | around :: outer => assemble groups (around.push inner.pattern) outer more
    | .bar =>
      assemble groups
        { inner with
          alternatives := Pattern.all inner.parts.reverse :: inner.alternatives, parts := [] }
        outer more
    | .star => do assemble groups (← inner.modifyLast offset many) outer more
    | .plus => do assemble groups (← inner.modifyLast offset fun p => .seq p (many p)) outer more
    | .optional => do assemble groups (← inner.modifyLast offset .optional) outer more

end Notation

/-- Reads a written pattern. -/
def Pattern.ofNotation (written : String) : Except NotationError Pattern := do
  let tokens ← Notation.tokens 0 0 none written.toList
  Notation.assemble 0 ⟨0, none, [], [], false⟩ [] tokens

end Preflight
