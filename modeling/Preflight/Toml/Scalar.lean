import Preflight.Json.Basic
import Preflight.Json.Reader

/-!
# Scalars of TOML documents

Strings come in four forms: basic and literal, each on one line or on several.  Everything else is
written without blanks, but for the one between a date and a time, and is judged as a whole word:
truth values, whole numbers, floats, dates and times.
-/

namespace Preflight.Toml

open Json

/-- A character that may stand in comments, and in strings if nothing else forbids it. -/
def isPrintable (c : Char) : Bool := c == '\t' || (' ' ≤ c && c ≠ '\x7f')

/-! ## Strings -/

/-- The character that some hexadecimal digits name. -/
def namedChar? (digits : List Char) : Option Char := do
  let values ← digits.mapM hexDigit?
  let n := values.foldl (fun n d => n * 16 + d) 0
  if n.isValidChar then some (Char.ofNat n) else none

/-- What a backslash and one character stand for. -/
def simpleEscape? : Char → Option Char
  | 'b' => some '\x08'
  | 't' => some '\t'
  | 'n' => some '\n'
  | 'f' => some '\x0c'
  | 'r' => some '\r'
  | '"' => some '"'
  | '\\' => some '\\'
  | _ => none

/-- The character of an escape, the backslash being read, and the rest. -/
def readEscape : List Char → Option (Char × List Char)
  | 'u' :: cs =>
    if cs.length < 4 then none else (namedChar? (cs.take 4)).map (·, cs.drop 4)
  | 'U' :: cs =>
    if cs.length < 8 then none else (namedChar? (cs.take 8)).map (·, cs.drop 8)
  | c :: cs => (simpleEscape? c).map (·, cs)
  | [] => none

/-- Reads a basic string on one line, the opening quote being read.  `skip` characters belong to
the escape before. -/
def readBasic (read : List Char) (skip : Nat) : List Char → Option (List Char × List Char)
  | [] => none
  | c :: cs =>
    match skip with
    | skip + 1 => readBasic read skip cs
    | 0 =>
      if c = '"' then some (read.reverse, cs)
      else if c = '\\' then
        match readEscape cs with
        | some (x, rest) => readBasic (x :: read) (cs.length - rest.length) cs
        | none => none
      else if isPrintable c then readBasic (c :: read) 0 cs
      else none

/-- Reads a literal string on one line, the opening quote being read. -/
def readLiteral (read : List Char) : List Char → Option (List Char × List Char)
  | [] => none
  | c :: cs =>
    if c = '\'' then some (read.reverse, cs)
    else if isPrintable c then readLiteral (c :: read) cs
    else none

/-- A line break at the start of a text is taken off. -/
def dropLineBreak : List Char → List Char
  | '\n' :: cs => cs
  | '\r' :: '\n' :: cs => cs
  | cs => cs

/-- A blank that stays on the line. -/
def isBlank (c : Char) : Bool := c == ' ' || c == '\t'

/-- The text from its first character that is neither blank nor part of a line break. -/
def skipBlankLines : List Char → List Char
  | [] => []
  | '\r' :: '\n' :: cs => skipBlankLines cs
  | c :: cs => if isBlank c || c == '\n' then skipBlankLines cs else c :: cs

/-- A backslash at the end of a line: the text behind it and behind all white space that follows,
or `none` if more stands on the line. -/
def afterJoinedLine (cs : List Char) : Option (List Char) :=
  match cs.dropWhile isBlank with
  | '\n' :: cs => some (skipBlankLines cs)
  | '\r' :: '\n' :: cs => some (skipBlankLines cs)
  | _ => none

/-- Reads a string on several lines up to three quotes; up to two further quotes before them
belong to the string.  Line breaks are read as LF.  `skip` characters belong to what came before,
and escapes are known if `escapes`. -/
def readLines (quote : Char) (escapes : Bool) (read : List Char) (skip : Nat) :
    List Char → Option (List Char × List Char)
  | [] => none
  | c :: cs =>
    match skip with
    | skip + 1 => readLines quote escapes read skip cs
    | 0 =>
      let quotes := ((c :: cs).takeWhile (· == quote)).length
      if 3 ≤ quotes then
        let inside := min (quotes - 3) 2
        some (read.reverse ++ List.replicate inside quote, (c :: cs).drop (inside + 3))
      else if c = '\\' && escapes then
        match afterJoinedLine cs, readEscape cs with
        | some rest, _ => readLines quote escapes read (cs.length - rest.length) cs
        | none, some (x, rest) =>
          readLines quote escapes (x :: read) (cs.length - rest.length) cs
        | none, none => none
      else if c = '\r' then
        match cs with
        | '\n' :: _ => readLines quote escapes read 0 cs
        | _ => none
      else if c = '\n' || isPrintable c then readLines quote escapes (c :: read) 0 cs
      else none

/-- Reads a string on one line, as keys are written. -/
def readLineString : List Char → Option (List Char × List Char)
  | '"' :: cs => readBasic [] 0 cs
  | '\'' :: cs => readLiteral [] cs
  | _ => none

/-- Reads a string of any form. -/
def readAnyString : List Char → Option (List Char × List Char)
  | '"' :: '"' :: '"' :: cs => readLines '"' true [] 0 (dropLineBreak cs)
  | '\'' :: '\'' :: '\'' :: cs => readLines '\'' false [] 0 (dropLineBreak cs)
  | cs => readLineString cs

/-! ## Numbers -/

/-- Digits with single underscores between them: the digits alone, or `none`. -/
def digits? (isDigit : Char → Bool) : List Char → Option (List Char)
  | [] => none
  | [c] => if isDigit c then some [c] else none
  | c :: '_' :: cs => if isDigit c then (digits? isDigit cs).map (c :: ·) else none
  | c :: cs => if isDigit c then (digits? isDigit cs).map (c :: ·) else none

/-- The number that digits write in a base. -/
def numeral (base : Nat) (digits : List Char) : Nat :=
  digits.foldl (fun n c => n * base + (hexDigit? c).getD 0) 0

/-- A whole number of 64 bits with a sign. -/
def fitting? (n : Int) : Option Value :=
  if -0x8000000000000000 ≤ n ∧ n < 0x8000000000000000 then some (.number (.int n)) else none

/-- A digit below a base. -/
def isDigitIn (base : Nat) (c : Char) : Bool := (hexDigit? c).any (· < base)

/-- The sign of a number, and the rest. -/
def splitSign : List Char → Bool × List Char
  | '+' :: cs => (false, cs)
  | '-' :: cs => (true, cs)
  | cs => (false, cs)

/-- Decimal digits that do not start with a needless zero. -/
def wholePart? (cs : List Char) : Option (List Char) := do
  let digits ← digits? (isDigitIn 10) cs
  if digits.length > 1 ∧ digits.head? = some '0' then none else some digits

/-- A whole number in any base. -/
def integer? : List Char → Option Value
  | '0' :: 'x' :: cs => do fitting? (numeral 16 (← digits? (isDigitIn 16) cs))
  | '0' :: 'o' :: cs => do fitting? (numeral 8 (← digits? (isDigitIn 8) cs))
  | '0' :: 'b' :: cs => do fitting? (numeral 2 (← digits? (isDigitIn 2) cs))
  | cs => do
    let (negative, cs) := splitSign cs
    let n : Int := numeral 10 (← wholePart? cs)
    fitting? (if negative then -n else n)

/-- A float of given digits, scaled by a power of ten; one that is too large is refused. -/
def scaled? (negative : Bool) (digits : List Char) (exponent : Int) : Option Value :=
  let mantissa := numeral 10 digits
  let magnitude := (Nat.toDigits 10 mantissa).length + exponent
  let size : Float :=
    if mantissa = 0 ∨ magnitude < -400 then 0
    else if 400 < magnitude then 1 / 0
    else Float.ofScientific mantissa (exponent < 0) exponent.natAbs
  if size.isInf && !negative then none
  else some (.number (.double (if negative then -size else size).toBits))

/-- A float: a whole part, then a fraction or an exponent or both; or a special value. -/
def float? (cs : List Char) : Option Value := do
  let (negative, cs) := splitSign cs
  if cs = "inf".toList then
    return .number (.double (if negative then 0xFFF0000000000000 else 0x7FF0000000000000))
  else if cs = "nan".toList then return .number (.double 0x7FF8000000000000)
  else
    let isMark := fun (c : Char) => c == 'e' || c == 'E'
    let mantissa := cs.takeWhile (!isMark ·)
    let exponent ←
      match cs.dropWhile (!isMark ·) with
      | [] => pure none
      | _ :: cs =>
        let (down, cs) := splitSign cs
        let n : Int := numeral 10 (← digits? (isDigitIn 10) cs)
        pure (some (if down then -n else n))
    let whole ← wholePart? (mantissa.takeWhile (· ≠ '.'))
    let fraction ←
      match mantissa.dropWhile (· ≠ '.') with
      | [] => pure none
      | _ :: cs => (digits? (isDigitIn 10) cs).map some
    if exponent.isNone ∧ fraction.isNone then none
    else
      let fraction := fraction.getD []
      scaled? negative (whole ++ fraction) (exponent.getD 0 - fraction.length)

/-! ## Dates and times -/

/-- The number of exactly `n` digits at the start of a text, within bounds, and the rest. -/
def readField (n low high : Nat) (cs : List Char) : Option (Nat × List Char) :=
  let digits := cs.take n
  let value := numeral 10 digits
  if digits.length = n ∧ digits.all Char.isDigit ∧ low ≤ value ∧ value ≤ high then
    some (value, cs.drop n)
  else none

/-- The text behind one given character. -/
def readMark (c : Char) : List Char → Option (List Char)
  | [] => none
  | x :: cs => if x = c then some cs else none

/-- How many days a month has. -/
def daysIn (year month : Nat) : Nat :=
  if month = 2 then
    if year % 4 = 0 ∧ (year % 100 ≠ 0 ∨ year % 400 = 0) then 29 else 28
  else if month = 4 ∨ month = 6 ∨ month = 9 ∨ month = 11 then 30
  else 31

/-- Reads a date; the result is what follows it. -/
def readDate (cs : List Char) : Option (List Char) := do
  let (year, cs) ← readField 4 0 9999 cs
  let (month, cs) ← readField 2 1 12 (← readMark '-' cs)
  let (_, cs) ← readField 2 1 (daysIn year month) (← readMark '-' cs)
  return cs

/-- Reads a time of day; the result is what follows it. -/
def readTime (cs : List Char) : Option (List Char) := do
  let (_, cs) ← readField 2 0 23 cs
  let (_, cs) ← readField 2 0 59 (← readMark ':' cs)
  let (_, cs) ← readField 2 0 60 (← readMark ':' cs)
  match cs with
  | '.' :: c :: more => if c.isDigit then return more.dropWhile Char.isDigit else none
  | _ => return cs

/-- The rest of a time is an offset or nothing. -/
def isOffset : List Char → Bool
  | [] | ['Z'] | ['z'] => true
  | c :: cs =>
    (c == '+' || c == '-') &&
      ((do
        let (_, cs) ← readField 2 0 23 cs
        let (_, cs) ← readField 2 0 59 (← readMark ':' cs)
        return cs.isEmpty) == some true)

/-- The word is a date, a time, or both with or without an offset. -/
def isMoment (cs : List Char) : Bool :=
  match readDate cs with
  | some [] => true
  | some (c :: cs) =>
    (c == 'T' || c == 't' || c == ' ') && (readTime cs).any isOffset
  | none => (readTime cs).any List.isEmpty

/-- The name under which readers of records meet the text of a moment. -/
def momentKey : String := "$__toml_private_datetime"

/-- The value of a word that is no string. -/
def word? (cs : List Char) : Option Value :=
  if cs = "true".toList then some (.bool true)
  else if cs = "false".toList then some (.bool false)
  else if isMoment cs then some (.object [(momentKey, .string (String.ofList cs))])
  else (integer? cs).orElse fun _ => float? cs

/-- A character that ends a word. -/
def endsWord (c : Char) : Bool := isBlank c || "\r\n,]\x7d#".toList.contains c

/-- Reads a word.  Behind a date a blank and a digit go on with the time. -/
def readWord (cs : List Char) : Option (Value × List Char) :=
  let word := cs.takeWhile (!endsWord ·)
  let rest := cs.dropWhile (!endsWord ·)
  match rest with
  | ' ' :: c :: more =>
    if readDate word = some [] ∧ c.isDigit then
      let time := (c :: more).takeWhile (!endsWord ·)
      (word? (word ++ ' ' :: time)).map (·, (c :: more).dropWhile (!endsWord ·))
    else (word? word).map (·, rest)
  | _ => (word? word).map (·, rest)

end Preflight.Toml
