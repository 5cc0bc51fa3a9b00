import Preflight.Json.Basic

/-!
# Numbers as text

`Number.toText` writes whole numbers in decimal and doubles in the fewest digits that read back:
`shortest` tries one digit, two digits, and so on, and takes the first decimal inside the interval
of reals that round to the double, the nearer one of two.

`Number.ofText` reads a number.  A fraction, an exponent, a minus zero or a whole number of more
than 64 bits gives a double, whose value is the leading digits as a 64-bit whole number, scaled by
a power of ten.
-/

namespace Preflight.Json.Number

/-! ## Writing -/

/-- A power of ten. -/
def tenPow (n : Nat) : Nat := Nat.pow 10 n

/-- A decimal `digits · 10 ^ exponent`. -/
structure Decimal where
  digits : Nat
  exponent : Int
  deriving DecidableEq, Repr

/-- The interval of reals that round to a positive double, as fractions over one denominator. -/
structure Interval where
  low : Nat
  value : Nat
  high : Nat
  den : Nat
  /-- The ends themselves round to the double. -/
  closed : Bool
  deriving DecidableEq, Repr

/-- The interval of the positive double `mantissa · 2 ^ exponent`.  The gap below a power of two
is half as wide as the one above it, except at the bottom of the range. -/
def Interval.of (mantissa : Nat) (exponent : Int) (narrowBelow : Bool) : Interval :=
  let up := 1 <<< exponent.toNat
  let low := 4 * mantissa - (if narrowBelow then 1 else 2)
  ⟨low * up, 4 * mantissa * up, (4 * mantissa + 2) * up, 4 <<< (-exponent).toNat,
    mantissa % 2 == 0⟩

/-- The decimal lies in the interval. -/
def Interval.holds (i : Interval) (d : Decimal) : Bool :=
  let num := d.digits * tenPow d.exponent.toNat * i.den
  let scale := tenPow (-d.exponent).toNat
  if i.closed then i.low * scale ≤ num && num ≤ i.high * scale
  else i.low * scale < num && num < i.high * scale

/-- Twice the distance of a decimal from the value, in units that are the same for all decimals of
one exponent. -/
def Interval.distance (i : Interval) (d : Decimal) : Nat :=
  let num := d.digits * tenPow d.exponent.toNat * i.den
  let value := i.value * tenPow (-d.exponent).toNat
  (num - value) + (value - num)

/-- The least `e` with `value < 10 ^ e`, searched from `e` on upwards. -/
def magnitudeFrom (i : Interval) (e : Int) : Nat → Int
  | 0 => e
  | fuel + 1 =>
    if i.value * tenPow (-e).toNat < tenPow e.toNat * i.den then e
    else magnitudeFrom i (e + 1) fuel

/-- The decimal of `n` digits that reads back, if there is one. -/
def withDigits? (i : Interval) (magnitude : Int) (n : Nat) : Option Decimal :=
  let exponent := magnitude - n
  let below := i.value * tenPow (-exponent).toNat / (tenPow exponent.toNat * i.den)
  let down : Decimal := ⟨below, exponent⟩
  let up : Decimal := ⟨below + 1, exponent⟩
  match i.holds down && below != 0, i.holds up with
  | true, true =>
    let a := i.distance down
    let b := i.distance up
    if a < b ∨ (a = b ∧ below % 2 = 0) then some down else some up
  | true, false => some down
  | false, true => some up
  | false, false => none

/-- The decimal of fewest digits that reads back as the double. -/
def shortest (mantissa : Nat) (exponent : Int) (narrowBelow : Bool) : Decimal :=
  let i := Interval.of mantissa exponent narrowBelow
  let magnitude := magnitudeFrom i (-330) 700
  ((List.range 17).findSome? fun n => withDigits? i magnitude (n + 1)).getD
    ⟨mantissa, exponent⟩

/-- Trailing zeros moved into the exponent; `fuel` bounds their number. -/
def Decimal.trimmed (d : Decimal) : Nat → Decimal
  | 0 => d
  | fuel + 1 =>
    if d.digits % 10 = 0 ∧ d.digits ≠ 0 then
      Decimal.trimmed ⟨d.digits / 10, d.exponent + 1⟩ fuel
    else d

/-- A decimal in positional notation from `10 ^ -5` up to `10 ^ 16`, with at least one digit after
the point, and outside of that range with an exponent that has its sign. -/
def Decimal.toText (d : Decimal) : String :=
  let digits := Nat.toDigits 10 d.digits
  let point := digits.length + d.exponent
  let zeros := fun (n : Int) => List.replicate n.toNat '0'
  if 0 ≤ d.exponent ∧ point ≤ 16 then
    String.ofList (digits ++ zeros d.exponent ++ ['.', '0'])
  else if 0 < point ∧ point ≤ 16 then
    String.ofList (digits.take point.toNat ++ '.' :: digits.drop point.toNat)
  else if -5 < point ∧ point ≤ 0 then
    String.ofList ('0' :: '.' :: zeros (-point) ++ digits)
  else
    let fraction := if digits.length = 1 then [] else '.' :: digits.drop 1
    let sign := if 0 < point then "+" else ""
    String.ofList (digits.take 1 ++ fraction) ++ "e" ++ sign ++ toString (point - 1)

/-- A finite double as text. -/
def doubleText (bits : UInt64) : String :=
  let negative := bits >>> 63 == 1
  let biased := ((bits >>> 52) &&& 0x7FF).toNat
  let fraction := (bits &&& 0xFFFFFFFFFFFFF).toNat
  let sign := if negative then "-" else ""
  if biased = 0 ∧ fraction = 0 then sign ++ "0.0"
  else
    let mantissa := if biased = 0 then fraction else fraction + 0x10000000000000
    let exponent : Int := (max biased 1 : Nat) - (1075 : Int)
    let narrowBelow := fraction == 0 && 1 < biased
    sign ++ ((shortest mantissa exponent narrowBelow).trimmed 20).toText

/-- The number as text. -/
def toText : Number → String
  | int n => toString n
  | double bits => doubleText bits

/-! ## Reading -/

/-- The whole numbers that are read as such. -/
def fitsWord (n : Nat) : Bool := n < 0x10000000000000000

/-- Reads digits onto `significand` for as long as the result fits a word: the significand, how
many digits were read, and the rest. -/
def readDigits (significand count : Nat) : List Char → Nat × Nat × List Char
  | [] => (significand, count, [])
  | c :: cs =>
    let next := significand * 10 + (c.toNat - '0'.toNat)
    if c.isDigit ∧ fitsWord next then readDigits next (count + 1) cs
    else (significand, count, c :: cs)

/-- The significand times a power of ten, or its quotient by one. -/
def scale (negative : Bool) (significand : Nat) (exponent : Int) : Option Number :=
  let f := significand.toUInt64.toFloat
  let f? : Option Float :=
    if 0 ≤ exponent then
      if exponent ≤ 308 then some (f * Float.ofScientific 1 false exponent.toNat)
      else if significand = 0 then some f
      else none
    else some (shrink f (-exponent).toNat 3)
  f?.bind fun f =>
    if f.isInf then none else some (double (if negative then -f else f).toBits)
where
  /-- Divides by `10 ^ n`, by at most `10 ^ 308` at a time. -/
  shrink (f : Float) (n : Nat) : Nat → Float
    | 0 => 0
    | fuel + 1 =>
      if n ≤ 308 then f / Float.ofScientific 1 false n
      else shrink (f / Float.ofScientific 1 false 308) (n - 308) fuel

/-- Reads an exponent's sign and digits, the `e` being read. -/
def readExponent (negative : Bool) (significand : Nat) (start : Int) (cs : List Char) :
    Option (Number × List Char) :=
  let (down, cs) := match cs with
    | '+' :: cs => (false, cs)
    | '-' :: cs => (true, cs)
    | cs => (false, cs)
  let digits := cs.takeWhile Char.isDigit
  let rest := cs.dropWhile Char.isDigit
  if digits.isEmpty then none
  else
    let size := digits.foldl (fun n c => min (n * 10 + (c.toNat - '0'.toNat)) 0x80000000) 0
    if size < 0x80000000 then
      (scale negative significand (if down then start - size else start + size)).map (·, rest)
    else if significand ≠ 0 ∧ !down then none
    else some (double (if negative then 0x8000000000000000 else 0), rest)

/-- Reads an exponent, if there is one, behind a significand that counts `10 ^ exponent`. -/
def readScale (negative : Bool) (significand : Nat) (exponent : Int) :
    List Char → Option (Number × List Char)
  | 'e' :: cs | 'E' :: cs => readExponent negative significand exponent cs
  | cs => (scale negative significand exponent).map (·, cs)

/-- Reads what follows the whole part of a number, which counts `10 ^ exponent`. -/
def readFraction (negative : Bool) (significand : Nat) (exponent : Nat) (cs : List Char) :
    Option (Number × List Char) :=
  match cs with
  | '.' :: cs =>
    match cs with
    | c :: _ =>
      if c.isDigit then
        let (significand, count, rest) := readDigits significand 0 cs
        readScale negative significand (exponent - count) (rest.dropWhile Char.isDigit)
      else none
    | [] => none
  | 'e' :: _ | 'E' :: _ => readScale negative significand exponent cs
  | _ =>
    if exponent ≠ 0 then (scale negative significand exponent).map (·, cs)
    else if !negative then some (int significand, cs)
    else if significand = 0 ∨ 0x8000000000000000 < significand then
      (scale negative significand 0).map (·, cs)
    else some (int (-significand), cs)

/-- Reads a number whose sign has been read.  No zero stands in front of other digits. -/
def readUnsigned (negative : Bool) : List Char → Option (Number × List Char)
  | [] => none
  | c :: rest =>
    if c = '0' then
      if rest.head?.any Char.isDigit then none else readFraction negative 0 0 rest
    else if c.isDigit then
      let (significand, _, others) := readDigits 0 0 (c :: rest)
      let more := others.takeWhile Char.isDigit
      readFraction negative significand more.length (others.dropWhile Char.isDigit)
    else none

/-- Reads a number from the start of a text. -/
def ofText : List Char → Option (Number × List Char)
  | '-' :: cs => readUnsigned true cs
  | cs => readUnsigned false cs

end Preflight.Json.Number
