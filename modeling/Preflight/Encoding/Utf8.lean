/-!
# UTF-8

`encode` writes a text as bytes, `decode` reads bytes back and refuses whatever `encode` does not
write: overlong forms, surrogates, values above U+10FFFF, stray and missing continuation bytes.
-/

namespace Preflight.Utf8

/-- The bytes of one character, one to four of them. -/
def encodeChar (c : Char) : List UInt8 :=
  let n := c.toNat
  if n < 0x80 then [n.toUInt8]
  else if n < 0x800 then [(0xC0 + n / 0x40).toUInt8, (0x80 + n % 0x40).toUInt8]
  else if n < 0x10000 then
    [(0xE0 + n / 0x1000).toUInt8, (0x80 + n / 0x40 % 0x40).toUInt8, (0x80 + n % 0x40).toUInt8]
  else
    [(0xF0 + n / 0x40000).toUInt8, (0x80 + n / 0x1000 % 0x40).toUInt8,
      (0x80 + n / 0x40 % 0x40).toUInt8, (0x80 + n % 0x40).toUInt8]

/-- The bytes of a text. -/
def encode (text : List Char) : List UInt8 := text.flatMap encodeChar

/-- The character with this code point, unless there is none. -/
def charOfNat? (n : Nat) : Option Char :=
  if h : n.isValidChar then some (Char.ofNatAux n h) else none

/-- The six bits that a continuation byte carries. -/
def continuation? (b : UInt8) : Option Nat :=
  if 0x80 ≤ b ∧ b < 0xC0 then some (b.toNat - 0x80) else none

/-- The character of a sequence whose value must reach `least`, or the sequence is overlong. -/
def scalar? (least value : Nat) : Option Char :=
  if value < least then none else charOfNat? value

/-- The text of some bytes. -/
def decode : List UInt8 → Option (List Char)
  | [] => some []
  | b :: bs =>
    if b < 0x80 then do
      let c ← charOfNat? b.toNat
      return c :: (← decode bs)
    else if b < 0xC0 then none
    else if b < 0xE0 then
      match bs with
      | b₁ :: bs => do
        let x₁ ← continuation? b₁
        let c ← scalar? 0x80 ((b.toNat - 0xC0) * 0x40 + x₁)
        return c :: (← decode bs)
      | _ => none
    else if b < 0xF0 then
      match bs with
      | b₁ :: b₂ :: bs => do
        let x₁ ← continuation? b₁
        let x₂ ← continuation? b₂
        let c ← scalar? 0x800 (((b.toNat - 0xE0) * 0x40 + x₁) * 0x40 + x₂)
        return c :: (← decode bs)
      | _ => none
    else if b < 0xF8 then
      match bs with
      | b₁ :: b₂ :: b₃ :: bs => do
        let x₁ ← continuation? b₁
        let x₂ ← continuation? b₂
        let x₃ ← continuation? b₃
        let c ← scalar? 0x10000 ((((b.toNat - 0xF0) * 0x40 + x₁) * 0x40 + x₂) * 0x40 + x₃)
        return c :: (← decode bs)
      | _ => none
    else none

end Preflight.Utf8
