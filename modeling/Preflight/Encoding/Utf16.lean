import Preflight.Encoding.Utf8

/-!
# UTF-16

Characters up to U+FFFF are one 16-bit unit, the others a high surrogate followed by a low one.
`ByteOrder` says which byte of a unit comes first.  `decode` refuses lone and swapped surrogates
and an odd number of bytes.
-/

namespace Preflight

/-- Which byte of a 16-bit unit comes first. -/
inductive ByteOrder where
  | littleEndian
  | bigEndian
  deriving DecidableEq, Repr

namespace Utf16

/-- The units of one character. -/
def encodeChar (c : Char) : List Nat :=
  let n := c.toNat
  if n < 0x10000 then [n] else [0xD800 + (n - 0x10000) / 0x400, 0xDC00 + (n - 0x10000) % 0x400]

/-- The two bytes of a unit. -/
def unitBytes (order : ByteOrder) (unit : Nat) : List UInt8 :=
  let high := (unit / 0x100).toUInt8
  let low := (unit % 0x100).toUInt8
  match order with
  | .littleEndian => [low, high]
  | .bigEndian => [high, low]

/-- The bytes of a text. -/
def encode (order : ByteOrder) (text : List Char) : List UInt8 :=
  (text.flatMap encodeChar).flatMap (unitBytes order)

/-- The units that the bytes form in pairs. -/
def units (order : ByteOrder) : List UInt8 → Option (List Nat)
  | [] => some []
  | [_] => none
  | a :: b :: bytes =>
    let unit := match order with
      | .littleEndian => b.toNat * 0x100 + a.toNat
      | .bigEndian => a.toNat * 0x100 + b.toNat
    (units order bytes).map (unit :: ·)

/-- The unit opens a surrogate pair. -/
def isHigh (unit : Nat) : Bool := 0xD800 ≤ unit && unit < 0xDC00

/-- The unit closes a surrogate pair. -/
def isLow (unit : Nat) : Bool := 0xDC00 ≤ unit && unit < 0xE000

/-- The text of some units. -/
def decodeUnits : List Nat → Option (List Char)
  | [] => some []
  | unit :: units =>
    if isHigh unit then
      match units with
      | low :: units =>
        if isLow low then do
          let c ← Utf8.charOfNat? (0x10000 + (unit - 0xD800) * 0x400 + (low - 0xDC00))
          return c :: (← decodeUnits units)
        else none
      | [] => none
    else do
      let c ← Utf8.charOfNat? unit
      return c :: (← decodeUnits units)

/-- The text of some bytes. -/
def decode (order : ByteOrder) (bytes : List UInt8) : Option (List Char) := do
  decodeUnits (← units order bytes)

end Utf16

end Preflight
