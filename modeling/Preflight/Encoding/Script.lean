import Preflight.Encoding.Utf16

/-!
# Script bytes as text

A script is UTF-16 behind the byte-order mark of either order, or UTF-8 with or without a mark.
Text that holds a NUL character is taken for binary data.
-/

namespace Preflight

/-- Bytes in the encoding that their mark names; without a mark, UTF-8.  One mark is taken off. -/
def decodeMarked : List UInt8 → Option (List Char)
  | 0xFF :: 0xFE :: bytes => Utf16.decode .littleEndian bytes
  | 0xFE :: 0xFF :: bytes => Utf16.decode .bigEndian bytes
  | 0xEF :: 0xBB :: 0xBF :: bytes => Utf8.decode bytes
  | bytes => Utf8.decode bytes

/-- The text of a script, or `none` for binary data and unknown encodings. -/
def decodeScript (bytes : List UInt8) : Option (List Char) :=
  match decodeMarked bytes with
  | some text => if text.contains '\x00' then none else some text
  | none => none

end Preflight
