import Preflight.Text.WordTable
import Preflight.Text.DigitTable

/-!
# Character classes

The three classes that script text is scanned with: white space, decimal digits and word
characters, each over the whole of Unicode.  Below U+0080 the classes are decided without a table.
-/

namespace Preflight.Text

/-- Some range holds the code point of `c`. -/
def inRanges (ranges : List (Nat × Nat)) (c : Char) : Bool :=
  ranges.any fun range => range.1 ≤ c.toNat && c.toNat ≤ range.2

/-- White space: the 25 characters with the property White_Space. -/
def isSpace (c : Char) : Bool :=
  let n := c.toNat
  (9 ≤ n && n ≤ 13) || n == 0x20 || n == 0x85 || n == 0xA0 || n == 0x1680 ||
    (0x2000 ≤ n && n ≤ 0x200A) || n == 0x2028 || n == 0x2029 || n == 0x202F || n == 0x205F ||
    n == 0x3000

/-- Decimal digits of any script. -/
def isDigit (c : Char) : Bool :=
  if c.toNat < 0x80 then c.isDigit else inRanges digitRanges c

/-- Word characters: letters, marks, decimal digits, connectors such as the underscore, and the
two joiners. -/
def isWord (c : Char) : Bool :=
  if c.toNat < 0x80 then c.isAlphanum || c == '_' else inRanges wordRanges c

end Preflight.Text
