import Preflight.Text.Classes

/-!
# Lines and blanks of a text

A text is a list of characters.  This module cuts it into lines, takes white space off its ends,
and looks for one text inside another.
-/

namespace Preflight.Text

/-- The line of these characters, read backwards.  A CR at its end is no part of it. -/
def finished : List Char → List Char
  | '\r' :: line => line.reverse
  | line => line.reverse

/-- Lines from the text after `current`, the reversed characters of the line being read. -/
def linesFrom (current : List Char) : List Char → List (List Char)
  | [] => if current.isEmpty then [] else [current.reverse]
  | c :: cs =>
    if c = '\n' then finished current :: linesFrom [] cs
    else linesFrom (c :: current) cs

/-- The lines of a text.  A line ends at LF or at CR LF; the last line needs no end, and an end
at the end of the text opens no further line. -/
def lines (text : List Char) : List (List Char) := linesFrom [] text

/-- The text from its first character that is not white space. -/
def trimStart (text : List Char) : List Char := text.dropWhile isSpace

/-- The text up to its last character that is not white space. -/
def trimEnd (text : List Char) : List Char := (text.reverse.dropWhile isSpace).reverse

/-- The text without white space at either end. -/
def trim (text : List Char) : List Char := trimEnd (trimStart text)

/-- Nothing but white space. -/
def isBlank (text : List Char) : Bool := text.all isSpace

/-- `needle` stands somewhere in the text. -/
def contains (needle : List Char) : List Char → Bool
  | [] => needle.isEmpty
  | c :: cs => needle.isPrefixOf (c :: cs) || contains needle cs

end Preflight.Text
