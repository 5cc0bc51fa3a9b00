import Preflight.Json.Number

/-!
# Reading JSON

A document is cut into tokens, and a machine builds the value from them on a stack of the arrays
and objects that are open.  Nesting is limited to `maxDepth`.  Of two fields of one name the last
one counts.
-/

namespace Preflight.Json

inductive Token where
  | openArray
  | closeArray
  | openObject
  | closeObject
  | comma
  | colon
  | atom (v : Value)
  deriving Repr, Inhabited

/-- How deep arrays and objects may be nested. -/
def maxDepth : Nat := 127

/-- Blanks between tokens. -/
def isBlank (c : Char) : Bool := c == ' ' || c == '\n' || c == '\t' || c == '\r'

/-- The value of a hexadecimal digit. -/
def hexDigit? (c : Char) : Option Nat :=
  if c.isDigit then some (c.toNat - '0'.toNat)
  else if 'a' ≤ c ∧ c ≤ 'f' then some (c.toNat - 'a'.toNat + 10)
  else if 'A' ≤ c ∧ c ≤ 'F' then some (c.toNat - 'A'.toNat + 10)
  else none

/-- The value of four hexadecimal digits. -/
def hex4? (a b c d : Char) : Option Nat := do
  return (((← hexDigit? a) * 16 + (← hexDigit? b)) * 16 + (← hexDigit? c)) * 16 + (← hexDigit? d)

/-- What a backslash and one character stand for. -/
def simpleEscape? : Char → Option Char
  | '"' => some '"'
  | '\\' => some '\\'
  | '/' => some '/'
  | 'b' => some '\x08'
  | 'f' => some '\x0c'
  | 'n' => some '\n'
  | 'r' => some '\r'
  | 't' => some '\t'
  | _ => none

/-- Reads a string up to its closing quote.  `read` is what has been read, latest first.  Control
characters have to be escaped, and surrogates have to come in pairs. -/
def readString (read : List Char) : List Char → Option (List Char × List Char)
  | [] => none
  | '"' :: cs => some (read.reverse, cs)
  | '\\' :: 'u' :: a :: b :: c :: d :: '\\' :: 'u' :: e :: f :: g :: h :: cs =>
    match hex4? a b c d, hex4? e f g h with
    | some high, some low =>
      if 0xD800 ≤ high ∧ high < 0xDC00 then
        if 0xDC00 ≤ low ∧ low < 0xE000 then
          readString (Char.ofNat (0x10000 + (high - 0xD800) * 0x400 + (low - 0xDC00)) :: read) cs
        else none
      else if 0xDC00 ≤ high ∧ high < 0xE000 then none
      else readString (Char.ofNat high :: read) ('\\' :: 'u' :: e :: f :: g :: h :: cs)
    | _, _ => none
  | '\\' :: 'u' :: a :: b :: c :: d :: cs =>
    match hex4? a b c d with
    | some n =>
      if 0xD800 ≤ n ∧ n < 0xE000 then none else readString (Char.ofNat n :: read) cs
    | none => none
  | '\\' :: c :: cs =>
    match simpleEscape? c with
    | some x => readString (x :: read) cs
    | none => none
  | c :: cs => if c < ' ' then none else readString (c :: read) cs

/-- Reads the token at the start of a text that starts with no blank. -/
def readToken : List Char → Option (Token × List Char)
  | [] => none
  | '[' :: cs => some (.openArray, cs)
  | ']' :: cs => some (.closeArray, cs)
  | '{' :: cs => some (.openObject, cs)
  | '}' :: cs => some (.closeObject, cs)
  | ',' :: cs => some (.comma, cs)
  | ':' :: cs => some (.colon, cs)
  | '"' :: cs => (readString [] cs).map fun (s, rest) => (.atom (.string (String.ofList s)), rest)
  | 'n' :: 'u' :: 'l' :: 'l' :: cs => some (.atom .null, cs)
  | 't' :: 'r' :: 'u' :: 'e' :: cs => some (.atom (.bool true), cs)
  | 'f' :: 'a' :: 'l' :: 's' :: 'e' :: cs => some (.atom (.bool false), cs)
  | cs => (Number.ofText cs).map fun (n, rest) => (.atom (.number n), rest)

/-- The tokens of a text, latest first in front of `found`.  `fuel` bounds their number. -/
def tokensOnto (found : List Token) : Nat → List Char → Option (List Token)
  | 0, cs => if (cs.dropWhile isBlank).isEmpty then some found else none
  | fuel + 1, cs =>
    match cs.dropWhile isBlank with
    | [] => some found
    | cs =>
      match readToken cs with
      | some (token, rest) => tokensOnto (token :: found) fuel rest
      | none => none

/-- The tokens of a text: at most one for each character. -/
def tokens (text : List Char) : Option (List Token) :=
  (tokensOnto [] text.length text).map List.reverse

/-- An array or object that is open, with its items or fields latest first. -/
inductive Frame where
  | array (items : List Value)
  | object (fields : List (String × Value)) (name : String)
  deriving Repr, Inhabited

/-- What may come next. -/
inductive Expecting where
  | value
  /-- A first item or the end of the array. -/
  | itemOrEnd
  /-- A field's name, or the end of the object if it has none yet. -/
  | name (fields : List (String × Value)) (mayEnd : Bool)
  | colon (fields : List (String × Value)) (name : String)
  /-- A comma, an end, or the end of the document: a value has just been completed. -/
  | more (v : Value)
  deriving Repr, Inhabited

/-- The object of some fields, latest first. -/
def closedObject (fields : List (String × Value)) : Value :=
  .object (Fields.ofList fields.reverse)

/-- Builds the value: `frames` are the ones around the place, innermost first. -/
def build (expecting : Expecting) (frames : List Frame) : List Token → Option Value
  | [] =>
    match expecting, frames with
    | .more v, [] => some v
    | _, _ => none
  | token :: tokens =>
    match expecting, token with
    | .value, .atom v => build (.more v) frames tokens
    | .itemOrEnd, .atom v => build (.more v) (.array [] :: frames) tokens
    | .value, .openArray =>
      if frames.length < maxDepth then build .itemOrEnd frames tokens else none
    | .itemOrEnd, .openArray =>
      if frames.length + 1 < maxDepth then build .itemOrEnd (.array [] :: frames) tokens else none
    | .value, .openObject =>
      if frames.length < maxDepth then build (.name [] true) frames tokens else none
    | .itemOrEnd, .openObject =>
      if frames.length + 1 < maxDepth then build (.name [] true) (.array [] :: frames) tokens
      else none
    | .itemOrEnd, .closeArray => build (.more (.array [])) frames tokens
    | .name fields _, .atom (.string name) => build (.colon fields name) frames tokens
    | .name _ true, .closeObject => build (.more (.object [])) frames tokens
    | .colon fields name, .colon => build .value (.object fields name :: frames) tokens
    | .more v, .comma =>
      match frames with
      | .array items :: frames => build .value (.array (v :: items) :: frames) tokens
      | .object fields name :: frames => build (.name ((name, v) :: fields) false) frames tokens
      | [] => none
    | .more v, .closeArray =>
      match frames with
      | .array items :: frames => build (.more (.array (v :: items).reverse)) frames tokens
      | _ => none
    | .more v, .closeObject =>
      match frames with
      | .object fields name :: frames =>
        build (.more (closedObject ((name, v) :: fields))) frames tokens
      | _ => none
    | _, _ => none

/-- Reads a document. -/
def read (text : List Char) : Option Value := do
  build .value [] (← tokens text)

end Preflight.Json
