import Preflight.Json.Number

/-!
# Writing JSON

`Value.compact` writes a value without blanks, `Value.pretty` with a line for each item and field,
indented by two blanks a level.  Fields are written in the order in which the object has them.  In
strings only the quote, the backslash and the control characters below the blank are escaped.
-/

namespace Preflight.Json

/-- A hexadecimal digit in lower case. -/
def hexDigit (n : Nat) : Char := Nat.digitChar (n % 16)

/-- A character inside a string. -/
def escapeChar (c : Char) : List Char :=
  if c = '"' then ['\\', '"']
  else if c = '\\' then ['\\', '\\']
  else if c = '\x08' then ['\\', 'b']
  else if c = '\t' then ['\\', 't']
  else if c = '\n' then ['\\', 'n']
  else if c = '\x0c' then ['\\', 'f']
  else if c = '\r' then ['\\', 'r']
  else if c < ' ' then ['\\', 'u', '0', '0', hexDigit (c.toNat / 16), hexDigit c.toNat]
  else [c]

/-- A string between quotes. -/
def quote (s : String) : String :=
  "\"" ++ String.ofList (s.toList.flatMap escapeChar) ++ "\""

namespace Value

mutual

/-- The value without blanks. -/
def compact : Value → String
  | null => "null"
  | bool true => "true"
  | bool false => "false"
  | number n => n.toText
  | string s => quote s
  | array items => "[" ++ compactItems items ++ "]"
  | object fields => "\x7b" ++ compactFields fields ++ "\x7d"

/-- Items with commas between them. -/
def compactItems : List Value → String
  | [] => ""
  | [v] => compact v
  | v :: vs => compact v ++ "," ++ compactItems vs

/-- Fields with commas between them. -/
def compactFields : List (String × Value) → String
  | [] => ""
  | [(name, v)] => quote name ++ ":" ++ compact v
  | (name, v) :: fields => quote name ++ ":" ++ compact v ++ "," ++ compactFields fields

end

/-- The start of a line at a level of nesting. -/
def newLine (level : Nat) : String := "\n" ++ String.ofList (List.replicate (2 * level) ' ')

mutual

/-- The value in lines; `level` is how deep it is nested. -/
def prettyAt (level : Nat) : Value → String
  | null => "null"
  | bool true => "true"
  | bool false => "false"
  | number n => n.toText
  | string s => quote s
  | array [] => "[]"
  | array (v :: vs) => "[" ++ prettyItems (level + 1) (v :: vs) ++ newLine level ++ "]"
  | object [] => "\x7b\x7d"
  | object (f :: fs) => "\x7b" ++ prettyFields (level + 1) (f :: fs) ++ newLine level ++ "\x7d"

/-- Items, each on lines of its own. -/
def prettyItems (level : Nat) : List Value → String
  | [] => ""
  | [v] => newLine level ++ prettyAt level v
  | v :: vs => newLine level ++ prettyAt level v ++ "," ++ prettyItems level vs

/-- Fields, each on lines of its own. -/
def prettyFields (level : Nat) : List (String × Value) → String
  | [] => ""
  | [(name, v)] => newLine level ++ quote name ++ ": " ++ prettyAt level v
  | (name, v) :: fields =>
    newLine level ++ quote name ++ ": " ++ prettyAt level v ++ "," ++ prettyFields level fields

end

/-- The value in lines. -/
def pretty (v : Value) : String := prettyAt 0 v

end Value

end Preflight.Json
