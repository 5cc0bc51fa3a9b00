import Preflight.Toml.Table
import Preflight.Toml.Scalar

/-!
# Reading TOML

A document is a sequence of lines: headers, and keys with values, each of which may be followed by
a comment.  Only arrays and the strings made for it go on over several lines.  The result is a JSON
value, in which dates and times are objects of one field.
-/

namespace Preflight.Toml

open Json

/-- How deep arrays and inline tables may be nested, and how many parts a key may have. -/
def maxDepth : Nat := 79

/-- The text behind a comment. -/
def skipComment : List Char → Option (List Char)
  | '#' :: cs =>
    let rest := cs.dropWhile isPrintable
    match rest with
    | [] | '\n' :: _ | '\r' :: '\n' :: _ => some rest
    | _ => none
  | cs => some cs

/-- The text behind what may stand after the content of a line, the line break included. -/
def endOfLine (cs : List Char) : Option (List Char) := do
  match ← skipComment (cs.dropWhile isBlank) with
  | [] => some []
  | '\n' :: cs => some cs
  | '\r' :: '\n' :: cs => some cs
  | _ => none

/-- The text behind blanks, line breaks and comments; `fuel` bounds the number of lines. -/
def skipLines : Nat → List Char → Option (List Char)
  | 0, cs => some cs
  | fuel + 1, cs =>
    match cs.dropWhile isBlank with
    | '#' :: cs => do skipLines fuel (← skipComment ('#' :: cs))
    | '\n' :: cs => skipLines fuel cs
    | '\r' :: '\n' :: cs => skipLines fuel cs
    | cs => some cs

/-- A character of a key without quotes. -/
def isBareKeyChar (c : Char) : Bool := c.isAlphanum || c == '-' || c == '_'

/-- Reads one part of a key. -/
def readKeyPart (cs : List Char) : Option (String × List Char) :=
  match cs with
  | '"' :: _ | '\'' :: _ => (readLineString cs).map fun (s, rest) => (String.ofList s, rest)
  | _ =>
    let word := cs.takeWhile isBareKeyChar
    if word.isEmpty then none else some (String.ofList word, cs.dropWhile isBareKeyChar)

/-- Reads the parts of a dotted key, with the blanks around them. -/
def readKey : Nat → List Char → Option (List String × List Char)
  | 0, _ => none
  | fuel + 1, cs => do
    let (part, cs) ← readKeyPart (cs.dropWhile isBlank)
    match cs.dropWhile isBlank with
    | '.' :: cs =>
      let (parts, cs) ← readKey fuel cs
      return (part :: parts, cs)
    | cs => return ([part], cs)

/-- A key as the path to a table and the name in it. -/
def splitKey (parts : List String) : List String × String :=
  (parts.dropLast, parts.getLast?.getD "")

mutual

/-- Reads a value.  `depth` is how deep arrays and inline tables may still be nested. -/
def readValue : Nat → Nat → List Char → Option (Value × List Char)
  | 0, _, _ => none
  | fuel + 1, depth, cs =>
    match cs with
    | '[' :: cs =>
      match depth with
      | 0 => none
      | depth + 1 => do
        let (items, rest) ← readItems fuel depth cs
        return (.array items, rest)
    | '{' :: cs =>
      match depth with
      | 0 => none
      | depth + 1 => do
        match cs.dropWhile isBlank with
        | '}' :: rest => return (.object [], rest)
        | cs =>
          let (entries, rest) ← readEntries fuel depth [] cs
          return (entries.toValue, rest)
    | '"' :: _ | '\'' :: _ =>
      (readAnyString cs).map fun (s, rest) => (.string (String.ofList s), rest)
    | cs => readWord cs

/-- Reads the items of an array up to its end; the last one may be followed by a comma. -/
def readItems : Nat → Nat → List Char → Option (List Value × List Char)
  | 0, _, _ => none
  | fuel + 1, depth, cs => do
    match ← skipLines cs.length cs with
    | ']' :: rest => return ([], rest)
    | cs =>
      let (v, cs) ← readValue fuel depth cs
      match ← skipLines cs.length cs with
      | ']' :: rest => return ([v], rest)
      | ',' :: cs =>
        let (vs, rest) ← readItems fuel depth cs
        return (v :: vs, rest)
      | _ => none

/-- Reads the entries of an inline table up to its end, onto those before them. -/
def readEntries : Nat → Nat → Entries → List Char → Option (Entries × List Char)
  | 0, _, _, _ => none
  | fuel + 1, depth, entries, cs => do
    let (parts, cs) ← readKey maxDepth cs
    match cs with
    | '=' :: cs =>
      let (v, cs) ← readValue fuel depth (cs.dropWhile isBlank)
      let (path, key) := splitKey parts
      let entries ← entries.addValue path key v .header
      match cs.dropWhile isBlank with
      | '}' :: rest => return (entries, rest)
      | ',' :: cs => readEntries fuel depth entries cs
      | _ => none
    | _ => none

end

/-- A document being read: its tables, and the header that the next keys belong to. -/
structure Progress where
  root : Entries
  header : List String
  deriving Repr, Inhabited

namespace Progress

/-- Adds a value under the current header. -/
def addValue (p : Progress) (parts : List String) (v : Value) : Option Progress := do
  let (path, key) := splitKey parts
  let root ← p.root.modifyAt false
    (fun origin inner => inner.addValue path key v origin) .header p.header
  return { p with root }

/-- Goes on under a new header. -/
def openTable (p : Progress) (parts : List String) : Option Progress := do
  let (path, key) := splitKey parts
  return ⟨← p.root.openTable path key, parts⟩

/-- Goes on under a new header of an array. -/
def openItem (p : Progress) (parts : List String) : Option Progress := do
  let (path, key) := splitKey parts
  return ⟨← p.root.openItem path key, parts⟩

end Progress

/-- Reads one line that is not empty; the result is what follows its content. -/
def readLine (p : Progress) (cs : List Char) : Option (Progress × List Char) :=
  match cs with
  | '[' :: '[' :: cs => do
    let (parts, cs) ← readKey maxDepth cs
    match cs with
    | ']' :: ']' :: rest => return (← p.openItem parts, rest)
    | _ => none
  | '[' :: cs => do
    let (parts, cs) ← readKey maxDepth cs
    match cs with
    | ']' :: rest => return (← p.openTable parts, rest)
    | _ => none
  | cs => do
    let (parts, cs) ← readKey maxDepth cs
    match cs with
    | '=' :: cs =>
      let (v, rest) ← readValue (cs.length + 1) maxDepth (cs.dropWhile isBlank)
      return (← p.addValue parts v, rest)
    | _ => none

/-- Reads lines up to the end; `fuel` bounds their number. -/
def readLinesOnto (p : Progress) : Nat → List Char → Option Progress
  | 0, _ => some p
  | fuel + 1, cs => do
    match ← skipLines cs.length cs with
    | [] => return p
    | cs =>
      let (p, rest) ← readLine p cs
      readLinesOnto p fuel (← endOfLine rest)

/-- The text without a byte-order mark at its start. -/
def dropMark : List Char → List Char
  | '\uFEFF' :: cs => cs
  | cs => cs

/-- Reads a document. -/
def read (text : List Char) : Option Value := do
  let p ← readLinesOnto ⟨[], []⟩ (text.length + 1) (dropMark text)
  return p.root.toValue

end Preflight.Toml
