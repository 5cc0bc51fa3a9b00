import Preflight.Text.Classes
import Preflight.Text.CaseTable

/-!
# Lower case

Full lower casing of a text.  Every character is lowered by itself, with two exceptions: a capital
I with a dot above becomes two characters, and a capital sigma has a form of its own at the end of
a word.
-/

namespace Preflight.Text

/-- The lower case of a character whose lower case is one character. -/
def lowerChar (c : Char) : Char :=
  if c.toNat < 0x80 then c.toLower
  else
    match lowerRuns.find? fun run =>
        run.first ≤ c.toNat && c.toNat ≤ run.last && (c.toNat - run.first) % run.stride == 0 with
    | some run => Char.ofNat (c.toNat + run.offset).toNat
    | none => c

/-- The first character that is not case-ignorable exists and is cased. -/
def meetsCased (cs : List Char) : Bool :=
  match cs.dropWhile (inRanges caseIgnorableRanges) with
  | c :: _ => inRanges casedRanges c
  | [] => false

/-- Lower case of `cs`, given the characters before it from the nearest to the farthest. -/
def lowerAfter (before : List Char) : List Char → List Char
  | [] => []
  | c :: cs =>
    let rest := lowerAfter (c :: before) cs
    if c = 'Σ' then
      (if meetsCased before && !meetsCased cs then 'ς' else 'σ') :: rest
    else if c = 'İ' then 'i' :: '\u0307' :: rest
    else lowerChar c :: rest

/-- The text in lower case. -/
def lowercase (text : List Char) : List Char := lowerAfter [] text

end Preflight.Text
