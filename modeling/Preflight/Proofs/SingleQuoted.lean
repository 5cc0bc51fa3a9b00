import Mathlib.Data.List.Basic
import Preflight.ParserCheck

/-!
# The path as PowerShell reads it

PowerShell takes five characters for single quotes, and any of them opens and
closes a string.  `SingleQuoted.read` reads such a string and what stands behind
it.

The command that parses a script doubles one of the five in the path, the
apostrophe.  `denotesPath_iff` says for which paths PowerShell reads the path and
then the rest of the command: those that have no other quote.  In them every
quote is doubled (`readBody_quotePath_append`); for the others the quotes are
counted (`countP_isQuote_of_readBody`), of which a string takes two for each of
its own and one for its end.

Another quote can end the string.  What stands behind it in the path is then read
as commands (`readBody_of_typographic`).
-/

namespace Preflight

namespace SingleQuoted

/-- Single quotes other than the apostrophe. -/
def isTypographic (c : Char) : Bool :=
  c == '\u2018' || c == '\u2019' || c == '\u201A' || c == '\u201B'

/-- What PowerShell takes for a single quote. -/
def isQuote (c : Char) : Bool := c == '\'' || isTypographic c

/-- Reads a string from behind its opening quote, and gives what stands behind the
closing one.  Of two quotes in a row the second belongs to the string; a lone one
closes it. -/
def readBody : List Char → Option (List Char × List Char)
  | [] => none
  | [c] => if isQuote c then some ([], []) else none
  | c :: d :: cs =>
    if isQuote c then
      if isQuote d then (readBody cs).map (Prod.map (d :: ·) id)
      else some ([], d :: cs)
    else (readBody (d :: cs)).map (Prod.map (c :: ·) id)

/-- Reads a string from its opening quote on. -/
def read : List Char → Option (List Char × List Char)
  | [] => none
  | c :: cs => if isQuote c then readBody cs else none

/-! ## Reading character by character -/

variable {c d : Char} {cs s rest : List Char}

theorem readBody_cons_of_not_quote (hc : isQuote c = false) (cs : List Char) :
    readBody (c :: cs) = (readBody cs).map (Prod.map (c :: ·) id) := by
  cases cs with
  | nil => simp [readBody, hc]
  | cons d cs => simp [readBody, hc]

theorem readBody_doubled (hc : isQuote c = true) (hd : isQuote d = true)
    (cs : List Char) :
    readBody (c :: d :: cs) =
      (readBody cs).map (Prod.map (d :: ·) id) := by
  simp [readBody, hc, hd]

/-- A quote that no other follows closes the string. -/
theorem readBody_closing (hc : isQuote c = true)
    (hcs : ∀ d ∈ cs.head?, isQuote d = false) :
    readBody (c :: cs) = some ([], cs) := by
  cases cs with
  | nil => simp [readBody, hc]
  | cons d cs => simp [readBody, hc, hcs d rfl]

/-- A string takes from the text two quotes for each of its own, and one more to
close it. -/
theorem countP_isQuote_of_readBody (h : readBody cs = some (s, rest)) :
    ∃ used, cs = used ++ rest ∧
      used.countP isQuote = 2 * s.countP isQuote + 1 := by
  fun_induction readBody cs generalizing s rest with
  | case1 => cases h
  | case2 c hc =>
    cases h
    exact ⟨[c], rfl, by simp [hc]⟩
  | case3 => cases h
  | case4 c d cs hc hd ih =>
    obtain ⟨⟨t, rest'⟩, hread, heq⟩ := Option.map_eq_some_iff.mp h
    cases heq
    obtain ⟨used, rfl, hcount⟩ := ih hread
    refine ⟨c :: d :: used, rfl, ?_⟩
    rw [List.countP_cons_of_pos hc, List.countP_cons_of_pos hd,
      List.countP_cons_of_pos hd, hcount]
    omega
  | case5 c d cs hc hd =>
    cases h
    exact ⟨[c], rfl, by simp [hc]⟩
  | case6 c d cs hc ih =>
    obtain ⟨⟨t, rest'⟩, hread, heq⟩ := Option.map_eq_some_iff.mp h
    cases heq
    obtain ⟨used, hused, hcount⟩ := ih hread
    refine ⟨c :: used, by rw [hused, List.cons_append, id_eq], ?_⟩
    rw [List.countP_cons_of_neg hc, List.countP_cons_of_neg hc, hcount]

/-! ## Quoted paths -/

@[simp] theorem quotePath_nil : quotePath [] = [] := rfl

@[simp] theorem quotePath_apostrophe (path : List Char) :
    quotePath ('\'' :: path) = '\'' :: '\'' :: quotePath path :=
  rfl

theorem quotePath_cons (hc : c ≠ '\'') (path : List Char) :
    quotePath (c :: path) = c :: quotePath path := by
  rw [quotePath, List.flatMap_cons, if_neg hc, List.singleton_append, quotePath]

theorem isQuote_eq_false (hc : c ≠ '\'') (htypographic : isTypographic c = false) :
    isQuote c = false := by
  rw [isQuote, htypographic, beq_false_of_ne hc, Bool.or_false]

/-- A path in which the apostrophe is the only quote is read through, up to the
next text. -/
theorem readBody_quotePath_append {path : List Char}
    (hpath : ∀ c ∈ path, isTypographic c = false) (cs : List Char) :
    readBody (quotePath path ++ cs) =
      (readBody cs).map (Prod.map (path ++ ·) id) := by
  induction path with
  | nil => exact (congrFun Option.map_id (readBody cs)).symm
  | cons c path ih =>
    rw [List.forall_mem_cons] at hpath
    by_cases hc : c = '\''
    · rw [hc, quotePath_apostrophe, List.cons_append, List.cons_append,
        readBody_doubled rfl rfl, ih hpath.2, Option.map_map]
      rfl
    · rw [quotePath_cons hc, List.cons_append,
        readBody_cons_of_not_quote (isQuote_eq_false hc hpath.1), ih hpath.2,
        Option.map_map]
      rfl

/-- Quoting writes every quote once and the apostrophe once more. -/
theorem countP_isQuote_quotePath (path : List Char) :
    (quotePath path).countP isQuote + path.countP isTypographic =
      2 * path.countP isQuote := by
  induction path with
  | nil => rfl
  | cons c path ih =>
    by_cases hc : c = '\''
    · have hquote : isQuote '\'' = true := rfl
      have hother : ¬isTypographic '\'' = true := by decide
      rw [hc, quotePath_apostrophe, List.countP_cons_of_pos hquote,
        List.countP_cons_of_pos hquote, List.countP_cons_of_pos hquote,
        List.countP_cons_of_neg hother]
      omega
    · have hsame : isQuote c = isTypographic c := by
        rw [isQuote, beq_false_of_ne hc, Bool.false_or]
      rw [quotePath_cons hc, List.countP_cons, List.countP_cons, List.countP_cons,
        hsame]
      omega

/-- Another quote closes the string unless a quote follows, and what follows is
outside of it. -/
theorem readBody_of_typographic {front : List Char} {quote next : Char}
    (hfront : ∀ c ∈ front, isTypographic c = false)
    (hquote : isTypographic quote = true) (hnext : isQuote next = false)
    (back cs : List Char) :
    readBody (quotePath (front ++ quote :: next :: back) ++ cs) =
      some (front, next :: (quotePath back ++ cs)) := by
  have hapostrophe {c : Char} (hc : isQuote c = isTypographic c) : c ≠ '\'' := by
    rintro rfl
    cases hc
  have hisQuote : isQuote quote = true := by rw [isQuote, hquote, Bool.or_true]
  have hsplit : quotePath (front ++ quote :: next :: back) =
      quotePath front ++ quote :: next :: quotePath back := by
    have hnext' : next ≠ '\'' := by
      rintro rfl
      cases hnext
    rw [quotePath, List.flatMap_append, ← quotePath, ← quotePath,
      quotePath_cons (hapostrophe (hisQuote.trans hquote.symm)),
      quotePath_cons hnext']
  have hclosing : readBody (quote :: next :: (quotePath back ++ cs)) =
      some ([], next :: (quotePath back ++ cs)) :=
    readBody_closing hisQuote fun d hd => by
      cases hd
      exact hnext
  rw [hsplit, List.append_assoc, readBody_quotePath_append hfront,
    List.cons_append, List.cons_append, hclosing, Option.map_some, Prod.map,
    List.append_nil, id_eq]

end SingleQuoted

/-! ## The command -/

open SingleQuoted

/-- The command up to the string that holds the path. -/
def parseCallHead : String :=
  "$errs = $null; [System.Management.Automation.Language.Parser]::ParseFile("

/-- The command behind the string that holds the path. -/
def parseCallTail : String :=
  ", " ++ "[ref]$null, [ref]$errs) | Out-Null; if ($errs) \x7b $errs | ForEach-Object " ++
    "\x7b [Console]::Error.WriteLine($_.Message) \x7d; exit 1 \x7d"

/-- What PowerShell reads in the command for a path from the string that holds it:
the string, and the commands behind it. -/
def readParseCall (path : String) : Option (List Char × List Char) :=
  read ((parseCommand path).toList.drop parseCallHead.length)

/-- PowerShell finds exactly the path in the string, and behind the string the fixed
rest of the command. -/
def DenotesPath (path : String) : Prop :=
  parseCallHead.toList <+: (parseCommand path).toList ∧
    readParseCall path = some (path.toList, parseCallTail.toList)

theorem toList_parseCommand (path : String) :
    (parseCommand path).toList =
      parseCallHead.toList ++
        '\'' :: (quotePath path.toList ++ '\'' :: parseCallTail.toList) := by
  have hhead : parseCommandHead = parseCallHead ++ "'" := by decide +kernel
  have htail : parseCommandTail = "'" ++ parseCallTail := by decide +kernel
  have hquote : "'".toList = ['\''] := by decide
  rw [parseCommand, hhead, htail]
  simp only [String.toList_append, String.toList_ofList, hquote, List.append_assoc,
    List.cons_append, List.nil_append]

theorem head?_parseCallTail : parseCallTail.toList.head? = some ',' := by
  have hcomma : ", ".toList = [',', ' '] := by decide
  rw [parseCallTail, String.toList_append, String.toList_append, hcomma]
  rfl

theorem readParseCall_eq (path : String) :
    readParseCall path =
      readBody (quotePath path.toList ++ '\'' :: parseCallTail.toList) := by
  rw [readParseCall, toList_parseCommand, ← String.length_toList, List.drop_left]
  rfl

/-- Doubling apostrophes is enough for a path that has no other quotes. -/
theorem denotesPath_of_apostrophes {path : String}
    (hpath : ∀ c ∈ path.toList, isTypographic c = false) : DenotesPath path := by
  have hclosing : readBody ('\'' :: parseCallTail.toList) =
      some ([], parseCallTail.toList) :=
    readBody_closing rfl fun d hd => by
      rw [head?_parseCallTail] at hd
      cases hd
      rfl
  rw [DenotesPath, readParseCall_eq, toList_parseCommand,
    readBody_quotePath_append hpath, hclosing, Option.map_some, Prod.map,
    List.append_nil, id_eq]
  exact ⟨List.prefix_append _ _, rfl⟩

/-- In front of the rest of the command every quote of the string is written twice;
only the apostrophes are. -/
theorem DenotesPath.apostrophes {path : String} (h : DenotesPath path) :
    ∀ c ∈ path.toList, isTypographic c = false := by
  have hread := h.2
  rw [readParseCall_eq] at hread
  obtain ⟨used, hused, hcount⟩ := countP_isQuote_of_readBody hread
  have hquoted : used = quotePath path.toList ++ ['\''] := by
    rw [List.append_cons] at hused
    exact (List.append_cancel_right hused).symm
  have hwritten := countP_isQuote_quotePath path.toList
  have hlone : ['\''].countP isQuote = 1 := rfl
  rw [hquoted, List.countP_append] at hcount
  have hnone : path.toList.countP isTypographic = 0 := by omega
  rw [List.countP_eq_zero] at hnone
  exact fun c hc => Bool.eq_false_iff.mpr (hnone c hc)

/-- The command denotes the path exactly if the path has no quotes but
apostrophes. -/
theorem denotesPath_iff (path : String) :
    DenotesPath path ↔ ∀ c ∈ path.toList, isTypographic c = false :=
  ⟨DenotesPath.apostrophes, denotesPath_of_apostrophes⟩

/-- A path that brings a command along: its right single quote closes the string, and
the number sign makes the rest of the line a comment. -/
theorem not_denotesPath_of_rightQuote :
    let path := "x\u2019); calc #"
    '\x00' ∉ path.toList ∧ ¬DenotesPath path ∧
      readParseCall path =
        some ("x".toList, "); calc #'".toList ++ parseCallTail.toList) := by
  intro path
  have hread : readParseCall path =
      some ("x".toList, "); calc #'".toList ++ parseCallTail.toList) := by
    have hpath : path.toList = "x".toList ++ '\u2019' :: ')' :: "; calc #".toList := by
      decide
    have hrest : "); calc #'".toList =
        ')' :: (quotePath "; calc #".toList ++ ['\'']) := by decide
    have hx : "x".toList = ['x'] := by decide
    have hfront : ∀ c ∈ "x".toList, isTypographic c = false := by
      rw [hx]
      exact List.forall_mem_singleton.mpr rfl
    rw [readParseCall_eq, hpath,
      readBody_of_typographic hfront (by decide) (by decide), hrest,
      List.cons_append, List.append_assoc, List.singleton_append]
  have hquote : '\u2019' ∈ path.toList := by decide
  refine ⟨by decide, fun h => ?_, hread⟩
  exact absurd (h.apostrophes '\u2019' hquote) (by decide)

end Preflight
