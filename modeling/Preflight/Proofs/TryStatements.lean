import Preflight.Proofs.BlockOpeners
import Preflight.Proofs.Catalog

/-!
# Scripts of try statements

A `Statement` is a try block with a handler or with a final block, and a script is
made of statements.  Blocks hold neither of the words `try` and `catch`, so each
opener matches once for each block that it opens:

* `Statement.scans_tryOpener`: from the start of a statement on, a search for try
  blocks finds one and goes on behind the statement.
* `Statement.scans_catchOpener`: a search for catch blocks finds the handler, if
  there is one, and the body behind the match is the handler's.

From the statements one comes to the script by induction (`scans_script`), which
counts the try blocks (`count_tryOpener_script`) and gives the handlers' bodies
(`catchBodies_script`).  `reports_script` says what the three rules about try and
catch blocks report.
-/

namespace Preflight

open Text

/-! ## Statements -/

/-- A keyword in any case with a block behind it. -/
structure Block (keyword : String) where
  word : List Char
  /-- What stands between the keyword and its types or its brace. -/
  gap : List Char
  body : List Char
  /-- What stands behind the closing brace. -/
  behind : List Char
  reads_word : Reads keyword word
  blank_gap : Blank gap
  blank_behind : Blank behind
  no_try : ¬Holds "try" body
  no_catch : ¬Holds "catch" body

namespace Block

variable {keyword : String}

/-- The block from its body on. -/
def rest (b : Block keyword) : List Char := b.body ++ '}' :: b.behind

/-- The block as text, with exception types in front of the opening brace. -/
def text (b : Block keyword) (types : List Char) : List Char :=
  b.word ++ (b.gap ++ (types ++ '{' :: b.rest))

end Block

/-- The name of an exception type keeps to its brackets, to one line and out of the
braces. -/
def PlainName (name : List Char) : Prop :=
  ∀ c ∈ name, c ∉ ['[', ']', '{', '}', '\n']

instance (name : List Char) : Decidable (PlainName name) :=
  List.decidableBAll _ _

/-- An exception type in brackets, with white space on both sides. -/
structure ExceptionType where
  before : List Char
  name : List Char
  behind : List Char
  blank_before : Blank before
  blank_behind : Blank behind
  plain : PlainName name

namespace ExceptionType

/-- The type as text. -/
def text (t : ExceptionType) : List Char :=
  t.before ++ '[' :: (t.name ++ ']' :: t.behind)

/-- Some types, separated by commas. -/
def textOf (types : List ExceptionType) : List Char :=
  List.intercalate [','] (types.map text)

end ExceptionType

/-- A catch block for any number of exception types, with balanced braces. -/
structure Handler extends Block "catch" where
  types : List ExceptionType
  balanced : Delimiters.braces.Balanced 0 body

/-- The handler as text. -/
def Handler.text (h : Handler) : List Char :=
  h.toBlock.text (ExceptionType.textOf h.types)

/-- A try block with what has to follow it. -/
inductive Statement where
  | handled (tried : Block "try") (handler : Handler)
  | finished (tried : Block "try") (final : Block "finally")

namespace Statement

/-- The statement as text. -/
def text : Statement → List Char
  | handled tried handler => tried.text [] ++ handler.text
  | finished tried final => tried.text [] ++ final.text []

/-- The handler of a statement that has one. -/
def handler? : Statement → Option Handler
  | handled _ handler => some handler
  | finished _ _ => none

/-- The final block of a statement that has one. -/
def final? : Statement → Option (Block "finally")
  | handled _ _ => none
  | finished _ final => some final

/-- The statements one after the other. -/
def script (statements : List Statement) : List Char := statements.flatMap text

/-- A handler for two types, with braces of its own. -/
example :
    let tried : Block "try" :=
      ⟨"Try".toList, " ".toList, " 1/0 ".toList, "\n".toList,
        by decide, by decide, by decide, by decide, by decide⟩
    let caught : Block "catch" :=
      ⟨"catch".toList, " ".toList, " if (1) \x7b throw \x7d ".toList, [],
        by decide, by decide, by decide, by decide, by decide⟩
    let types : List ExceptionType :=
      [⟨[], "A".toList, [], by decide, by decide, by decide⟩,
        ⟨" ".toList, "B.C".toList, " ".toList, by decide, by decide, by decide⟩]
    script [.handled tried ⟨caught, types, by decide⟩] =
      "Try \x7b 1/0 \x7d\ncatch [A], [B.C] \x7b if (1) \x7b throw \x7d \x7d".toList := by
  decide

end Statement

/-! ## Texts in which no block is opened -/

/-- The words that blocks do not hold. -/
def blockWords : List String := ["try", "catch"]

section

variable {word : String} {text behind : List Char} {c : Char}

theorem unbroken_of_mem_blockWords : ∀ word ∈ blockWords, Unbroken word := by
  decide

/-- The last character of a text with white space at its end. -/
theorem getLast?_append_blank (hbehind : Blank behind) {d : Char}
    (h : d ∈ (text ++ c :: behind).getLast?) : d = c ∨ isSpace d = true := by
  rcases behind.eq_nil_or_concat with rfl | ⟨init, last, rfl⟩
  · rw [List.getLast?_concat] at h
    exact .inl (Option.some.inj h).symm
  · rw [List.concat_eq_append] at h hbehind
    have hd : d ∈ init ++ [last] := by
      rw [← List.cons_append, ← List.append_assoc, List.getLast?_concat] at h
      rw [← Option.some.inj h]
      exact List.mem_concat_self
    exact .inr (hbehind d hd)

/-- A text up to a closing brace, without the word, with white space behind it. -/
theorem quiet_append_brace (hword : word ∈ blockWords) (hfree : ¬Holds word text)
    (hbehind : Blank behind) : Pattern.Quiet word (text ++ '}' :: behind) := by
  have hbrace : ∀ word ∈ blockWords, '}'.toLower ∉ folded word.toList := by decide
  have hunbroken := unbroken_of_mem_blockWords word hword
  constructor
  · intro h
    rcases holds_append_cons (hbrace word hword) h with h | h
    · exact hfree h
    · exact hunbroken.not_holds hbehind h
  · intro c hc hmem
    rcases getLast?_append_blank hbehind hc with rfl | hblank
    · exact hbrace word hword hmem
    · exact hunbroken.notMem_of_isSpace hblank hmem

theorem clear_append_brace (hbehind : Blank behind) :
    EndsClear (text ++ '}' :: behind) := by
  intro c hc
  rcases getLast?_append_blank hbehind hc with rfl | hblank
  · decide
  · exact isWord_of_isSpace hblank

end

/-! ## Blocks -/

namespace Block

variable {keyword word : String} (b : Block keyword)

theorem not_holds_body (hword : word ∈ blockWords) : ¬Holds word b.body := by
  simp only [blockWords, List.mem_cons, List.not_mem_nil, or_false] at hword
  rcases hword with rfl | rfl
  · exact b.no_try
  · exact b.no_catch

theorem quiet_rest (hword : word ∈ blockWords) : Pattern.Quiet word b.rest :=
  quiet_append_brace hword (b.not_holds_body hword) b.blank_behind

theorem quiet_append_rest (hword : word ∈ blockWords) {lead : List Char}
    (hlead : ¬Holds word lead) : Pattern.Quiet word (lead ++ '{' :: b.rest) := by
  have hbrace : ∀ word ∈ blockWords, '{'.toLower ∉ folded word.toList := by decide
  have hbody : ¬Holds word (lead ++ '{' :: b.body) := by
    intro h
    rcases holds_append_cons (hbrace word hword) h with h | h
    · exact hlead h
    · exact b.not_holds_body hword h
  have hquiet := quiet_append_brace hword hbody b.blank_behind
  rwa [List.append_assoc] at hquiet

/-- A keyword that lacks a letter of the word opens no block of the word. -/
theorem quiet_text (hword : word ∈ blockWords)
    (hlacks : ∃ c ∈ folded word.toList,
      c ∉ folded keyword.toList ∧ isSpace c = false) :
    Pattern.Quiet word (b.text []) := by
  have hlead : ¬Holds word (b.word ++ b.gap) := by
    obtain ⟨c, hc, hkeyword, hspace⟩ := hlacks
    refine not_holds_of_lacks hc fun hmem => ?_
    rw [folded_append, b.reads_word, List.mem_append] at hmem
    rcases hmem with hmem | hmem
    · exact hkeyword hmem
    · rw [b.blank_gap.isSpace_of_mem_folded hmem] at hspace
      cases hspace
  have hquiet := b.quiet_append_rest hword hlead
  rwa [List.append_assoc] at hquiet

theorem clear_text (front types : List Char) : EndsClear (front ++ b.text types) := by
  have htext : front ++ b.text types =
      (front ++ (b.word ++ (b.gap ++ (types ++ '{' :: b.body)))) ++ '}' :: b.behind := by
    simp [text, rest]
  rw [htext]
  exact clear_append_brace b.blank_behind

end Block

/-! ## Exception types -/

namespace ExceptionType

open Pattern

theorem textOf_singleton (t : ExceptionType) : textOf [t] = t.text :=
  List.intercalate_singleton

theorem textOf_cons_cons (t next : ExceptionType) (more : List ExceptionType) :
    textOf (t :: next :: more) = t.text ++ ',' :: textOf (next :: more) :=
  List.intercalate_cons_cons.trans (List.append_assoc _ _ _)

theorem typeName (t : ExceptionType) : TypeName t.name :=
  ⟨fun h => t.plain _ h (by decide), fun h => t.plain _ h (by decide)⟩

/-- Behind white space, the types are what a catch opener reads. -/
theorem textOf_eq : ∀ types : List ExceptionType,
    ∃ gap list, textOf types = gap ++ list ∧ Blank gap ∧ TypeList list
  | [] => ⟨[], [], rfl, List.forall_mem_nil _, .nil⟩
  | [t] => by
    have hgap : Separator t.behind :=
      ⟨t.behind, [], [], (List.append_nil _).symm, t.blank_behind, .inr rfl,
        List.forall_mem_nil _⟩
    have hlist : TypeList ('[' :: (t.name ++ ']' :: (t.behind ++ []))) :=
      .cons t.typeName hgap .nil
    rw [List.append_nil] at hlist
    exact ⟨t.before, _, textOf_singleton t, t.blank_before, hlist⟩
  | t :: next :: more => by
    obtain ⟨gap, list, htext, hblank, hlist⟩ := textOf_eq (next :: more)
    have hgap : Separator (t.behind ++ ',' :: gap) :=
      ⟨t.behind, [','], gap, rfl, t.blank_behind, .inl rfl, hblank⟩
    refine ⟨t.before, _, ?_, t.blank_before, .cons t.typeName hgap hlist⟩
    rw [textOf_cons_cons, htext, text]
    simp

theorem brace_notMem_of_blank {gap : List Char} (h : Blank gap) : '{' ∉ gap :=
  fun hmem => absurd (h _ hmem) (by decide)

theorem brace_notMem_name (t : ExceptionType) : '{' ∉ t.name :=
  fun h => t.plain _ h (by decide)

theorem brace_notMem_text (t : ExceptionType) : '{' ∉ t.text := by
  simp [text, brace_notMem_of_blank t.blank_before,
    brace_notMem_of_blank t.blank_behind, t.brace_notMem_name]

/-- Types hold no brace, and they end with a bracket and white space. -/
theorem exists_textOf_cons (t : ExceptionType) : ∀ more : List ExceptionType,
    ∃ region behind, textOf (t :: more) = region ++ ']' :: behind ∧
      '{' ∉ region ∧ Blank behind
  | [] => by
    refine ⟨t.before ++ '[' :: t.name, t.behind, ?_, ?_, t.blank_behind⟩
    · rw [textOf_singleton, text, List.append_assoc, List.cons_append]
    · simp [brace_notMem_of_blank t.blank_before, t.brace_notMem_name]
  | next :: more => by
    obtain ⟨region, behind, htext, hbrace, hblank⟩ := exists_textOf_cons next more
    refine ⟨t.text ++ ',' :: region, behind, ?_, ?_, hblank⟩
    · rw [textOf_cons_cons, htext, List.append_assoc, List.cons_append]
    · simp [t.brace_notMem_text, hbrace]

end ExceptionType

/-! ## Going through a statement -/

namespace Block

open Pattern Checks

variable {front back : List Char}

/-- A boundary stands in front of the keyword. -/
theorem boundary {keyword : String} (b : Block keyword) (hword : Wordy keyword)
    (hfront : EndsClear front) : BoundaryBetween front (b.word ++ back) :=
  (boundaryBetween_head_iff (b.reads_word.wordy hword).1).mpr hfront

/-- A search for try blocks finds this one. -/
theorem scans_tryOpener (b : Block "try") (hfront : EndsClear front) (back : List Char) :
    ∃ found, tryOpener.Scans .insensitive front (b.text []) back [found] := by
  have hfinds : tryOpener.Finds .insensitive front (b.word ++ (b.gap ++ ['{']))
      (b.rest ++ back) := by
    refine finds_tryOpener_iff.mpr
      ⟨?_, b.word, b.gap, rfl, b.reads_word, b.blank_gap⟩
    rw [List.append_assoc]
    exact b.boundary (by decide) hfront
  obtain ⟨found, -, hscans⟩ :=
    announced_tryOpener.scans hfinds (b.quiet_rest (by decide))
  have htext : b.text [] = b.word ++ (b.gap ++ ['{']) ++ b.rest := by
    simp [text]
  exact ⟨found, htext ▸ hscans⟩

end Block

namespace Handler

open Pattern Checks

variable {front : List Char}

/-- A search for catch blocks finds this one, and its body behind the match. -/
theorem scans_catchOpener (h : Handler) (hfront : EndsClear front) (back : List Char) :
    ∃ found, Delimiters.braces.body 0 found.after = h.body ∧
      catchOpener.Scans .insensitive front h.text back [found] := by
  obtain ⟨gap, list, htypes, hgap, hlist⟩ := ExceptionType.textOf_eq h.types
  have hfinds : catchOpener.Finds .insensitive front
      (h.word ++ (h.gap ++ gap ++ (list ++ ['{']))) (h.rest ++ back) := by
    refine finds_catchOpener_iff.mpr ⟨?_, h.word, h.gap ++ gap, list, rfl,
      h.reads_word, blank_append_iff.mpr ⟨h.blank_gap, hgap⟩, hlist⟩
    rw [List.append_assoc]
    exact h.boundary (by decide) hfront
  obtain ⟨found, hafter, hscans⟩ :=
    announced_catchOpener.scans hfinds (h.quiet_rest (by decide))
  refine ⟨found, ?_, ?_⟩
  · rw [hafter, Block.rest, List.append_assoc, List.cons_append]
    exact h.balanced.body_append (by decide) _
  · have htext : h.text =
        h.word ++ (h.gap ++ gap ++ (list ++ ['{'])) ++ h.rest := by
      simp [text, Block.text, htypes]
    exact htext ▸ hscans

/-- A search for try blocks finds none in a handler. -/
theorem silent_tryOpener (h : Handler) (front back : List Char) :
    tryOpener.Silent .insensitive front h.text back := by
  cases htypes : h.types with
  | nil =>
    have hquiet : Quiet "try" (h.toBlock.text []) :=
      h.quiet_text (by decide) ⟨'r', by decide, by decide, by decide⟩
    unfold text
    rw [htypes]
    exact announced_tryOpener.begins.silent hquiet front back
  | cons t more =>
    obtain ⟨region, behind, htext, hbrace, hblank⟩ := t.exists_textOf_cons more
    have hregion : '{' ∉ h.word ++ (h.gap ++ region) := by
      have hword : '{' ∉ h.word := fun hmem => by
        have hfolded := mem_folded hmem
        rw [h.reads_word] at hfolded
        exact absurd hfolded (by decide)
      simp [hword, ExceptionType.brace_notMem_of_blank h.blank_gap, hbrace]
    have hquiet : Quiet "try" (behind ++ '{' :: h.rest) :=
      h.quiet_append_rest (by decide) (Unbroken.not_holds (by decide) hblank)
    have hsplit : h.text =
        (h.word ++ (h.gap ++ region)) ++ [']'] ++ (behind ++ '{' :: h.rest) := by
      simp [text, Block.text, htypes, htext]
    rw [hsplit]
    exact (tryOpener_silent hregion _ _).append
      (announced_tryOpener.begins.silent hquiet _ _)

end Handler

namespace Statement

open Pattern Checks

variable {front : List Char}

/-- A search for try blocks finds one per statement. -/
theorem scans_tryOpener (s : Statement) (hfront : EndsClear front) (back : List Char) :
    ∃ found, tryOpener.Scans .insensitive front s.text back [found] := by
  cases s with
  | handled tried handler =>
    obtain ⟨found, hscans⟩ := tried.scans_tryOpener hfront (handler.text ++ back)
    exact ⟨found, hscans.append (handler.silent_tryOpener _ back).scans⟩
  | finished tried final =>
    obtain ⟨found, hscans⟩ := tried.scans_tryOpener hfront (final.text [] ++ back)
    have hquiet : Quiet "try" (final.text []) :=
      final.quiet_text (by decide) ⟨'t', by decide, by decide, by decide⟩
    have hrest := announced_tryOpener.begins.silent hquiet
      (front ++ tried.text []) back
    exact ⟨found, hscans.append hrest.scans⟩

/-- A search for catch blocks finds the handler, and its body behind the match. -/
theorem scans_catchOpener (s : Statement) (back : List Char) :
    ∃ trail, trail.map (fun found => Delimiters.braces.body 0 found.after) =
        s.handler?.toList.map (·.body) ∧
      catchOpener.Scans .insensitive front s.text back trail := by
  have hlacks : ∃ c ∈ folded "catch".toList, c ∉ folded "try".toList ∧
      isSpace c = false := ⟨'c', by decide, by decide, by decide⟩
  cases s with
  | handled tried handler =>
    have htried : Quiet "catch" (tried.text []) := tried.quiet_text (by decide) hlacks
    obtain ⟨found, hbody, hscans⟩ :=
      handler.scans_catchOpener (tried.clear_text front []) back
    refine ⟨[found], congrArg (fun body => [body]) hbody, ?_⟩
    exact (announced_catchOpener.begins.silent htried front _).scans.append hscans
  | finished tried final =>
    have htried : Quiet "catch" (tried.text []) := tried.quiet_text (by decide) hlacks
    have hfinal : Quiet "catch" (final.text []) :=
      final.quiet_text (by decide) ⟨'c', by decide, by decide, by decide⟩
    refine ⟨[], rfl, ?_⟩
    exact ((announced_catchOpener.begins.silent htried front _).append
      (announced_catchOpener.begins.silent hfinal _ back)).scans

theorem clear_text (s : Statement) (front : List Char) : EndsClear (front ++ s.text) := by
  cases s with
  | handled tried handler =>
    rw [text, ← List.append_assoc]
    exact handler.clear_text _ _
  | finished tried final =>
    rw [text, ← List.append_assoc]
    exact final.clear_text _ _

/-! ## Going through a script -/

/-- The handlers of a script, in order. -/
def handlers (statements : List Statement) : List Handler :=
  statements.filterMap handler?

/-- The final blocks of a script, in order. -/
def finals (statements : List Statement) : List (Block "finally") :=
  statements.filterMap final?

theorem length_eq (statements : List Statement) :
    statements.length = (handlers statements).length + (finals statements).length := by
  induction statements with
  | nil => rfl
  | cons s statements ih =>
    unfold handlers finals at ih ⊢
    cases s with
    | handled _ _ =>
      simp only [List.length_cons, List.filterMap_cons, handler?, final?, ih]
      omega
    | finished _ _ =>
      simp only [List.length_cons, List.filterMap_cons, handler?, final?, ih]
      omega

/-- A search that goes through each statement goes through the script.  What is read
off the matches of a script is what is read off those of its statements. -/
theorem scans_script {α : Type} {opener : Pattern} {reading : Match → α}
    {readings : Statement → List α}
    (h : ∀ (s : Statement) {front : List Char}, EndsClear front → ∀ back,
      ∃ trail, trail.map reading = readings s ∧
        opener.Scans .insensitive front s.text back trail)
    (statements : List Statement) (hfront : EndsClear front) :
    ∃ trail, trail.map reading = statements.flatMap readings ∧
      opener.Scans .insensitive front (script statements) [] trail := by
  induction statements generalizing front with
  | nil => exact ⟨[], rfl, (silent_nil front []).scans⟩
  | cons s statements ih =>
    obtain ⟨found, hfound, hhead⟩ := h s hfront (script statements ++ [])
    obtain ⟨trail, htrail, htail⟩ := ih (s.clear_text front)
    refine ⟨found ++ trail, ?_, hhead.append htail⟩
    rw [List.map_append, hfound, htrail, List.flatMap_cons]

/-- There are as many try blocks as statements. -/
theorem count_tryOpener_script (statements : List Statement) :
    tryOpener.count .insensitive (script statements) = statements.length := by
  have hone (s : Statement) {front : List Char} (hfront : EndsClear front)
      (back : List Char) : ∃ trail, trail.map (fun _ => ()) = [()] ∧
        tryOpener.Scans .insensitive front s.text back trail := by
    obtain ⟨found, hscans⟩ := s.scans_tryOpener hfront back
    exact ⟨[found], rfl, hscans⟩
  obtain ⟨trail, htrail, hscans⟩ := scans_script hone statements endsClear_nil
  have hlength := congrArg List.length htrail
  rw [List.length_map, ← List.map_eq_flatMap, List.length_map] at hlength
  rw [count, announced_tryOpener.solid.findAll_of_scans hscans, hlength]

/-- The bodies behind the catch openers are those of the handlers. -/
theorem catchBodies_script (statements : List Statement) :
    catchBodies (script statements) = (handlers statements).map (·.body) := by
  obtain ⟨trail, hbodies, hscans⟩ :=
    scans_script (fun s _ _ back => s.scans_catchOpener back) statements endsClear_nil
  rw [catchBodies, bodiesAfter, announced_catchOpener.solid.findAll_of_scans hscans,
    hbodies, handlers, List.filterMap_eq_flatMap_toList, List.map_flatMap]

theorem count_catchOpener_script (statements : List Statement) :
    catchOpener.count .insensitive (script statements) =
      (handlers statements).length := by
  have hlength := congrArg List.length (catchBodies_script statements)
  rwa [catchBodies, bodiesAfter, List.length_map, List.length_map] at hlength

end Statement

/-! ## What the rules report -/

namespace Checks

open Pattern

variable {body : List Char} {name : String}

/-- Looking up one of the logging calls means looking for it in any case. -/
theorem mentions_loggingCall_iff (hname : name ∈ loggingCalls) :
    mentions body name = true ↔ Holds name body := by
  have hnames : ∀ name ∈ loggingCalls,
      lowercase name.toList = folded name.toList ∧
        Settled (folded name.toList) ∧ folded name.toList ≠ [] := by
    decide +kernel
  obtain ⟨hlower, hsettled, hne⟩ := hnames name hname
  exact mentions_iff hlower hsettled hne

/-- A statement that ends the script is one of two words that stand apart. -/
theorem occursIn_leaving_iff :
    leaving.occursIn .insensitive body = true ↔
      HoldsApart "exit" body ∨ HoldsApart "throw" body := by
  have hexit : TwoCased "exit" ∧ Wordy "exit" := by decide
  have hthrow : TwoCased "throw" ∧ Wordy "throw" := by decide
  have hboundaries {front piece back : List Char}
      (hword : Reads "exit" piece ∨ Reads "throw" piece) :
      BoundaryBetween front (piece ++ back) ∧ BoundaryBetween (front ++ piece) back ↔
        EndsClear front ∧ StartsClear back := by
    obtain ⟨hhead, hlast⟩ :
        piece.head?.any isWord = true ∧ piece.getLast?.any isWord = true := by
      rcases hword with hword | hword
      · exact hword.wordy hexit.2
      · exact hword.wordy hthrow.2
    rw [boundaryBetween_head_iff hhead, boundaryBetween_last_iff hlast]
  have hpiece {front piece back : List Char} :
      leaving.Finds .insensitive front piece back ↔
        (Reads "exit" piece ∨ Reads "throw" piece) ∧
          EndsClear front ∧ StartsClear back := by
    simp only [leaving, finds_append_iff, finds_wordBoundary_iff, finds_group_iff,
      finds_alt_iff, finds_word_iff hexit.1, finds_word_iff hthrow.1]
    constructor
    · intro hfinds
      obtain ⟨_, _, rfl, ⟨_, piece, rfl, ⟨rfl, hbefore⟩, hword⟩, rfl, hbehind⟩ :=
        hfinds
      rw [List.append_nil]
      exact ⟨hword, (hboundaries hword).mp ⟨hbefore, hbehind⟩⟩
    · rintro ⟨hword, hedges⟩
      obtain ⟨hbefore, hbehind⟩ := (hboundaries hword).mpr hedges
      exact ⟨piece, [], (List.append_nil piece).symm,
        ⟨[], piece, rfl, ⟨rfl, hbefore⟩, hword⟩, rfl, hbehind⟩
  rw [occursIn_iff]
  simp only [hpiece]
  constructor
  · rintro ⟨front, piece, back, rfl, hexit | hthrow, hfront, hback⟩
    · exact .inl ⟨front, piece, back, rfl, hexit, hfront, hback⟩
    · exact .inr ⟨front, piece, back, rfl, hthrow, hfront, hback⟩
  · rintro (⟨front, piece, back, rfl, hexit, hfront, hback⟩ |
      ⟨front, piece, back, rfl, hthrow, hfront, hback⟩)
    · exact ⟨front, piece, back, rfl, .inl hexit, hfront, hback⟩
    · exact ⟨front, piece, back, rfl, .inr hthrow, hfront, hback⟩

end Checks

/-- Numbering a list from one and keeping some members lists their positions. -/
theorem exists_positions {α β : Type} (members : List α) (keeps : α → Bool)
    (label : Nat → β) :
    ∃ positions : List Nat, positions.Pairwise (· < ·) ∧
      (∀ n, n ∈ positions ↔
        1 ≤ n ∧ ∃ a, members[n - 1]? = some a ∧ keeps a = true) ∧
      ((members.zipIdx 1).filterMap fun (a, n) =>
        if keeps a then some (label n) else none) = positions.map label := by
  have hnumbers : (members.zipIdx 1).Pairwise fun first second => first.2 < second.2 := by
    rw [← List.pairwise_map, List.zipIdx_map_snd]
    exact List.pairwise_lt_range'
  refine ⟨(members.zipIdx 1).filterMap fun (a, n) => if keeps a then some n else none,
    ?_, ?_, ?_⟩
  · refine hnumbers.filterMap _ fun first second hlt i hi j hj => ?_
    rw [Option.ite_none_right_eq_some] at hi hj
    rw [← Option.some.inj hi.2, ← Option.some.inj hj.2]
    exact hlt
  · intro n
    simp only [List.mem_filterMap, Prod.exists,
      List.mk_mem_zipIdx_iff_le_and_getElem?_sub, Option.ite_none_right_eq_some]
    constructor
    · rintro ⟨a, m, ⟨hm, hmember⟩, ha, heq⟩
      obtain rfl := Option.some.inj heq
      exact ⟨hm, a, hmember, ha⟩
    · rintro ⟨hn, a, hmember, ha⟩
      exact ⟨a, n, ⟨hn, hmember⟩, ha, rfl⟩
  · rw [List.map_filterMap]
    refine List.filterMap_congr fun entry _ => ?_
    obtain ⟨a, n⟩ := entry
    show (if keeps a then some (label n) else none) =
      (if keeps a then some n else none).map label
    by_cases ha : keeps a = true
    · rw [if_pos ha, if_pos ha, Option.map_some]
    · rw [if_neg ha, if_neg ha, Option.map_none]

namespace Statement

open Checks

section

variable (c : Context) (statements : List Statement)

theorem tryCatchMismatch_script :
    tryCatchMismatch { c with content := script statements } =
      if (finals statements).length = 0 then []
      else
        let n := (handlers statements).length
        let k := (finals statements).length
        [.violation s!"Mismatched try-catch blocks: {n + k} try, {n} catch"] := by
  simp only [tryCatchMismatch, count_tryOpener_script, count_catchOpener_script,
    length_eq]
  by_cases hk : (finals statements).length = 0
  · rw [if_pos hk, if_neg (by omega)]
  · rw [if_neg hk, if_pos (by omega)]

theorem silentCatch_script :
    ∃ positions : List Nat, positions.Pairwise (· < ·) ∧
      (∀ i, i ∈ positions ↔
        1 ≤ i ∧ ∃ handler, (handlers statements)[i - 1]? = some handler ∧
          ∀ name ∈ loggingCalls, ¬Holds name handler.body) ∧
      silentCatch { c with content := script statements } =
        positions.map fun i => .violation s!"Catch block #{i} doesn't log errors" := by
  have hsilent (body : List Char) : (!loggingCalls.any (mentions body)) = true ↔
      ∀ name ∈ loggingCalls, ¬Holds name body := by
    rw [Bool.not_eq_true', List.any_eq_false]
    exact forall₂_congr fun name hname => not_congr (mentions_loggingCall_iff hname)
  obtain ⟨positions, hsorted, hmem, hlist⟩ := exists_positions
    ((handlers statements).map (·.body)) (fun body => !loggingCalls.any (mentions body))
    fun i => Finding.violation s!"Catch block #{i} doesn't log errors"
  refine ⟨positions, hsorted, fun i => ?_, ?_⟩
  · simp only [hmem, hsilent, List.getElem?_map, Option.map_eq_some_iff]
    refine and_congr_right fun _ => ⟨?_, ?_⟩
    · rintro ⟨_, ⟨handler, hhandler, rfl⟩, hnone⟩
      exact ⟨handler, hhandler, hnone⟩
    · rintro ⟨handler, hhandler, hnone⟩
      exact ⟨handler.body, ⟨handler, hhandler, rfl⟩, hnone⟩
  · rw [← hlist, ← catchBodies_script]
    rfl

theorem catchWithoutExit_script :
    (∃ message, Finding.violation message ∈
        catchWithoutExit { c with content := script statements }) ↔
      0 < (handlers statements).length ∧ ∀ handler ∈ handlers statements,
        ¬HoldsApart "exit" handler.body ∧ ¬HoldsApart "throw" handler.body := by
  have hstays : ((handlers statements).map (·.body)).any
        (leaving.occursIn .insensitive) = false ↔
      ∀ handler ∈ handlers statements,
        ¬HoldsApart "exit" handler.body ∧ ¬HoldsApart "throw" handler.body := by
    rw [List.any_map, List.any_eq_false]
    refine forall₂_congr fun handler _ => ?_
    rw [← not_or, ← occursIn_leaving_iff]
    rfl
  rw [← hstays, List.length_pos_iff, catchWithoutExit, catchBodies_script]
  cases hhandlers : handlers statements with
  | nil => simp
  | cons first more =>
    rw [List.map_cons]
    by_cases hleaves : ((first.body :: more.map (·.body)).any
        (leaving.occursIn .insensitive)) = true
    · simp only [hleaves]
      simp
    · simp only [hleaves]
      simp

end

/-- The rules about try and catch blocks, on a script of statements.  Blocks
are mismatched exactly if there are final blocks.  The handlers that do not log are
named by their positions.  Handlers are missed to leave the script if there are
any and none of them leaves it. -/
theorem reports_script (c : Context) (statements : List Statement) :
    let scripted : Context := { c with content := script statements }
    let n := (handlers statements).length
    let k := (finals statements).length
    Rule.Reports .tryCatchMismatch scripted
        (if k = 0 then []
        else [.violation s!"Mismatched try-catch blocks: {n + k} try, {n} catch"]) ∧
      (∃ positions : List Nat,
        positions.Pairwise (· < ·) ∧
        (∀ i, i ∈ positions ↔
          1 ≤ i ∧ ∃ handler, (handlers statements)[i - 1]? = some handler ∧
            ∀ name ∈ loggingCalls, ¬Holds name handler.body) ∧
        Rule.Reports .silentCatch scripted
          (positions.map fun i => .violation s!"Catch block #{i} doesn't log errors")) ∧
      ∃ findings, Rule.Reports .catchWithoutExit scripted findings ∧
        ((∃ message, .violation message ∈ findings) ↔
          0 < n ∧ ∀ handler ∈ handlers statements,
            ¬HoldsApart "exit" handler.body ∧ ¬HoldsApart "throw" handler.body) := by
  intro scripted n k
  obtain ⟨positions, hsorted, hmem, hfound⟩ := silentCatch_script c statements
  refine ⟨?_, ⟨positions, hsorted, hmem, ?_⟩, _, .of_row rfl scripted,
    catchWithoutExit_script c statements⟩
  · have hmismatch := tryCatchMismatch_script c statements
    exact hmismatch ▸ .of_row rfl scripted
  · exact hfound ▸ .of_row rfl scripted

end Statement

end Preflight
