import Preflight.ParserCheck
import Preflight.Proofs.Diagnostics
import Preflight.Proofs.Encoding.Replacement
import Preflight.Proofs.LetterCase.Words
import Preflight.Proofs.Lines

/-!
# What is recorded of the external parser

Whatever a run of the parser comes to, one diagnostic is recorded of it.  It is an
error if the parser tells parse errors, which it does by exiting with 1 and writing
more than white space to its error stream.

* `exists_lines`: the messages on an error stream are its lines that are not blank,
  each without the white space at its ends (`Trimmed`).
* `ofExit_cases`: with exit code 1, a text tells errors exactly if it is not blank.

An error stream that is not UTF-8 counts as empty, although a reader that replaces
what is ill-formed would find something on it.  So there the errors of the parser are
only worth a warning, and `recorded_ofRun` says that it is the one case in which
errors that are told are not recorded as such.
-/

namespace Preflight

namespace Text

variable {line s more : List Char}

/-! ## White space at the ends of a line -/

/-- What is left of a line without the white space at either end. -/
inductive Trimmed : List Char → List Char → Prop where
  | mk {before s behind : List Char} (hbefore : Blank before) (hbehind : Blank behind)
      (hhead : ∀ c ∈ s.head?, isSpace c = false)
      (hlast : ∀ c ∈ s.getLast?, isSpace c = false) (hne : s ≠ []) :
      Trimmed (before ++ (s ++ behind)) s

theorem Trimmed.trim_eq (h : Trimmed line s) : trim line = s := by
  cases h with
  | mk hbefore hbehind hhead hlast hne =>
    exact Text.trim_eq hbefore hbehind hhead hlast hne

theorem Trimmed.ne_nil (h : Trimmed line s) : s ≠ [] := by
  cases h with
  | mk _ _ _ _ hne => exact hne

theorem Trimmed.append_blank (h : Trimmed line s) (hmore : Blank more) :
    Trimmed (line ++ more) s := by
  cases h with
  | mk hbefore hbehind hhead hlast hne =>
    rw [List.append_assoc, List.append_assoc]
    exact .mk hbefore (blank_append_iff.mpr ⟨hbehind, hmore⟩) hhead hlast hne

theorem blank_of_dropWhile_eq_nil (h : line.dropWhile isSpace = []) : Blank line := by
  obtain ⟨run, hline, hrun, -⟩ := exists_run isSpace line
  rw [hline, h, List.append_nil]
  exact hrun

/-- Taking white space off a line that is not blank leaves something. -/
theorem trimmed_trim (h : ¬Blank line) : Trimmed line (trim line) := by
  have hstart : line.dropWhile isSpace ≠ [] := mt blank_of_dropWhile_eq_nil h
  rw [trim, trimStart]
  obtain ⟨before, hline, hbefore, hhead⟩ := exists_run isSpace line
  generalize line.dropWhile isSpace = kept at hstart hline hhead ⊢
  obtain ⟨behind, hkept, hbehind, hlast⟩ := exists_run isSpace kept.reverse
  -- The first character that is kept is no white space, so the end stops at it.
  have hend : trimEnd kept ≠ [] := by
    rw [trimEnd, Ne, List.reverse_eq_nil_iff]
    intro hnil
    obtain ⟨c, tail, rfl⟩ := List.exists_cons_of_ne_nil hstart
    have hspace := blank_of_dropWhile_eq_nil hnil c
      (List.mem_reverse.mpr List.mem_cons_self)
    rw [hhead c rfl] at hspace
    cases hspace
  have hsplit : kept = trimEnd kept ++ behind.reverse := by
    rw [trimEnd, ← List.reverse_append, ← hkept, List.reverse_reverse]
  have hfirst : ∀ c ∈ (trimEnd kept).head?, isSpace c = false := by
    intro c hc
    obtain ⟨d, more, hcons⟩ := List.exists_cons_of_ne_nil hend
    refine hhead c ?_
    rw [hsplit, hcons]
    rwa [hcons] at hc
  have htrimmed : Trimmed (before ++ (trimEnd kept ++ behind.reverse)) (trimEnd kept) := by
    refine .mk hbefore (fun c hc => hbehind c (List.mem_reverse.mp hc)) hfirst ?_ hend
    rw [trimEnd, List.getLast?_reverse]
    exact hlast
  rwa [← hsplit, ← hline] at htrimmed

theorem trim_of_blank (h : Blank line) : trim line = [] := by
  have hall : (line ++ []).dropWhile isSpace = [] := dropWhile_append_eq h nofun
  rw [List.append_nil] at hall
  rw [trim, trimStart, hall]
  rfl

/-- A CR at the end of a line is white space. -/
theorem trim_finished (line : List Char) : trim (finished line.reverse) = trim line := by
  obtain ⟨more, hline, hmore⟩ := exists_append_finished line
  have hblank : Blank more := by
    rcases hmore with rfl | rfl
    · decide
    · decide
  by_cases h : Blank (finished line.reverse)
  · have hall : Blank line := by
      rw [hline]
      exact blank_append_iff.mpr ⟨h, hblank⟩
    rw [trim_of_blank h, trim_of_blank hall]
  · have htrimmed := (trimmed_trim h).append_blank hblank
    rw [← hline] at htrimmed
    rw [htrimmed.trim_eq]

end Text

open Text

namespace ParseOutcome

/-! ## Messages -/

theorem kept_line (line : List Char) :
    [trim line].filter (!·.isEmpty) = ([line].filter (¬Blank ·)).map trim := by
  by_cases h : Blank line
  · simp [h, trim_of_blank h]
  · simp [h, (trimmed_trim h).ne_nil]

/-- A text is made of lines, and the messages are those that are not blank, without
the white space around.  Only blank lines make a blank text. -/
theorem exists_lines (text : List Char) :
    ∃ lines, lines ≠ [] ∧ text = List.intercalate ['\n'] lines ∧ (∀ line ∈ lines, '\n' ∉ line) ∧
      messages text = (lines.filter (¬Blank ·)).map trim ∧
      (Blank text ↔ ∀ line ∈ lines, Blank line) := by
  by_cases hmem : '\n' ∈ text
  · obtain ⟨line, rest, htext, hline⟩ := List.eq_append_cons_of_mem hmem
    have hshorter : rest.length < text.length := by
      rw [htext, List.length_append, List.length_cons]
      omega
    obtain ⟨lines, hne, hrest, hlines, hmessages, hblank⟩ := exists_lines rest
    refine ⟨line :: lines, List.cons_ne_nil _ _, ?_, ?_, ?_, ?_⟩
    · obtain ⟨next, more, rfl⟩ := List.exists_cons_of_ne_nil hne
      rw [List.intercalate_cons_cons, ← hrest, htext, List.append_assoc, List.singleton_append]
    · exact List.forall_mem_cons.mpr ⟨hline, hlines⟩
    · have hfirst := kept_line line
      rw [messages] at hmessages ⊢
      rw [htext, lines_append_cons hline, List.map_cons, trim_finished,
        ← List.singleton_append, List.filter_append, hmessages, hfirst,
        ← @List.singleton_append _ line lines, List.filter_append, List.map_append]
    · have hlineEnd : isSpace '\n' = true := by decide
      rw [List.forall_mem_cons, ← hblank, htext, blank_append_iff]
      exact and_congr_right fun _ =>
        ⟨fun h c hc => h c (List.mem_cons_of_mem _ hc),
          fun h => List.forall_mem_cons.mpr ⟨hlineEnd, h⟩⟩
  · refine ⟨[text], List.cons_ne_nil _ _, List.intercalate_singleton.symm, ?_, ?_, ?_⟩
    · exact List.forall_mem_singleton.mpr hmem
    · by_cases hne : text = []
      · rw [hne]
        decide
      · rw [messages, lines_of_notMem hmem hne]
        exact kept_line text
    · exact List.forall_mem_singleton.symm
termination_by text.length
decreasing_by exact hshorter

theorem messages_eq_nil_iff (text : List Char) : messages text = [] ↔ Blank text := by
  obtain ⟨lines, -, -, -, hmessages, hblank⟩ := exists_lines text
  rw [hmessages, hblank, List.map_eq_nil_iff, List.filter_eq_nil_iff]
  simp

/-- The messages are told in the order of their lines. -/
theorem exists_lines_of_messages (text : List Char) :
    ∃ lines, text = List.intercalate ['\n'] lines ∧ (∀ line ∈ lines, '\n' ∉ line) ∧
      List.Forall₂ Trimmed (lines.filter (¬Blank ·)) (messages text) := by
  obtain ⟨lines, -, htext, hlines, hmessages, -⟩ := exists_lines text
  refine ⟨lines, htext, hlines, ?_⟩
  rw [hmessages, List.forall₂_map_right_iff, List.forall₂_same]
  intro line hline
  exact trimmed_trim (by simpa using (List.mem_filter.mp hline).2)

/-! ## Severities -/

theorem ruleId_diagnostic (outcome : ParseOutcome) :
    outcome.diagnostic.ruleId = some .parserCheck := by
  cases outcome <;> rfl

/-- The parser has errors to tell if it exits with 1 and there are messages. -/
theorem ofExit_of_messages {text : List Char} (h : ¬Blank text) :
    ofExit 1 text = invalid (String.ofList (List.intercalate "; ".toList (messages text))) := by
  rw [ofExit, if_neg (by decide), if_pos ⟨rfl, mt (messages_eq_nil_iff text).mp h⟩]

/-- What the parser says with a code and a text. -/
theorem ofExit_cases (code : Int) (text : List Char) :
    (code = 0 ∧ ofExit code text = valid) ∨
      ((code = 1 ∧ ¬Blank text) ∧ ∃ messages, ofExit code text = invalid messages) ∨
      (code ≠ 0 ∧ ¬(code = 1 ∧ ¬Blank text)) ∧
        ∃ reason, ofExit code text = failed reason := by
  by_cases hcode : code = 0
  · exact .inl ⟨hcode, if_pos hcode⟩
  by_cases herror : code = 1 ∧ ¬Blank text
  · obtain ⟨rfl, hblank⟩ := herror
    exact .inr (.inl ⟨⟨rfl, hblank⟩, _, ofExit_of_messages hblank⟩)
  · refine .inr (.inr ⟨⟨hcode, herror⟩, ?_⟩)
    rw [← messages_eq_nil_iff] at herror
    rw [ofExit, if_neg hcode, if_neg herror]
    exact ⟨_, rfl⟩

/-- A text tells errors exactly if it is not blank and the code is 1. -/
theorem severity_ofExit_iff (code : Int) (text : List Char) :
    ((ofExit code text).diagnostic.severity = .info ↔ code = 0) ∧
      ((ofExit code text).diagnostic.severity = .error ↔ code = 1 ∧ ¬Blank text) := by
  rcases ofExit_cases code text with
    ⟨rfl, hexit⟩ | ⟨herror, messages, hexit⟩ | ⟨⟨hcode, hnone⟩, reason, hexit⟩
  · rw [hexit]
    exact ⟨iff_of_true rfl rfl, iff_of_false Severity.noConfusion fun h => nomatch h.1⟩
  · have hcode : code ≠ 0 := by
      rw [herror.1]
      decide
    rw [hexit]
    exact ⟨iff_of_false Severity.noConfusion hcode, iff_of_true rfl herror⟩
  · rw [hexit]
    exact ⟨iff_of_false Severity.noConfusion hcode,
      iff_of_false Severity.noConfusion hnone⟩

/-- The parser finds nothing to complain of exactly if it exits with 0. -/
theorem severity_ofRun_eq_info_iff (settings : ParserSettings) (run : ChildRun) :
    (ofRun settings run).diagnostic.severity = .info ↔
      ∃ stderr, run = .exited 0 stderr := by
  cases run with
  | exited code stderr =>
    rw [ofRun, (severity_ofExit_iff code _).1]
    constructor
    · rintro rfl
      exact ⟨stderr, rfl⟩
    · rintro ⟨_, ⟨⟩⟩
      rfl
  | _ => exact iff_of_false Severity.noConfusion (by rintro ⟨_, ⟨⟩⟩)

end ParseOutcome

/-! ## Errors that are told -/

/-- The parser exits with 1, and a reader who replaces what is ill-formed finds more
than white space on its error stream. -/
def ChildRun.TellsErrors (run : ChildRun) : Prop :=
  ∃ stderr text, run = .exited 1 stderr ∧ Utf8.ReadsReplacing stderr text ∧ ¬Blank text

/-- The parser exits with 1, and its error stream is UTF-8 with more than white space. -/
def ChildRun.TellsText (run : ChildRun) : Prop :=
  ∃ stderr text, run = .exited 1 stderr ∧ Utf8.decode stderr = some text ∧ ¬Blank text

/-- On an error stream that is not UTF-8 there is always something to find. -/
theorem ChildRun.tellsErrors_iff {stderr : List UInt8} :
    (exited 1 stderr).TellsErrors ↔ ∀ text, Utf8.decode stderr = some text → ¬Blank text := by
  constructor
  · rintro ⟨_, text, ⟨⟩, hreads, hblank⟩ text' htext'
    rcases hreads.decode_cases with hdecode | ⟨hdecode, -⟩
    · rw [htext', Option.some_inj] at hdecode
      rwa [hdecode]
    · rw [htext'] at hdecode
      cases hdecode
  · intro h
    obtain ⟨text, hreads⟩ := Utf8.exists_readsReplacing stderr
    refine ⟨stderr, text, rfl, hreads, ?_⟩
    rcases hreads.decode_cases with hdecode | ⟨-, hmem⟩
    · exact h text hdecode
    · intro hblank
      have hspace := hblank Utf8.replacement hmem
      revert hspace
      decide

namespace ParseOutcome

/-- Errors are recorded for an error stream that is a text and not blank. -/
theorem severity_ofRun_eq_error_iff (settings : ParserSettings) (run : ChildRun) :
    (ofRun settings run).diagnostic.severity = .error ↔ run.TellsText := by
  cases run with
  | exited code stderr =>
    rw [ofRun, (severity_ofExit_iff code _).2]
    constructor
    · rintro ⟨rfl, hblank⟩
      cases hdecode : Utf8.decode stderr with
      | none =>
        rw [hdecode] at hblank
        exact absurd (List.forall_mem_nil _) hblank
      | some text =>
        rw [hdecode] at hblank
        exact ⟨stderr, text, rfl, hdecode, hblank⟩
    · rintro ⟨_, text, ⟨⟩, hdecode, hblank⟩
      rw [hdecode]
      exact ⟨rfl, hblank⟩
  | _ => exact iff_of_false Severity.noConfusion (by rintro ⟨_, _, ⟨⟩, _⟩)

variable (settings : ParserSettings) (run : ChildRun)

/-- Errors that are told are recorded as such, unless they are not UTF-8. -/
theorem severity_ofRun_eq_error_iff_tellsErrors :
    ((ofRun settings run).diagnostic.severity = .error ↔ run.TellsErrors) ↔
      ∀ stderr, run = .exited 1 stderr → Utf8.decode stderr ≠ none := by
  rw [severity_ofRun_eq_error_iff]
  constructor
  · rintro h stderr rfl hdecode
    have htells : (ChildRun.exited 1 stderr).TellsErrors := by
      rw [ChildRun.tellsErrors_iff, hdecode]
      rintro text ⟨⟩
    obtain ⟨_, text, ⟨⟩, htext, -⟩ := h.mpr htells
    rw [hdecode] at htext
    cases htext
  · intro h
    constructor
    · rintro ⟨stderr, text, rfl, hdecode, hblank⟩
      rw [ChildRun.tellsErrors_iff, hdecode]
      rintro _ ⟨⟩
      exact hblank
    · rintro ⟨stderr, text, rfl, hreads, hblank⟩
      rcases hreads.decode_cases with hdecode | ⟨hdecode, -⟩
      · exact ⟨stderr, text, rfl, hdecode, hblank⟩
      · exact absurd hdecode (h stderr rfl)

/-- The message holds the lines that are not blank, trimmed and in their order. -/
theorem message_of_text {stderr : List UInt8} {text : List Char}
    (hdecode : Utf8.decode stderr = some text) (hblank : ¬Blank text) :
    ∃ lines messages, text = List.intercalate ['\n'] lines ∧ (∀ line ∈ lines, '\n' ∉ line) ∧
      List.Forall₂ Trimmed (lines.filter (¬Blank ·)) messages ∧
      (ofRun settings (.exited 1 stderr)).diagnostic.message =
        "Syntax error: " ++ String.ofList (List.intercalate "; ".toList messages) := by
  obtain ⟨lines, htext, hlines, hmessages⟩ := exists_lines_of_messages text
  refine ⟨lines, messages text, htext, hlines, hmessages, ?_⟩
  rw [ofRun, hdecode, Option.getD_some, ofExit_of_messages hblank]
  rfl

/-- One diagnostic of the parser's rule is recorded of every run.  It is an info
exactly for exit code 0, a warning where it is neither info nor error, and an error
where errors are told, except if the error stream is not UTF-8. -/
theorem recorded_ofRun (ds : Diagnostics) :
    ∃ d, (ofRun settings run).diagnostic = d ∧ d.ruleId = some .parserCheck ∧
      (∀ severity, (ds.push d).bucket severity =
        ds.bucket severity ++ if d.severity = severity then [d] else []) ∧
      (d.severity = .info ↔ ∃ stderr, run = .exited 0 stderr) ∧
      (d.severity = .error ↔ run.TellsText) ∧
      (d.severity = .warning ↔ ¬(∃ stderr, run = .exited 0 stderr) ∧ ¬run.TellsText) ∧
      ((d.severity = .error ↔ run.TellsErrors) ↔
        ∀ stderr, run = .exited 1 stderr → Utf8.decode stderr ≠ none) ∧
      ∀ stderr text, run = .exited 1 stderr → Utf8.decode stderr = some text →
        ¬Blank text → ∃ lines messages, text = List.intercalate ['\n'] lines ∧
          (∀ line ∈ lines, '\n' ∉ line) ∧
          List.Forall₂ Trimmed (lines.filter (¬Blank ·)) messages ∧
          d.message =
            "Syntax error: " ++ String.ofList (List.intercalate "; ".toList messages) := by
  refine ⟨_, rfl, ruleId_diagnostic _, ?_, severity_ofRun_eq_info_iff settings run,
    severity_ofRun_eq_error_iff settings run, ?_,
    severity_ofRun_eq_error_iff_tellsErrors settings run, ?_⟩
  · intro severity
    rw [Diagnostics.bucket_push]
    split_ifs
    · rfl
    · rw [List.append_nil]
  · rw [← severity_ofRun_eq_info_iff settings, ← severity_ofRun_eq_error_iff settings]
    cases (ofRun settings run).diagnostic.severity <;> decide
  · rintro stderr text rfl hdecode hblank
    exact message_of_text settings hdecode hblank

/-- An error with a byte that is not UTF-8 in it is told, and is only a warning. -/
theorem not_error_of_illFormed :
    ¬∀ (settings : ParserSettings) (run : ChildRun),
      (ofRun settings run).diagnostic.severity = .error ↔ run.TellsErrors := by
  intro h
  have hwarning : (ofRun .default (.exited 1 [0x61, 0xFF, 0x62])).diagnostic.severity =
      .warning := by
    decide +kernel
  have hnone : Utf8.decode [0x61, 0xFF, 0x62] = none := by decide +kernel
  have htells : (ChildRun.exited 1 [0x61, 0xFF, 0x62]).TellsErrors := by
    rw [ChildRun.tellsErrors_iff, hnone]
    rintro text ⟨⟩
  have herror := (h .default _).mpr htells
  rw [hwarning] at herror
  cases herror

end ParseOutcome

end Preflight
