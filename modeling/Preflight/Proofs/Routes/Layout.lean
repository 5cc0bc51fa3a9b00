import Preflight.Proofs.Lines
import Preflight.Proofs.Routes.Handlers

/-!
# Calls over several lines

Inside of its brackets, a call may go on over several lines.  `Plain` says of a text that
none of its lines starts like a decorator or a function; it is built up from the white space
and the tokens of the call.

`RouteCall.lines_text`: the first line of a call starts a route decorator, and the others
start plainly.
-/

namespace Preflight

open Text Checks

/-! ## Lines that start plainly -/

/-- Nothing but white space, or a line that starts neither a decorator nor a function. -/
def StartsPlain (line : List Char) : Prop :=
  ∀ c ∈ (trimStart line).head?, c ∉ ['@', 'a', 'd']

namespace StartsPlain

variable {line more : List Char}

theorem not_startsDecorator (h : StartsPlain line) : startsDecorator line = false := by
  rw [Checks.startsDecorator, beq_eq_false_iff_ne]
  intro hhead
  exact h '@' hhead (by decide)

theorem not_startsRoute (h : StartsPlain line) : ¬StartsRoute line := by
  intro hroute
  have hdecorator := hroute.startsDecorator
  rw [h.not_startsDecorator] at hdecorator
  cases hdecorator

theorem not_defines (h : StartsPlain line) (name : List Char) : ¬Defines line name := by
  intro hdef
  rcases hdef.head?_trimStart with hhead | hhead
  · exact h 'a' hhead (by decide)
  · exact h 'd' hhead (by decide)

/-- The start of a plain line is plain. -/
theorem of_append (h : StartsPlain (line ++ more)) : StartsPlain line := by
  intro c hc
  refine h c ?_
  unfold trimStart at hc ⊢
  rw [List.dropWhile_append]
  cases hdrop : line.dropWhile isSpace with
  | nil =>
    rw [hdrop] at hc
    cases hc
  | cons d rest =>
    rw [hdrop] at hc
    exact hc

theorem append_gap {gap : List Char} (hgap : Blank gap) (h : StartsPlain more) :
    StartsPlain (gap ++ more) := by
  unfold StartsPlain trimStart at h ⊢
  rwa [List.dropWhile_append_of_pos hgap]

theorem cons {c : Char} (hspace : isSpace c = false) (hc : c ∉ ['@', 'a', 'd'])
    (more : List Char) : StartsPlain (c :: more) := by
  unfold StartsPlain trimStart
  rw [List.dropWhile_cons_of_neg (Bool.eq_false_iff.mp hspace)]
  rintro _ ⟨⟩
  exact hc

end StartsPlain

/-- All lines of the text start plainly, the first one and those behind a line end. -/
structure Plain (text : List Char) : Prop where
  starts : StartsPlain text
  later : ∀ before after, text = before ++ '\n' :: after → StartsPlain after

namespace Plain

variable {text : List Char}

theorem nil : Plain [] where
  starts := nofun
  later _ _ h := absurd h.symm (List.append_ne_nil_of_right_ne_nil _ (List.cons_ne_nil _ _))

/-- White space in front, with or without line ends. -/
theorem append_gap (h : Plain text) (gap : Gap) : Plain (gap.text ++ text) where
  starts := h.starts.append_gap gap.blank
  later before after hsplit := by
    rcases List.append_eq_append_iff.mp hsplit
      with ⟨more, rfl, hmore⟩ | ⟨more, hgap, hmore⟩
    · exact h.later more after hmore
    · cases more with
      | nil => exact h.later [] after hmore.symm
      | cons d more =>
        obtain ⟨rfl, rfl⟩ := List.cons.inj hmore
        refine h.starts.append_gap fun c hc => gap.blank c ?_
        rw [hgap]
        exact List.mem_append_right _ (List.mem_cons_of_mem _ hc)

/-- Something on one line in front. -/
theorem append_token (h : Plain text) {c : Char} {rest : List Char}
    (hspace : isSpace c = false) (hc : c ∉ ['@', 'a', 'd']) (hrest : '\n' ∉ c :: rest) :
    Plain (c :: rest ++ text) where
  starts := .cons hspace hc _
  later before after hsplit := by
    obtain ⟨more, -, hmore⟩ := exists_append_of_notMem hrest hsplit
    exact h.later more after hmore

/-- A single character in front. -/
theorem cons (h : Plain text) {c : Char} (hspace : isSpace c = false)
    (hc : c ∉ ['@', 'a', 'd']) : Plain (c :: text) := by
  have hline : '\n' ∉ [c] := by
    intro hmem
    obtain rfl := List.mem_singleton.mp hmem
    exact absurd hspace (by decide)
  exact h.append_token hspace hc hline

theorem of_append {before after : List Char} (h : Plain (before ++ '\n' :: after)) :
    Plain after where
  starts := h.later before after rfl
  later between rest hsplit := h.later (before ++ '\n' :: between) rest <| by
    rw [hsplit, List.append_assoc, List.cons_append]

/-- So start the lines of the text. -/
theorem lines : ∀ {text : List Char}, Plain text → ∀ l ∈ Text.lines text, StartsPlain l
  | text, h => by
    intro l hl
    by_cases hmem : '\n' ∈ text
    · obtain ⟨line, rest, rfl, hline⟩ := List.eq_append_cons_of_mem hmem
      rw [lines_append_cons hline] at hl
      rcases List.mem_cons.mp hl with rfl | hl
      · obtain ⟨more, hmore, -⟩ := exists_append_finished line
        have hstarts := h.starts
        rw [hmore, List.append_assoc] at hstarts
        exact hstarts.of_append
      · have hshorter : rest.length < (line ++ '\n' :: rest).length := by
          rw [List.length_append, List.length_cons]
          omega
        exact h.of_append.lines l hl
    · cases text with
      | nil => cases hl
      | cons c text =>
        rw [lines_of_notMem hmem (List.cons_ne_nil _ _)] at hl
        rw [List.mem_singleton.mp hl]
        exact h.starts
termination_by text => text.length

end Plain

theorem Text.Literal.plain_append {text : List Char} (l : Literal)
    (hline : '\n' ∉ l.inside) (h : Plain text) : Plain (l.text ++ text) := by
  have hquote {c : Char} (hc : IsQuote c) : c ∉ ['@', 'a', 'd'] ∧ '\n' ≠ c := by
    rcases hc with rfl | rfl <;> decide
  refine h.append_token (not_isSpace_of_isQuote l.isQuote) (hquote l.isQuote).1 ?_
  simp [hline, (hquote l.isQuote).2]

theorem MethodEntry.plain_append {text : List Char} (e : MethodEntry)
    (hline : '\n' ∉ e.name.inside) (h : Plain text) : Plain (e.text ++ text) := by
  rw [MethodEntry.text, List.append_assoc, List.append_assoc]
  exact (e.name.plain_append hline (h.append_gap e.behind)).append_gap e.before

theorem plain_append_entries {text : List Char} (h : Plain text) :
    ∀ {entries : List MethodEntry}, (∀ e ∈ entries, '\n' ∉ e.name.inside) →
      Plain (List.intercalate [','] (entries.map MethodEntry.text) ++ text)
  | [], _ => h
  | [e], hlines => by
    rw [List.map_singleton, List.intercalate_singleton]
    exact e.plain_append (hlines e List.mem_cons_self) h
  | e :: next :: more, hlines => by
    obtain ⟨he, hmore⟩ := List.forall_mem_cons.mp hlines
    rw [List.map_cons, List.map_cons, List.intercalate_cons_cons, List.append_assoc,
      List.append_assoc]
    exact e.plain_append he
      ((plain_append_entries h hmore).cons (by decide) (by decide))

/-- No line ends inside of the quotes of the list. -/
def MethodList.OnLines (l : MethodList) : Prop := ∀ e ∈ l.entries, '\n' ∉ e.name.inside

theorem MethodList.plain_append {text : List Char} (l : MethodList) (hlines : l.OnLines)
    (h : Plain text) : Plain (l.text ++ text) := by
  have hinside : Plain (l.inside ++ ']' :: text) :=
    plain_append_entries (h.cons (by decide) (by decide)) hlines
  have hequals := ((hinside.cons (c := '[') (by decide) (by decide)).append_gap
    l.behindEquals).cons (c := '=') (by decide) (by decide)
  have hname : Plain ("methods".toList ++ (l.beforeEquals.text ++ _)) :=
    (hequals.append_gap l.beforeEquals).append_token (by decide) (by decide) (by decide)
  have hcomma := ((hname.append_gap l.behindComma).cons (c := ',') (by decide)
    (by decide)).append_gap l.beforeComma
  rw [MethodList.text]
  simpa only [List.append_assoc, List.cons_append, List.nil_append] using hcomma

namespace RouteCall

/-- What stands behind the bracket that opens the call. -/
def arguments (call : RouteCall) : List Char :=
  call.opening.text ++ (call.path.text ++ (call.methodText ++ (call.closing.text ++ [')'])))

/-- No line ends inside of the quotes of the call. -/
structure OnLines (call : RouteCall) : Prop where
  path : '\n' ∉ call.path.inside
  methods : ∀ list ∈ call.methods, list.OnLines

theorem plain_arguments {call : RouteCall} (h : call.OnLines) : Plain call.arguments := by
  have hclosing : Plain (call.closing.text ++ [')']) :=
    (Plain.nil.cons (by decide) (by decide)).append_gap call.closing
  have hmethods : Plain (call.methodText ++ (call.closing.text ++ [')'])) := by
    cases hlist : call.methods with
    | none => rwa [methodText_of_none hlist]
    | some list =>
      rw [methodText_of_some hlist, list.tail_text]
      exact list.plain_append (h.methods list hlist) hclosing
  exact (call.path.plain_append h.path hmethods).append_gap call.opening

/-- The call up to the bracket that opens it. -/
def stem (call : RouteCall) : List Char :=
  '@' :: (call.object ++ '.' :: (call.verb.toList ++ ['(']))

theorem text_eq_stem (call : RouteCall) : call.text = call.stem ++ call.arguments := by
  simp [text, stem, arguments, methodText]

theorem getLast?_text (call : RouteCall) : call.text.getLast? = some ')' := by
  have htext : call.text = call.stem ++ call.opening.text ++ call.path.text ++
      call.methodText ++ call.closing.text ++ [')'] := by
    simp [text_eq_stem, arguments]
  rw [htext, List.getLast?_concat]

/-- There is no white space up to the bracket. -/
theorem not_isSpace_of_mem_stem (call : RouteCall) : ∀ c ∈ call.stem, isSpace c = false := by
  have hverbs : ∀ verb ∈ routeNames, verb.toList.any isSpace = false := by decide
  intro c hc
  rw [stem, List.mem_cons, List.mem_append, List.mem_cons, List.mem_append,
    List.mem_singleton] at hc
  rcases hc with rfl | hc | rfl | hc | rfl
  · decide
  · exact not_isSpace_of_isWord (call.isWord_object c hc)
  · decide
  · exact Bool.not_eq_true _ ▸ List.any_eq_false.mp (hverbs call.verb call.verb_mem) c hc
  · decide

theorem startsRoute_stem (call : RouteCall) (rest : List Char) :
    StartsRoute (call.stem ++ rest) := by
  have hstarts : StartsRoute ([] ++ '@' :: (call.object ++ '.' :: (call.verb.toList ++
      '(' :: rest))) :=
    .mk ⟨[], nofun⟩ call.object_ne_nil call.isWord_object (List.mem_map_of_mem call.verb_mem)
  simpa [stem] using hstarts

theorem indent_stem (call : RouteCall) (rest : List Char) :
    indent (call.stem ++ rest) = 0 := by
  rw [indent, stem, List.cons_append, List.takeWhile_cons_of_neg (by decide)]
  rfl

/-- The first line of a call starts a route decorator, the others start plainly. -/
theorem lines_text {call : RouteCall} (h : call.OnLines) :
    ∃ first more, lines call.text = first :: more ∧ StartsRoute first ∧ indent first = 0 ∧
      (∀ l ∈ more, StartsPlain l) ∧ (more = [] ↔ '\n' ∉ call.text) := by
  have hstem {c : Char} (hc : isSpace c = true) : c ∉ call.stem := by
    intro hmem
    rw [call.not_isSpace_of_mem_stem c hmem] at hc
    cases hc
  by_cases hmem : '\n' ∈ call.text
  · obtain ⟨line, rest, hsplit, hline⟩ := List.eq_append_cons_of_mem hmem
    have hbehind := hsplit
    rw [text_eq_stem] at hbehind
    obtain ⟨more, rfl, harguments⟩ := exists_append_of_notMem (hstem (by decide)) hbehind
    have hplain : Plain rest := by
      have hplain := plain_arguments h
      rw [harguments] at hplain
      exact hplain.of_append
    have hrest : rest ≠ [] := by
      rintro rfl
      have hlast := call.getLast?_text
      rw [hsplit, List.getLast?_concat] at hlast
      exact absurd (Option.some.inj hlast) (by decide)
    -- The stem stands on the first line as a whole.
    have hfirst : ∃ tail, finished (call.stem ++ more).reverse = call.stem ++ tail := by
      obtain ⟨tail, htail, hcr⟩ := exists_append_finished (call.stem ++ more)
      rcases hcr with rfl | rfl
      · exact ⟨more, by rw [← htail.trans (List.append_nil _)]⟩
      · obtain ⟨tail, hfirst, -⟩ := exists_append_of_notMem (hstem (by decide)) htail
        exact ⟨tail, hfirst⟩
    obtain ⟨tail, htail⟩ := hfirst
    refine ⟨_, _, by rw [hsplit, lines_append_cons hline, htail], call.startsRoute_stem tail,
      call.indent_stem tail, hplain.lines, ?_⟩
    exact iff_of_false (lines_ne_nil hrest) (not_not_intro hmem)
  · refine ⟨call.text, [], lines_of_notMem hmem (List.cons_ne_nil _ _), ?_, ?_, nofun,
      iff_of_true rfl hmem⟩
    · rw [text_eq_stem]
      exact call.startsRoute_stem _
    · rw [text_eq_stem]
      exact call.indent_stem _

end RouteCall

end Preflight
