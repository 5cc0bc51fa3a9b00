import Preflight.Proofs.Catalog
import Preflight.Proofs.Routes.Layout

/-!
# Routes and handlers of an application

Routes are looked for in the whole text and handlers line by line.  A `Declaration` is a
function behind the call of a route decorator, with white space wherever the call may have
some.

* `handlersFrom_append`: in front of an unindented route decorator, lines are read on their
  own.
* `unfinished_of_finds`: a match goes on to the next declaration only from a decorator that
  is left unfinished.
* `Declaration.readings_of_application`: what is read of declarations that stand one below
  the other.  A call that goes on over a line end hides its function, but not its route
  (`no_handler_of_overTwoLines`).
-/

namespace Preflight

open Text Checks

/-! ## Lines that are read one behind the other -/

namespace Checks

variable {first second : List Char} {lines more : List (List Char)}

theorem handlersFrom_skip_all (h : ∀ l ∈ lines, ¬StartsRoute l) :
    handlersFrom (lines ++ more) = handlersFrom more := by
  induction lines with
  | nil => rfl
  | cons line lines ih =>
    obtain ⟨hline, hlines⟩ := List.forall_mem_cons.mp h
    rw [List.cons_append, handlersFrom_skip hline, ih hlines]

/-- What a route decorator belongs to stands behind the decorators below it. -/
theorem handlersFrom_congr (hfirst : StartsRoute first) (hsecond : StartsRoute second)
    (h : lines.dropWhile startsDecorator = more.dropWhile startsDecorator) :
    handlersFrom (first :: lines) = handlersFrom (second :: more) := by
  obtain ⟨run, hlines, hrun, hstop⟩ := exists_run startsDecorator lines
  obtain ⟨run', hmore, hrun', -⟩ := exists_run startsDecorator more
  rw [← h] at hmore
  rw [hlines, hmore]
  cases hbelow : lines.dropWhile startsDecorator with
  | nil =>
    rw [List.append_nil, List.append_nil, handlersFrom_alone hfirst hrun,
      handlersFrom_alone hsecond hrun']
  | cons next below =>
    have hnext := hstop next (by rw [hbelow]; rfl)
    rw [handlersFrom_route hfirst hrun hnext, handlersFrom_route hsecond hrun' hnext]

/-- An unindented route decorator comes first, or there are no lines. -/
def Fresh (lines : List (List Char)) : Prop :=
  ∀ l ∈ lines.head?, StartsRoute l ∧ indent l = 0

theorem Fresh.not_isInside (h : Fresh lines) (depth : Nat) :
    ∀ l ∈ lines.head?, isInside depth l = false := by
  intro l hl
  obtain ⟨⟨pad, -, -, -⟩, hindent⟩ := h l hl
  rw [← Bool.not_eq_true, isInside_line_iff, hindent]
  rintro (hblank | hlt)
  · have hmark := hblank '@' (List.mem_append_right _ List.mem_cons_self)
    exact absurd hmark (by decide)
  · exact Nat.not_lt_zero depth hlt

/-- In front of an unindented route decorator, lines are read on their own. -/
theorem handlersFrom_append (lines : List (List Char)) (h : Fresh more) :
    handlersFrom (lines ++ more) = handlersFrom lines ++ handlersFrom more := by
  have hreading := reading_handlersFrom lines
  generalize handlersFrom lines = handlers at hreading
  induction hreading with
  | done => rfl
  | skip hline _ ih => rw [List.cons_append, handlersFrom_skip hline, ih]
  | @alone route run hroute hrun =>
    cases more with
    | nil =>
      rw [List.append_nil, handlersFrom_alone hroute hrun, handlersFrom]
      rfl
    | cons next more =>
      obtain ⟨hnext, -⟩ := h next rfl
      have hdrop : (run ++ next :: more).dropWhile startsDecorator =
          more.dropWhile startsDecorator := by
        rw [List.dropWhile_append_of_pos hrun,
          List.dropWhile_cons_of_pos hnext.startsDecorator]
      exact handlersFrom_congr hroute hnext hdrop
  | @other route next run below handlers hroute hrun hnext hdef _ ih =>
    rw [List.cons_append, List.append_assoc, List.cons_append,
      handlersFrom_other hroute hrun hnext hdef]
    exact ih
  | @handler route definition name run body below handlers hroute hrun hdef hbody hbelow _
      ih =>
    have hstop : ∀ l ∈ (below ++ more).head?, isInside (indent definition) l = false := by
      cases below with
      | nil => exact h.not_isInside _
      | cons l below => exact hbelow
    rw [List.cons_append, List.append_assoc, List.cons_append, List.append_assoc,
      handlersFrom_handler hroute hrun hdef hbody hstop, ih, List.cons_append]

end Checks

/-! ## Decorators that are not closed -/

/-- The start of a route decorator whose path or whose list of methods is not closed. -/
inductive Unfinished : List Char → Prop where
  | path {object verb inside : List Char} {quote : Char} (gap : Gap)
      (hne : object ≠ []) (hobject : ∀ c ∈ object, isWord c = true)
      (hverb : verb ∈ routeNames.map String.toList) (hquote : IsQuote quote)
      (hinside : ∀ c ∈ inside, ¬IsQuote c) :
      Unfinished
        ('@' :: (object ++ '.' :: (verb ++ '(' :: (gap.text ++ quote :: inside))))
  | methods {inside : List Char} (lead : RouteLead)
      (beforeComma behindComma beforeEquals behindEquals : Gap) (hinside : ']' ∉ inside) :
      Unfinished
        (lead.text ++ (beforeComma.text ++ ',' :: (behindComma.text ++ ("methods".toList ++
          (beforeEquals.text ++ '=' :: (behindEquals.text ++ '[' :: inside))))))

/-- No route decorator is left unfinished at the end of the text. -/
def Closed (text : List Char) : Prop :=
  ∀ front rest, text = front ++ rest → ¬Unfinished rest

/-- A text without the mark leaves no decorator unfinished. -/
theorem closed_of_notMem {text : List Char} (h : '@' ∉ text) : Closed text := by
  rintro front rest rfl hunfinished
  refine h (List.mem_append_right _ ?_)
  cases hunfinished with
  | path => exact List.mem_cons_self
  | methods => exact List.mem_cons_self

/-- The only mark in front of a path is the first character. -/
theorem RouteLead.beforePath_eq (l : RouteLead) :
    ∃ tail, l.beforePath = '@' :: tail ∧ '@' ∉ tail := by
  have hgap : '@' ∉ l.gap.text := l.gap.notMem (by decide)
  have hobject : '@' ∉ l.object := fun h => absurd (l.isWord_object '@' h) (by decide)
  have hverbs : ∀ verb ∈ routeNames.map String.toList, '@' ∉ verb := by decide
  have hquote : '@' ≠ l.opening := by
    rintro h
    exact absurd (h ▸ l.isQuote_opening) (by decide)
  refine ⟨_, by rw [beforePath, beforeVerb]; rfl, ?_⟩
  simp [hobject, hverbs l.verb l.verb_mem, hgap, hquote]

theorem MethodTail.mark_notMem (t : MethodTail) : '@' ∉ t.beforeInside := by
  have hgap (gap : Gap) : '@' ∉ gap.text := gap.notMem (by decide)
  simp [beforeInside, hgap]

/-- Behind a mark that stands in a list of methods, the list is not closed. -/
theorem MethodTail.exists_inside {t : MethodTail} {before after : List Char}
    (h : t.text = before ++ '@' :: after) :
    ∃ inside, before = t.beforeInside ++ inside ∧ ']' ∉ inside := by
  obtain ⟨inside, rfl, hinside⟩ := exists_append_of_notMem t.mark_notMem h
  refine ⟨inside, rfl, fun hmem => ?_⟩
  rcases List.append_eq_append_iff.mp hinside with ⟨more, rfl, hmore⟩ | ⟨more, hmore, -⟩
  · -- The mark would have to stand behind the bracket that closes the list.
    have hlength := congrArg List.length hmore
    simp only [List.length_append, List.length_cons, List.length_nil] at hlength
    obtain rfl : more = [] := List.length_eq_zero_iff.mp (by omega)
    exact absurd (List.cons.inj hmore).1 (by decide)
  · refine t.no_bracket ?_
    rw [hmore]
    exact List.mem_append_left _ hmem

/-- Where a decorator holds a mark besides the first one, what stands in front of that mark
is unfinished. -/
theorem Checks.unfinished_of_finds {front before after back : List Char}
    (h : routeDecorator.Finds .sensitive front (before ++ '@' :: after) back)
    (hne : before ≠ []) : Unfinished before := by
  obtain ⟨l, behind, htext, hbehind⟩ : ∃ (l : RouteLead) (behind : List Char),
      before ++ '@' :: after = l.text ++ behind ∧
        (behind = [] ∨ ∃ t : MethodTail, behind = t.text) := by
    obtain ⟨l, htext | ⟨t, htext⟩⟩ := finds_routeDecorator_iff.mp h
    · exact ⟨l, [], htext.trans (List.append_nil _).symm, .inl rfl⟩
    · exact ⟨l, t.text, htext, .inr ⟨t, rfl⟩⟩
  obtain ⟨tail, htail, hmark⟩ := l.beforePath_eq
  cases before with
  | nil => exact absurd rfl hne
  | cons c before =>
    rw [RouteLead.text, htail, List.append_assoc, List.append_assoc, List.cons_append,
      List.cons_append, List.singleton_append] at htext
    obtain ⟨rfl, hrest⟩ := List.cons.inj htext
    obtain ⟨read, rfl, hpath⟩ := exists_append_of_notMem hmark hrest.symm
    rw [← List.cons_append, ← htail]
    rcases List.append_eq_append_iff.mp hpath with ⟨more, rfl, hmore⟩ | ⟨more, hmore, -⟩
    · cases more with
      | nil =>
        exact absurd ((List.cons.inj hmore).1 ▸ l.isQuote_closing) (by decide)
      | cons d more =>
        obtain ⟨rfl, rfl⟩ := List.cons.inj hmore
        rcases hbehind with hnil | ⟨t, ht⟩
        · exact absurd hnil (List.append_ne_nil_of_right_ne_nil _ (List.cons_ne_nil _ _))
        · obtain ⟨inside, rfl, hinside⟩ := MethodTail.exists_inside ht.symm
          have hunfinished := Unfinished.methods l t.beforeComma t.behindComma
            t.beforeEquals t.behindEquals hinside
          simpa [RouteLead.text, MethodTail.beforeInside] using hunfinished
    · have hread : ∀ c ∈ read, ¬IsQuote c := fun c hc =>
        l.plain c (hmore ▸ List.mem_append_left _ hc)
      have hunfinished := Unfinished.path l.gap l.object_ne_nil l.isWord_object l.verb_mem
        l.isQuote_opening hread
      simpa [RouteLead.beforePath, RouteLead.beforeVerb] using hunfinished

/-- In front of a decorator, a search does not leave a text that is closed. -/
theorem Checks.confined_of_closed {front text back : List Char} (h : Closed text)
    (hback : ∀ c ∈ back.head?, c = '@') :
    routeDecorator.Confined .sensitive front text back := by
  intro skipped rest hsplit hne left right hrest hfinds
  rcases List.append_eq_append_iff.mp hrest with ⟨more, rfl, hmore⟩ | ⟨more, hmore, -⟩
  · cases more with
    | nil => exact ⟨[], by rw [List.append_nil, List.append_nil]⟩
    | cons c more =>
      obtain rfl : c = '@' := hback c (by rw [hmore]; rfl)
      exact absurd (unfinished_of_finds hfinds hne) (h skipped rest hsplit)
  · exact ⟨more, hmore⟩

/-! ## Applications -/

/-- A function behind a route decorator: the call, a line end, the line that starts the
function, and lines that are blank or indented. -/
structure Declaration where
  call : RouteCall
  lineEnd : List Char
  function : List Char
  header : List Char
  name : List Char
  body : List (List Char)
  onLines : call.OnLines
  lineEnd_eq : lineEnd = ['\n'] ∨ lineEnd = ['\r', '\n']
  lines_function : lines function = header :: body
  defines : Defines header name
  unindented : indent header = 0
  inside : ∀ l ∈ body, Blank l ∨ 0 < indent l

namespace Declaration

/-- The declaration as it is written. -/
def text (d : Declaration) : List Char := d.call.text ++ (d.lineEnd ++ d.function)

/-- The declarations one below the other. -/
def application (app : List Declaration) : List Char := app.flatMap text

/-- Each declaration but the last one has its last line ended. -/
def Separated : List Declaration → Prop
  | [] => True
  | [_] => True
  | d :: next :: more => d.function.getLast? = some '\n' ∧ Separated (next :: more)

/-- The handler that the declaration stands for. -/
def handler (d : Declaration) : Handler := ⟨d.name, List.intercalate ['\n'] d.body⟩

/-- The handlers that are read off the declaration.  The function is one of them only if the
call stands on one line. -/
def handlers (d : Declaration) : List Handler :=
  if '\n' ∈ d.call.text then handlersFrom d.body else [d.handler]

/-- The lines of the call stand in front. -/
theorem lines_text_append (d : Declaration) (rest : List Char) :
    lines (d.text ++ rest) = lines d.call.text ++ lines (d.function ++ rest) := by
  have hcall : (d.call.text ++ d.lineEnd).getLast? = some '\n' := by
    rcases d.lineEnd_eq with hend | hend
    · rw [hend, List.getLast?_concat]
    · rw [hend, List.getLast?_append]
      rfl
  have hclosed : lines (d.call.text ++ d.lineEnd) = lines d.call.text :=
    lines_append_lineEnd d.call.getLast?_text (by decide) d.lineEnd_eq
  have htext : d.text ++ rest = (d.call.text ++ d.lineEnd) ++ (d.function ++ rest) := by
    simp [text]
  rw [htext, lines_append hcall, hclosed]

/-- Behind them come the lines of the function. -/
theorem lines_function_append (d : Declaration) {rest : List Char}
    (h : rest = [] ∨ d.function.getLast? = some '\n') :
    lines (d.function ++ rest) = d.header :: (d.body ++ lines rest) := by
  rcases h with rfl | h
  · rw [List.append_nil, d.lines_function]
    exact congrArg (d.header :: ·) (List.append_nil _).symm
  · rw [lines_append h, d.lines_function, List.cons_append]

/-- What is read off a declaration in front of others. -/
theorem handlersFrom_lines (d : Declaration) {more : List (List Char)} (h : Fresh more) :
    handlersFrom (lines d.call.text ++ d.header :: (d.body ++ more)) =
      d.handlers ++ handlersFrom more := by
  obtain ⟨first, others, hlines, hfirst, -, hothers, hnil⟩ :=
    RouteCall.lines_text d.onLines
  rw [hlines, handlers, List.cons_append]
  by_cases hmem : '\n' ∈ d.call.text
  · rw [if_pos hmem]
    cases others with
    | nil => exact absurd hmem (hnil.mp rfl)
    | cons next others =>
      obtain ⟨hnext, -⟩ := List.forall_mem_cons.mp hothers
      have hother := @handlersFrom_other first next [] (others ++ d.header :: (d.body ++ more))
        hfirst nofun hnext.not_startsDecorator hnext.not_defines
      have hskip : handlersFrom (next :: others ++ d.header :: (d.body ++ more)) = _ :=
        handlersFrom_skip_all fun l hl => (hothers l hl).not_startsRoute
      rw [List.cons_append]
      refine hother.trans (hskip.trans ?_)
      rw [handlersFrom_skip d.defines.not_startsRoute, handlersFrom_append d.body h]
  · rw [if_neg hmem]
    obtain rfl := hnil.mpr hmem
    have hinside : ∀ l ∈ d.body, isInside (indent d.header) l = true := by
      intro l hl
      rw [isInside_line_iff, d.unindented]
      exact d.inside l hl
    exact @handlersFrom_handler first d.header d.name [] more d.body hfirst nofun d.defines
      hinside (h.not_isInside _)

theorem application_cons (d : Declaration) (more : List Declaration) :
    application (d :: more) = d.text ++ application more :=
  List.flatMap_cons

theorem fresh_application : ∀ app : List Declaration, Fresh (lines (application app))
  | [] => nofun
  | d :: more => by
    obtain ⟨first, others, hlines, hfirst, hindent, -⟩ := RouteCall.lines_text d.onLines
    rw [application_cons, d.lines_text_append, hlines]
    rintro _ ⟨⟩
    exact ⟨hfirst, hindent⟩

/-- The handlers of an application are read off its declarations, one after the other. -/
theorem routeHandlers_application : ∀ {app : List Declaration}, Separated app →
    routeHandlers (application app) = app.flatMap handlers
  | [], _ => by
    rw [List.flatMap_nil]
    exact handlersFrom.eq_1
  | d :: more, h => by
    have hend : application more = [] ∨ d.function.getLast? = some '\n' := by
      cases more with
      | nil => exact .inl rfl
      | cons next more => exact .inr h.1
    have hmore : Separated more := by
      cases more with
      | nil => trivial
      | cons next more => exact h.2
    rw [routeHandlers, application_cons, d.lines_text_append,
      d.lines_function_append hend, d.handlersFrom_lines (fresh_application more),
      List.flatMap_cons]
    exact congrArg (d.handlers ++ ·) (routeHandlers_application hmore)

/-- A search through an application finds the route of every declaration, if no function
leaves a decorator unfinished. -/
theorem scans_application : ∀ {app : List Declaration},
    (∀ d ∈ app, Closed d.function) → ∀ front : List Char, ∃ trail : List Match,
      (app.map (·.call.route)).Sublist
          (trail.filterMap (routeOf? (front ++ application app))) ∧
        routeDecorator.Scans .sensitive front (application app) [] trail
  | [], _, front => ⟨[], .slnil, (Pattern.silent_nil front []).scans⟩
  | d :: more, h, front => by
    obtain ⟨hd, hmore⟩ := List.forall_mem_cons.mp h
    have hnext : ∀ c ∈ (application more ++ []).head?, c = '@' := by
      cases more with
      | nil => exact nofun
      | cons next more =>
        rintro _ ⟨⟩
        rfl
    have hlineEnd : '@' ∉ d.lineEnd := by
      rcases d.lineEnd_eq with hend | hend <;> rw [hend] <;> decide
    obtain ⟨found, hroute, hcall⟩ :=
      d.call.scans front (d.lineEnd ++ (d.function ++ application more) ++ [])
    have hsilent := marked_routeDecorator.silent (fun c hc hmark => hlineEnd (hmark ▸ hc))
      (front ++ d.call.text) (d.function ++ application more ++ [])
    obtain ⟨inner, hfunction⟩ := (@confined_of_closed (front ++ d.call.text ++ d.lineEnd)
      d.function _ hd hnext).exists_scans marked_routeDecorator.solid
    obtain ⟨later, hroutes, hrest⟩ := scans_application hmore
      (front ++ d.call.text ++ d.lineEnd ++ d.function)
    have htext : application (d :: more) =
        d.call.text ++ (d.lineEnd ++ (d.function ++ application more)) := by
      simp [application_cons, text]
    have hcontent : front ++ (d.call.text ++ (d.lineEnd ++ (d.function ++ application more)
        ++ [])) = front ++ application (d :: more) := by
      rw [htext, List.append_nil]
    refine ⟨[found] ++ ([] ++ (inner ++ later)), ?_, ?_⟩
    · have hlater : front ++ d.call.text ++ d.lineEnd ++ d.function ++ application more =
          front ++ application (d :: more) := by
        rw [htext]
        simp
      rw [hcontent] at hroute
      rw [hlater] at hroutes
      rw [List.map_cons, List.singleton_append, List.filterMap_cons_some hroute,
        List.nil_append, List.filterMap_append]
      exact (hroutes.trans (List.sublist_append_right _ _)).cons_cons _
    · rw [htext]
      exact hcall.append (hsilent.scans.append (hfunction.append hrest))

/-- What is read of an application, whose declarations stand one below the other: the
handlers of its declarations in order, which are their functions if every call stands on
one line, and their routes among others, if no function leaves a decorator unfinished. -/
theorem readings_of_application {app : List Declaration} (h : Separated app) :
    routeHandlers (application app) = app.flatMap handlers ∧
      ((∀ d ∈ app, '\n' ∉ d.call.text) →
        routeHandlers (application app) = app.map handler) ∧
      ((∀ d ∈ app, Closed d.function) →
        (app.map (·.call.route)).Sublist (routes (application app))) := by
  have hhandlers := routeHandlers_application h
  refine ⟨hhandlers, fun hline => ?_, fun hclosed => ?_⟩
  · rw [hhandlers, List.map_eq_flatMap]
    refine List.flatMap_congr fun d hd => ?_
    rw [handlers, if_neg (hline d hd)]
  · obtain ⟨trail, hroutes, hscans⟩ := scans_application hclosed []
    rw [routes, marked_routeDecorator.solid.findAll_of_scans hscans]
    exact hroutes

-- A decorator that a comment leaves unfinished takes the next one with it.
example :
    routes ("@app.route('/x')\ndef f():\n    # @a.get('\n" ++
        "@app.route('/y')\ndef g():\n    pass\n").toList =
      [⟨"/x".toList, "GET".toList⟩, ⟨"\n@app.route(".toList, "GET".toList⟩] := by
  decide +kernel

/-- The function `f` behind a call whose path stands on a line of its own. -/
def overTwoLines : Declaration where
  call :=
    { object := "app".toList
      verb := "route"
      opening := ⟨"\n    ".toList, by decide⟩
      path := ⟨'\'', "/x".toList, by decide, by decide, fun c hc hquote => by
        rcases hquote with rfl | rfl <;> exact absurd hc (by decide)⟩
      methods := none
      closing := ⟨[], by decide⟩
      object_ne_nil := by decide
      isWord_object := List.all_eq_true.mp (by decide)
      verb_mem := by decide }
  lineEnd := ['\n']
  function := "def f():\n    pass\n".toList
  header := "def f():".toList
  name := "f".toList
  body := ["    pass".toList]
  onLines := ⟨by decide, nofun⟩
  lineEnd_eq := .inl rfl
  lines_function := by decide
  defines := definedName?_eq_some_iff.mp (by decide +kernel)
  unindented := by decide
  inside := by decide

/-- The same function behind a call on one line. -/
def onOneLine : Declaration :=
  { overTwoLines with
    call := { overTwoLines.call with opening := ⟨[], by decide⟩ }
    onLines := ⟨by decide, nofun⟩ }

/-- With one call over two lines, one of two functions is a handler, and both routes are
found. -/
theorem readings_of_two_calls :
    routeHandlers (application [overTwoLines, onOneLine]) = [onOneLine.handler] ∧
      [overTwoLines.call.route, onOneLine.call.route].Sublist
        (routes (application [overTwoLines, onOneLine])) := by
  obtain ⟨hhandlers, -, hroutes⟩ :=
    @readings_of_application [overTwoLines, onOneLine] ⟨by decide, trivial⟩
  have hclosed : Closed overTwoLines.function := closed_of_notMem (by decide)
  exact ⟨hhandlers.trans (by decide +kernel), hroutes <| List.forall_mem_cons.mpr
    ⟨hclosed, List.forall_mem_cons.mpr ⟨hclosed, nofun⟩⟩⟩

/-- Behind a call over two lines, the route is found and the function is not: the rule about
error handling has nothing to say, although the function has none. -/
theorem no_handler_of_overTwoLines :
    application [overTwoLines] = "@app.route(\n    '/x')\ndef f():\n    pass\n".toList ∧
      Separated [overTwoLines] ∧
      overTwoLines.handler = ⟨"f".toList, "    pass".toList⟩ ∧
      routes (application [overTwoLines]) = [overTwoLines.call.route] ∧
      overTwoLines.handler ∉ routeHandlers (application [overTwoLines]) ∧
      ∀ c : Context,
        Rule.Reports .flaskNoRoutes { c with content := application [overTwoLines] }
            [.note "Route: GET /x"] ∧
          Rule.Reports .flaskRouteErrors { c with content := application [overTwoLines] } [] := by
  have hroutes : routes (application [overTwoLines]) = [overTwoLines.call.route] := by
    decide +kernel
  have hhandlers : routeHandlers (application [overTwoLines]) = [] := by decide +kernel
  refine ⟨by decide, trivial, by decide, hroutes, hhandlers ▸ List.not_mem_nil, fun c => ?_⟩
  constructor
  · have hfound : routesDefined { c with content := application [overTwoLines] } =
        [.note "Route: GET /x"] := by
      rw [routesDefined, hroutes]
      decide
    exact hfound ▸ .of_row rfl _
  · have hfound : routeErrorHandling { c with content := application [overTwoLines] } = [] := by
      rw [routeErrorHandling, hhandlers]
      rfl
    exact hfound ▸ .of_row rfl _

end Declaration

end Preflight
