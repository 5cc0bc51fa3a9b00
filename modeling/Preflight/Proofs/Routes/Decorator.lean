import Preflight.Checks.Flask
import Preflight.Proofs.LetterCase.Words
import Preflight.Proofs.Lines
import Preflight.Proofs.Pattern.Captures
import Preflight.Proofs.Pattern.Marks
import Preflight.Proofs.Pattern.Sensitive

/-!
# Route decorators

A `RouteCall` is a call of a route decorator as it is written: the object, the verb,
the path, the methods if they are listed, and the white space between them.

* `captures_routeLead_iff`, `captures_methodTail_iff`: what the pattern of a decorator
  reads, up to the path and behind it.  Both are read in one way only
  (`RouteLead.unique`, `MethodTail.unique`).
* `listedMethods_eq`: the names of a list of methods come back from its text.
* `RouteCall.scans`: where a call stands, a search finds it and its route, whatever
  stands around it.
-/

namespace Preflight

open Text

/-! ## Calls of route decorators -/

namespace Text

/-- White space, or nothing. -/
@[ext] structure Gap where
  text : List Char
  blank : Blank text

/-- A text without quotes, between two quotes of one kind. -/
structure Literal where
  quote : Char
  inside : List Char
  isQuote : IsQuote quote
  ne_nil : inside ≠ []
  plain : ∀ c ∈ inside, ¬IsQuote c

/-- The literal with its quotes. -/
def Literal.text (l : Literal) : List Char := l.quote :: (l.inside ++ [l.quote])

end Text

/-- The names of decorators that declare a route. -/
def routeNames : List String := ["route", "get", "post", "put", "delete", "patch"]

/-- A method of a list, with the white space around it. -/
structure MethodEntry where
  before : Gap
  name : Literal
  behind : Gap
  no_comma : ',' ∉ name.inside
  no_bracket : ']' ∉ name.inside

/-- The entry as it is written. -/
def MethodEntry.text (e : MethodEntry) : List Char :=
  e.before.text ++ (e.name.text ++ e.behind.text)

/-- The methods of a route, with the comma in front of them. -/
structure MethodList where
  beforeComma : Gap
  behindComma : Gap
  beforeEquals : Gap
  behindEquals : Gap
  entries : List MethodEntry
  ne_nil : entries ≠ []

namespace MethodList

/-- What stands between the brackets. -/
def inside (l : MethodList) : List Char := List.intercalate [','] (l.entries.map MethodEntry.text)

/-- The methods by their names. -/
def names (l : MethodList) : List (List Char) := l.entries.map (·.name.inside)

/-- The list as it is written behind the path. -/
def text (l : MethodList) : List Char :=
  l.beforeComma.text ++ ',' :: (l.behindComma.text ++ ("methods".toList ++
    (l.beforeEquals.text ++ '=' :: (l.behindEquals.text ++ '[' :: (l.inside ++ [']'])))))

end MethodList

/-- A call of a route decorator. -/
structure RouteCall where
  object : List Char
  verb : String
  opening : Gap
  path : Literal
  methods : Option MethodList
  closing : Gap
  object_ne_nil : object ≠ []
  isWord_object : ∀ c ∈ object, isWord c = true
  verb_mem : verb ∈ routeNames

/-- The call as it is written. -/
def RouteCall.text (call : RouteCall) : List Char :=
  '@' :: (call.object ++ '.' :: (call.verb.toList ++ '(' :: (call.opening.text ++
    (call.path.text ++ ((call.methods.map MethodList.text).getD [] ++
      (call.closing.text ++ [')']))))))

/-- The route that the call declares: a shorthand names its own method. -/
def RouteCall.route (call : RouteCall) : Checks.Route where
  path := call.path.inside
  methods :=
    if call.verb = "route" then
      match call.methods with
      | some list => List.intercalate [','] list.names
      | none => "GET".toList
    else call.verb.toList.map Char.toUpper

/-! ## Up to the path -/

/-- A decorator up to the quote behind its path. -/
@[ext] structure RouteLead where
  object : List Char
  verb : List Char
  gap : Gap
  opening : Char
  path : List Char
  closing : Char
  object_ne_nil : object ≠ []
  isWord_object : ∀ c ∈ object, isWord c = true
  verb_mem : verb ∈ routeNames.map String.toList
  isQuote_opening : IsQuote opening
  path_ne_nil : path ≠ []
  plain : ∀ c ∈ path, ¬IsQuote c
  isQuote_closing : IsQuote closing

namespace RouteLead

/-- What stands in front of the verb. -/
def beforeVerb (l : RouteLead) : List Char := '@' :: (l.object ++ ['.'])

/-- What stands in front of the path. -/
def beforePath (l : RouteLead) : List Char :=
  l.beforeVerb ++ (l.verb ++ '(' :: (l.gap.text ++ [l.opening]))

def text (l : RouteLead) : List Char := l.beforePath ++ (l.path ++ [l.closing])

/-- The groups that a match behind `front` keeps of it. -/
def groups (l : RouteLead) (front : List Char) : List Group :=
  [⟨2, (front ++ l.beforePath).length, (front ++ l.beforePath ++ l.path).length⟩,
    ⟨1, (front ++ l.beforeVerb).length, (front ++ l.beforeVerb ++ l.verb).length⟩]

end RouteLead

theorem not_isSpace_of_isQuote {c : Char} (h : IsQuote c) : isSpace c = false := by
  rcases h with rfl | rfl <;> decide

theorem not_isSpace_of_isWord {c : Char} (h : isWord c = true) : isSpace c = false := by
  cases hspace : isSpace c with
  | false => rfl
  | true =>
    rw [isWord_of_isSpace hspace] at h
    cases h

theorem not_isSpace_head {c : Char} (hc : isSpace c = false) (rest : List Char) :
    ∀ d ∈ (c :: rest).head?, isSpace d = false := by
  rintro _ ⟨⟩
  exact hc

theorem Text.Gap.notMem (gap : Gap) {c : Char} (hc : isSpace c = false) : c ∉ gap.text := by
  intro hmem
  rw [gap.blank c hmem] at hc
  cases hc

/-- Behind white space, a mark is read in one way. -/
theorem Text.Gap.unique {gap gap' : Gap} {rest rest' : List Char}
    (h : gap.text ++ rest = gap'.text ++ rest')
    (hrest : ∀ c ∈ rest.head?, isSpace c = false)
    (hrest' : ∀ c ∈ rest'.head?, isSpace c = false) : gap = gap' ∧ rest = rest' := by
  obtain ⟨hgap, h⟩ := append_inj_of_kind h gap.blank gap'.blank hrest hrest'
  exact ⟨Gap.ext hgap, h⟩

theorem notMem_of_verb {verb : List Char} (h : verb ∈ routeNames.map String.toList) :
    '(' ∉ verb := by
  have hnames : ∀ verb ∈ routeNames.map String.toList, '(' ∉ verb := by decide
  exact hnames verb h

/-- A decorator is read up to its path in one way. -/
theorem RouteLead.unique {l l' : RouteLead} {more more' : List Char}
    (h : l.text ++ more = l'.text ++ more') : l = l' ∧ more = more' := by
  simp only [text, beforePath, beforeVerb, List.append_assoc, List.cons_append,
    List.nil_append, List.cons.injEq, true_and] at h
  have hdot : ∀ rest : List Char, ∀ c ∈ ('.' :: rest).head?, isWord c = false := by
    rintro rest _ ⟨⟩
    decide
  obtain ⟨hobject, h⟩ :=
    append_inj_of_kind h l.isWord_object l'.isWord_object (hdot _) (hdot _)
  obtain ⟨hverb, h⟩ := append_cons_inj_of_notMem (notMem_of_verb l.verb_mem)
    (notMem_of_verb l'.verb_mem) (List.cons.inj h).2
  have hquote {opening : Char} (hopening : IsQuote opening) (rest : List Char) :=
    not_isSpace_head (not_isSpace_of_isQuote hopening) rest
  obtain ⟨hgap, h⟩ :=
    Gap.unique h (hquote l.isQuote_opening _) (hquote l'.isQuote_opening _)
  obtain ⟨hopening, h⟩ := List.cons.inj h
  have hplain {path : List Char} (hpath : ∀ c ∈ path, ¬IsQuote c) :
      ∀ c ∈ path, decide (¬IsQuote c) = true :=
    fun c hc => decide_eq_true (hpath c hc)
  have hend {closing : Char} (hclosing : IsQuote closing) (rest : List Char) :
      ∀ c ∈ (closing :: rest).head?, decide (¬IsQuote c) = false := by
    rintro _ ⟨⟩
    exact decide_eq_false (not_not_intro hclosing)
  obtain ⟨hpath, h⟩ := append_inj_of_kind h (hplain l.plain) (hplain l'.plain)
    (hend l.isQuote_closing _) (hend l'.isQuote_closing _)
  obtain ⟨hclosing, h⟩ := List.cons.inj h
  exact ⟨RouteLead.ext hobject hverb hgap hopening hpath hclosing, h⟩

/-! ## The methods -/

/-- What lists the methods behind a path. -/
@[ext] structure MethodTail where
  beforeComma : Gap
  behindComma : Gap
  beforeEquals : Gap
  behindEquals : Gap
  inside : List Char
  ne_nil : inside ≠ []
  no_bracket : ']' ∉ inside

namespace MethodTail

/-- What stands in front of the methods. -/
def beforeInside (t : MethodTail) : List Char :=
  t.beforeComma.text ++ ',' :: (t.behindComma.text ++ ("methods".toList ++
    (t.beforeEquals.text ++ '=' :: (t.behindEquals.text ++ ['[']))))

def text (t : MethodTail) : List Char := t.beforeInside ++ (t.inside ++ [']'])

end MethodTail

/-- A list of methods is read in one way. -/
theorem MethodTail.unique {t t' : MethodTail} {more more' : List Char}
    (h : t.text ++ more = t'.text ++ more') : t = t' ∧ more = more' := by
  simp only [text, beforeInside, List.append_assoc, List.cons_append,
    List.nil_append] at h
  have hcomma := not_isSpace_head (c := ',') (by decide)
  have hname := not_isSpace_head (c := 'm') (by decide)
  have hequals := not_isSpace_head (c := '=') (by decide)
  have hbracket := not_isSpace_head (c := '[') (by decide)
  obtain ⟨hbeforeComma, h⟩ := Gap.unique h (hcomma _) (hcomma _)
  obtain ⟨hbehindComma, h⟩ := Gap.unique (List.cons.inj h).2 (hname _) (hname _)
  obtain ⟨hbeforeEquals, h⟩ :=
    Gap.unique (List.append_cancel_left h) (hequals _) (hequals _)
  obtain ⟨hbehindEquals, h⟩ :=
    Gap.unique (List.cons.inj h).2 (hbracket _) (hbracket _)
  obtain ⟨hinside, h⟩ :=
    append_cons_inj_of_notMem t.no_bracket t'.no_bracket (List.cons.inj h).2
  exact ⟨MethodTail.ext hbeforeComma hbehindComma hbeforeEquals hbehindEquals hinside, h⟩

namespace Checks

open Pattern

variable {front piece rest back : List Char} {groups : List Group} {found : Match}

/-- The pattern of a decorator up to the quote behind its path. -/
def routeLead : Pattern :=
  text "@" ++ Pattern.some .word ++ text "." ++ group 1 routeVerbs ++ text "(" ++
    spaces ++ one (.anyOf "'\"") ++ group 2 (Pattern.some (.noneOf "'\"")) ++
    one (.anyOf "'\"")

/-- The pattern of what lists the methods. -/
def methodTail : Pattern :=
  spaces ++ text "," ++ spaces ++ text "methods" ++ spaces ++ text "=" ++ spaces ++
    text "[" ++ group 3 (Pattern.some (.noneOf "]")) ++ text "]"

theorem routeDecorator_eq : routeDecorator = routeLead ++ optional methodTail := rfl

theorem finds_routeVerbs_iff :
    Finds .sensitive routeVerbs front piece back ↔
      piece ∈ routeNames.map String.toList := by
  simp only [routeVerbs, firstOf, finds_alt_iff, finds_text_sensitive_iff, routeNames,
    List.map_cons, List.map_nil, List.mem_cons, List.not_mem_nil, or_false]

theorem mem_quotes_iff {c : Char} : c ∈ "'\"".toList ↔ IsQuote c := by
  simp [IsQuote, or_comm]

/-- What is read up to the path, with the groups that a match keeps. -/
theorem captures_routeLead_iff :
    routeLead.Captures .sensitive front piece back groups ↔
      ∃ l : RouteLead, piece = l.text ∧ groups = l.groups front := by
  have hquote : (one (.anyOf "'\"")).groupless = true := rfl
  have hspaces : spaces.groupless = true := rfl
  have hsome (cls : CharClass) : (Pattern.some cls).groupless = true := rfl
  have hverbs : routeVerbs.groupless = true := by decide
  simp only [routeLead, captures_append_group_iff hverbs,
    captures_append_group_iff (hsome _), captures_append_groupless_iff hquote,
    captures_append_groupless_iff hspaces, captures_append_groupless_iff (hsome _),
    captures_append_groupless_iff (groupless_text _),
    captures_groupless_iff (groupless_text _), finds_text_sensitive_iff, finds_one_iff,
    finds_some_iff, finds_spaces_sensitive_iff, finds_routeVerbs_iff,
    accepts_word_sensitive_iff, accepts_anyOf_sensitive_iff,
    accepts_noneOf_sensitive_iff, mem_quotes_iff]
  constructor
  · rintro ⟨_, _, rfl, ⟨_, path, _, rfl, rfl, ⟨_, _, rfl, ⟨_, gap, rfl, ⟨_, _, rfl,
      ⟨_, verb, _, rfl, rfl, ⟨_, _, rfl, ⟨_, object, rfl, ⟨rfl, rfl⟩, hobject, hword⟩,
      rfl⟩, hverb⟩, rfl⟩, hgap⟩, opening, rfl, hopening⟩, hpath, hplain⟩,
      closing, rfl, hclosing⟩
    refine ⟨⟨object, verb, ⟨gap, hgap⟩, opening, path, closing, hobject, hword, hverb,
      hopening, hpath, hplain, hclosing⟩, ?_, ?_⟩
    · simp [RouteLead.text, RouteLead.beforePath, RouteLead.beforeVerb]
    · simp [RouteLead.groups, RouteLead.beforePath, RouteLead.beforeVerb]
  · rintro ⟨l, rfl, rfl⟩
    refine ⟨_, [l.closing], ?_, ⟨_, l.path, _, rfl, ?_, ⟨_, [l.opening], rfl,
      ⟨_, l.gap.text, rfl, ⟨_, ['('], rfl, ⟨_, l.verb, _, rfl, rfl, ⟨_, ['.'], rfl,
      ⟨['@'], l.object, rfl, ⟨rfl, rfl⟩, l.object_ne_nil, l.isWord_object⟩, rfl⟩,
      l.verb_mem⟩, rfl⟩, l.gap.blank⟩, _, rfl, l.isQuote_opening⟩, l.path_ne_nil,
      l.plain⟩, _, rfl, l.isQuote_closing⟩
    · simp [RouteLead.text, RouteLead.beforePath, RouteLead.beforeVerb]
    · simp [RouteLead.groups, RouteLead.beforePath, RouteLead.beforeVerb]

/-- What is read of the methods, with the group that a match keeps. -/
theorem captures_methodTail_iff :
    methodTail.Captures .sensitive front piece back groups ↔
      ∃ t : MethodTail, piece = t.text ∧ groups =
        [⟨3, (front ++ t.beforeInside).length,
          (front ++ t.beforeInside ++ t.inside).length⟩] := by
  have hspaces : spaces.groupless = true := rfl
  have hnames : (Pattern.some (.noneOf "]")).groupless = true := rfl
  have hinside (inside : List Char) : (∀ c ∈ inside, c ∉ "]".toList) ↔ ']' ∉ inside := by
    simp [List.forall_mem_ne']
  simp only [methodTail, captures_append_group_iff hnames,
    captures_append_groupless_iff hspaces, captures_append_groupless_iff (groupless_text _),
    captures_groupless_iff hspaces, finds_text_sensitive_iff, finds_some_iff,
    finds_spaces_sensitive_iff, accepts_noneOf_sensitive_iff, hinside]
  constructor
  · rintro ⟨_, _, rfl, ⟨_, inside, _, rfl, rfl, ⟨_, _, rfl, ⟨_, behindEquals, rfl,
      ⟨_, _, rfl, ⟨_, beforeEquals, rfl, ⟨_, _, rfl, ⟨_, behindComma, rfl,
      ⟨beforeComma, _, rfl, ⟨rfl, h1⟩, rfl⟩, h2⟩, rfl⟩, h3⟩, rfl⟩, h4⟩, rfl⟩,
      hne, hbracket⟩, rfl⟩
    refine ⟨⟨⟨beforeComma, h1⟩, ⟨behindComma, h2⟩, ⟨beforeEquals, h3⟩, ⟨behindEquals, h4⟩,
      inside, hne, hbracket⟩, ?_, ?_⟩
    · simp [MethodTail.text, MethodTail.beforeInside]
    · simp [MethodTail.beforeInside]
  · rintro ⟨t, rfl, rfl⟩
    refine ⟨_, _, ?_, ⟨_, t.inside, [], rfl, ?_, ⟨_, _, rfl,
      ⟨_, t.behindEquals.text, rfl, ⟨_, _, rfl, ⟨_, t.beforeEquals.text, rfl, ⟨_, _, rfl,
      ⟨_, t.behindComma.text, rfl, ⟨t.beforeComma.text, _, rfl, ⟨rfl, t.beforeComma.blank⟩,
      rfl⟩, t.behindComma.blank⟩, rfl⟩, t.beforeEquals.blank⟩, rfl⟩,
      t.behindEquals.blank⟩, rfl⟩, t.ne_nil, t.no_bracket⟩, rfl⟩
    · simp [MethodTail.text, MethodTail.beforeInside]
    · simp [MethodTail.beforeInside]

end Checks

/-! ## Lists of methods -/

namespace Text.Literal

theorem head?_text (l : Literal) : l.text.head? = some l.quote := rfl

theorem getLast?_text (l : Literal) : l.text.getLast? = some l.quote := by
  rw [text, ← List.cons_append, List.getLast?_concat]

/-- A literal in white space loses its quotes. -/
theorem unquoted_trim (l : Literal) {before behind : List Char} (hbefore : Blank before)
    (hbehind : Blank behind) :
    Checks.unquoted (trim (before ++ (l.text ++ behind))) = l.inside := by
  have hquote := not_isSpace_of_isQuote l.isQuote
  have htrim : trim (before ++ (l.text ++ behind)) = l.text := by
    refine trim_eq hbefore hbehind ?_ ?_ (List.cons_ne_nil _ _)
    · rw [l.head?_text]
      rintro _ ⟨⟩
      exact hquote
    · rw [l.getLast?_text]
      rintro _ ⟨⟩
      exact hquote
  have hkind {c : Char} : (c == '\'' || c == '"') = true ↔ IsQuote c := by
    simp [IsQuote, or_comm]
  -- No quote stands at either end of what is inside.
  have hdrop {s : List Char} (hplain : ∀ c ∈ s, ¬IsQuote c) (hne : s ≠ [])
      (rest : List Char) :
      (l.quote :: (s ++ rest)).dropWhile (fun c => c == '\'' || c == '"') = s ++ rest := by
    rw [List.dropWhile_cons_of_pos (p := fun c => c == '\'' || c == '"')
      (hkind.mpr l.isQuote)]
    cases s with
    | nil => exact absurd rfl hne
    | cons c s =>
      exact List.dropWhile_cons_of_neg (mt hkind.mp (hplain c List.mem_cons_self))
  have hinside := hdrop l.plain l.ne_nil [l.quote]
  have hback := hdrop (fun c hc => l.plain c (List.mem_reverse.mp hc))
    (mt List.reverse_eq_nil_iff.mp l.ne_nil) []
  rw [List.append_nil] at hback
  rw [htrim, Checks.unquoted, text]
  simp only [hinside]
  rw [List.reverse_append, List.reverse_singleton, List.singleton_append, hback,
    List.reverse_reverse]

end Text.Literal

namespace MethodEntry

theorem text_ne_nil (e : MethodEntry) : e.text ≠ [] :=
  List.append_ne_nil_of_right_ne_nil _ (List.cons_ne_nil _ _)

theorem notMem_text (e : MethodEntry) {c : Char} (hspace : isSpace c = false)
    (hquote : ¬IsQuote c) (hname : c ∉ e.name.inside) : c ∉ e.text := by
  have hc : c ≠ e.name.quote := fun hc => hquote (hc ▸ e.name.isQuote)
  simp [text, Literal.text, e.before.notMem hspace, e.behind.notMem hspace, hname, hc]

end MethodEntry

namespace MethodList

theorem splitOn_inside (l : MethodList) :
    List.splitOn ',' l.inside = l.entries.map MethodEntry.text := by
  refine List.splitOn_intercalate ',' ?_ (mt List.map_eq_nil_iff.mp l.ne_nil)
  intro part hpart
  obtain ⟨e, -, rfl⟩ := List.mem_map.mp hpart
  exact e.notMem_text (by decide) (by decide) e.no_comma

/-- The methods come back from the text of the list. -/
theorem listedMethods_inside (l : MethodList) :
    Checks.listedMethods l.inside = List.intercalate [','] l.names := by
  have hname (e : MethodEntry) : Checks.unquoted (trim e.text) = e.name.inside :=
    e.name.unquoted_trim e.before.blank e.behind.blank
  have hne : ∀ name ∈ l.names, (!name.isEmpty) = true := by
    intro name hmem
    obtain ⟨e, -, rfl⟩ := List.mem_map.mp hmem
    rw [Bool.not_eq_true', List.isEmpty_eq_false_iff]
    exact e.name.ne_nil
  simp only [Checks.listedMethods, splitOn_inside, List.map_map, Function.comp_def, hname]
  rw [← names, List.filter_eq_self.mpr hne]

theorem inside_ne_nil (l : MethodList) : l.inside ≠ [] := by
  intro hnil
  have hparts := l.splitOn_inside
  rw [hnil] at hparts
  have hmem : [] ∈ l.entries.map MethodEntry.text := hparts ▸ List.mem_singleton_self []
  obtain ⟨e, -, he⟩ := List.mem_map.mp hmem
  exact e.text_ne_nil he

theorem notMem_inside (l : MethodList) : ']' ∉ l.inside := by
  intro hc
  rcases mem_intercalate hc with hc | ⟨part, hpart, hc⟩
  · exact absurd hc (by decide)
  · obtain ⟨e, -, rfl⟩ := List.mem_map.mp hpart
    exact e.notMem_text (by decide) (by decide) e.no_bracket hc

/-- The list as it is read. -/
def tail (l : MethodList) : MethodTail where
  beforeComma := l.beforeComma
  behindComma := l.behindComma
  beforeEquals := l.beforeEquals
  behindEquals := l.behindEquals
  inside := l.inside
  ne_nil := l.inside_ne_nil
  no_bracket := l.notMem_inside

theorem tail_text (l : MethodList) : l.tail.text = l.text := by
  simp [MethodTail.text, MethodTail.beforeInside, tail, text]

end MethodList

namespace RouteCall

/-- The call up to the quote behind its path. -/
def lead (call : RouteCall) : RouteLead where
  object := call.object
  verb := call.verb.toList
  gap := call.opening
  opening := call.path.quote
  path := call.path.inside
  closing := call.path.quote
  object_ne_nil := call.object_ne_nil
  isWord_object := call.isWord_object
  verb_mem := List.mem_map_of_mem call.verb_mem
  isQuote_opening := call.path.isQuote
  path_ne_nil := call.path.ne_nil
  plain := call.path.plain
  isQuote_closing := call.path.isQuote

/-- What stands between the path and the end of the call. -/
def methodText (call : RouteCall) : List Char := (call.methods.map MethodList.text).getD []

theorem text_eq (call : RouteCall) :
    call.text = call.lead.text ++ (call.methodText ++ (call.closing.text ++ [')'])) := by
  simp [text, methodText, RouteLead.text, RouteLead.beforePath, RouteLead.beforeVerb, lead,
    Literal.text]

open Pattern

theorem methodText_of_none {call : RouteCall} (h : call.methods = none) :
    call.methodText = [] := by
  rw [methodText, h]
  rfl

theorem methodText_of_some {call : RouteCall} {list : MethodList}
    (h : call.methods = Option.some list) : call.methodText = list.tail.text := by
  rw [methodText, h, list.tail_text]
  rfl

/-- A search that takes the call takes it up to its path, and up to its methods if they
are listed.  It keeps the verb, the path and the methods. -/
theorem groups_of_matchAt? {call : RouteCall} {front back : List Char} {found : Match}
    (h : Checks.routeDecorator.matchAt? .sensitive front.getLast? (call.text ++ back)
      front.length = Option.some found) :
    found.Cuts front (call.lead.text ++ call.methodText)
        (call.closing.text ++ ')' :: back) ∧
      found.groups = (call.methods.map fun list =>
        Group.mk 3 (front ++ call.lead.text ++ list.tail.beforeInside).length
          (front ++ call.lead.text ++ list.tail.beforeInside ++ list.inside).length).toList
        ++ call.lead.groups front := by
  rw [Checks.routeDecorator_eq] at h
  obtain ⟨left, more, own, hrest, hlead, hcases⟩ := captures_of_matchAt?_optional h
  obtain ⟨l, rfl, rfl⟩ := Checks.captures_routeLead_iff.mp hlead
  rw [text_eq, List.append_assoc, List.append_assoc, List.append_assoc] at hrest
  obtain ⟨rfl, rfl⟩ := RouteLead.unique hrest
  rw [List.singleton_append] at hcases
  cases hmethods : call.methods with
  | none =>
    rw [methodText_of_none hmethods, List.nil_append] at hcases
    rw [methodText_of_none hmethods, List.append_nil]
    rcases hcases with ⟨_, _, _, hsplit, htail, -, -⟩ | ⟨-, hcuts, hgroups⟩
    · -- The comma of a list would have to be the bracket that closes the call.
      obtain ⟨t, rfl, -⟩ := Checks.captures_methodTail_iff.mp htail
      simp only [MethodTail.text, MethodTail.beforeInside, List.append_assoc,
        List.cons_append] at hsplit
      obtain ⟨-, hmark⟩ := Gap.unique hsplit (not_isSpace_head (by decide) _)
        (not_isSpace_head (by decide) _)
      exact absurd (List.cons.inj hmark).1 (by decide)
    · exact ⟨hcuts, hgroups⟩
  | some list =>
    rw [methodText_of_some hmethods] at hcases ⊢
    rcases hcases with ⟨_, _, _, hsplit, htail, hcuts, hgroups⟩ | ⟨hnone, -, -⟩
    · obtain ⟨t, rfl, rfl⟩ := Checks.captures_methodTail_iff.mp htail
      obtain ⟨rfl, rfl⟩ := MethodTail.unique hsplit
      exact ⟨hcuts, hgroups⟩
    · exact absurd (Checks.captures_methodTail_iff.mpr ⟨list.tail, rfl, rfl⟩).finds
        (hnone _ _ rfl)

section

variable {call : RouteCall} {front back : List Char} {found : Match}
  (h : Checks.routeDecorator.matchAt? .sensitive front.getLast? (call.text ++ back)
    front.length = Option.some found)

include h

theorem verb_of_matchAt? :
    found.group? (front ++ (call.text ++ back)) 1 = Option.some call.verb.toList := by
  obtain ⟨-, hgroups⟩ := groups_of_matchAt? h
  have htext : front ++ (call.text ++ back) = (front ++ call.lead.beforeVerb) ++
      (call.verb.toList ++ ('(' :: (call.opening.text ++ (call.path.text ++
        (call.methodText ++ (call.closing.text ++ ')' :: back)))))) := by
    simp [text, methodText, RouteLead.beforeVerb, lead]
  rw [htext]
  refine Match.group?_of_find? (g := ⟨1, _, _⟩) ?_ rfl rfl
  rw [hgroups]
  cases call.methods <;> rfl

theorem path_of_matchAt? :
    found.group? (front ++ (call.text ++ back)) 2 = Option.some call.path.inside := by
  obtain ⟨-, hgroups⟩ := groups_of_matchAt? h
  have htext : front ++ (call.text ++ back) = (front ++ call.lead.beforePath) ++
      (call.path.inside ++ (call.path.quote :: (call.methodText ++
        (call.closing.text ++ ')' :: back)))) := by
    simp [text, methodText, RouteLead.beforePath, RouteLead.beforeVerb, lead,
      Literal.text]
  rw [htext]
  refine Match.group?_of_find? (g := ⟨2, _, _⟩) ?_ rfl rfl
  rw [hgroups]
  cases call.methods <;> rfl

/-- The list of methods is kept if there is one. -/
theorem methods_of_matchAt? :
    found.group? (front ++ (call.text ++ back)) 3 = call.methods.map MethodList.inside := by
  obtain ⟨-, hgroups⟩ := groups_of_matchAt? h
  cases hlist : call.methods with
  | none =>
    rw [hlist] at hgroups
    rw [Match.group?, hgroups]
    rfl
  | some list =>
    have htext : front ++ (call.text ++ back) =
        (front ++ call.lead.text ++ list.tail.beforeInside) ++
          (list.inside ++ (']' :: (call.closing.text ++ ')' :: back))) := by
      rw [text_eq, methodText_of_some hlist, MethodTail.text]
      simp [MethodList.tail]
    rw [htext]
    refine Match.group?_of_find? (g := ⟨3, _, _⟩) ?_ rfl rfl
    rw [hgroups, hlist]
    rfl

/-- The groups that are kept make up the route of the call. -/
theorem routeOf?_of_matchAt? :
    Checks.routeOf? (front ++ (call.text ++ back)) found = Option.some call.route := by
  have hroute : call.verb.toList = "route".toList ↔ call.verb = "route" :=
    String.toList_inj
  simp only [Checks.routeOf?, verb_of_matchAt? h, path_of_matchAt? h, methods_of_matchAt? h,
    Option.bind_eq_bind, Option.bind_some, hroute, route]
  by_cases hname : call.verb = "route"
  · rw [if_pos hname, if_pos hname]
    cases call.methods with
    | none => rfl
    | some list =>
      exact congrArg (fun methods => Option.some (Checks.Route.mk _ methods))
        list.listedMethods_inside
  · rw [if_neg hname, if_neg hname]
    rfl

end

end RouteCall

namespace Checks

open Pattern

/-- A decorator is found up to its path, or up to its methods. -/
theorem finds_routeDecorator_iff :
    routeDecorator.Finds .sensitive front piece back ↔
      ∃ l : RouteLead, piece = l.text ∨ ∃ t : MethodTail, piece = l.text ++ t.text := by
  rw [routeDecorator_eq, finds_append_iff]
  constructor
  · rintro ⟨left, right, rfl, hlead, htail⟩
    obtain ⟨_, hlead⟩ := finds_iff_exists_captures.mp hlead
    obtain ⟨l, rfl, -⟩ := captures_routeLead_iff.mp hlead
    rcases finds_optional_iff.mp htail with htail | rfl
    · obtain ⟨_, htail⟩ := finds_iff_exists_captures.mp htail
      obtain ⟨t, rfl, -⟩ := captures_methodTail_iff.mp htail
      exact ⟨l, .inr ⟨t, rfl⟩⟩
    · exact ⟨l, .inl (List.append_nil _)⟩
  · have hlead (l : RouteLead) (back : List Char) :
        routeLead.Finds .sensitive front l.text back :=
      (captures_routeLead_iff.mpr ⟨l, rfl, rfl⟩).finds
    rintro ⟨l, rfl | ⟨t, rfl⟩⟩
    · exact ⟨l.text, [], (List.append_nil _).symm, hlead l _,
        finds_optional_iff.mpr (.inr rfl)⟩
    · exact ⟨l.text, t.text, rfl, hlead l _, finds_optional_iff.mpr <| .inl
        (captures_methodTail_iff.mpr ⟨t, rfl, rfl⟩).finds⟩

/-- Every piece that is found begins with the mark of a decorator. -/
theorem marked_routeDecorator : routeDecorator.Marked .sensitive (· = '@') := by
  intro front piece back hfinds
  obtain ⟨l, rfl | ⟨t, rfl⟩⟩ := finds_routeDecorator_iff.mp hfinds
  · exact ⟨'@', _, rfl, rfl⟩
  · exact ⟨'@', _, rfl, rfl⟩

end Checks

namespace RouteCall

open Pattern

/-- Where a call stands, a search finds it and keeps its route.  Nothing is asked of the
text around it. -/
theorem scans (call : RouteCall) (front back : List Char) :
    ∃ found, Checks.routeOf? (front ++ (call.text ++ back)) found =
        Option.some call.route ∧
      Checks.routeDecorator.Scans .sensitive front call.text back [found] := by
  have htext : call.text ++ back = (call.lead.text ++ call.methodText) ++
      ((call.closing.text ++ [')']) ++ back) := by
    simp [call.text_eq]
  have hlead : call.text ++ back = call.lead.text ++
      (call.methodText ++ ((call.closing.text ++ [')']) ++ back)) := by
    rw [htext, List.append_assoc]
  obtain ⟨found, hmatch⟩ := Option.isSome_iff_exists.mp <| matchAt?_isSome_iff.mpr
    ⟨_, _, hlead, Checks.finds_routeDecorator_iff.mpr ⟨call.lead, .inl rfl⟩⟩
  obtain ⟨hcuts, -⟩ := groups_of_matchAt? hmatch
  refine ⟨found, routeOf?_of_matchAt? hmatch, ?_⟩
  rw [htext] at hmatch
  rw [List.append_cons] at hcuts
  have hsilent : Checks.routeDecorator.Silent .sensitive
      (front ++ (call.lead.text ++ call.methodText)) (call.closing.text ++ [')']) back := by
    refine Checks.marked_routeDecorator.silent (fun c hc hmark => ?_) _ _
    rcases List.mem_append.mp hc with hc | hc
    · exact call.closing.notMem (by decide) (hmark ▸ hc)
    · rw [List.mem_singleton.mp hc] at hmark
      exact absurd hmark (by decide)
  have hfound : Checks.routeDecorator.Scans .sensitive front
      (call.lead.text ++ call.methodText) ((call.closing.text ++ [')']) ++ back) [found] :=
    findBehind_of_eq_some hcuts (List.cons_ne_nil _ _) hmatch
  rw [call.text_eq, ← List.append_assoc]
  exact hfound.append hsilent.scans

end RouteCall

end Preflight
