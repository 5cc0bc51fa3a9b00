import Preflight.Proofs.Routes.Starts

/-!
# The handlers of an application

`Reading` says how the lines are read, one constructor for each way to go on, and
`handlersFrom` is the only way to read them (`reading_iff`).

An `Extent` is where a handler stands among the lines.  `Reading.exists_extents` finds one
for each handler by going through the reading: a run of decorators belongs to the line below
it or to nothing (`RunAt.eq_of_decorates`), so that no function is missed whose decorators
are not in a body.  `routeHandlers_extents` says so for a text.
-/

namespace Preflight

open Text Checks

/-! ## Reading the lines -/

namespace Checks

section

variable {line next definition name : List Char} {lines run below body : List (List Char)}

theorem isInside_line_iff {depth : Nat} :
    isInside depth line = true ↔ Blank line ∨ depth < indent line := by
  simp only [isInside, isBlank, Bool.or_eq_true, List.all_eq_true, decide_eq_true_eq, Blank]

/-- A line that starts no route decorator is skipped. -/
theorem handlersFrom_skip (h : ¬StartsRoute line) :
    handlersFrom (line :: lines) = handlersFrom lines := by
  rw [← occursIn_decoratorLine_iff, Bool.not_eq_true] at h
  rw [handlersFrom, h]
  rfl

/-- Without a line below the decorators there is no handler. -/
theorem handlersFrom_alone (h : StartsRoute line)
    (hrun : ∀ l ∈ run, startsDecorator l = true) : handlersFrom (line :: run) = [] := by
  have hdrop : (run ++ []).dropWhile startsDecorator = [] := dropWhile_append_eq hrun nofun
  rw [List.append_nil] at hdrop
  rw [← occursIn_decoratorLine_iff] at h
  rw [handlersFrom, h]
  split
  · contradiction
  · split
    · rfl
    · rename_i hrest
      rw [hdrop] at hrest
      cases hrest

/-- Below a route decorator, reading goes on with the first line that starts no
decorator. -/
theorem handlersFrom_route (h : StartsRoute line)
    (hrun : ∀ l ∈ run, startsDecorator l = true) (hnext : startsDecorator next = false) :
    handlersFrom (line :: (run ++ next :: below)) =
      match definedName? next with
      | none => handlersFrom (next :: below)
      | some name =>
        ⟨name, List.intercalate ['\n'] (below.takeWhile (isInside (indent next)))⟩ ::
          handlersFrom (below.dropWhile (isInside (indent next))) := by
  have hdrop : (run ++ next :: below).dropWhile startsDecorator = next :: below :=
    dropWhile_append_eq hrun (by rintro _ ⟨⟩; exact hnext)
  rw [← occursIn_decoratorLine_iff] at h
  conv_lhs => rw [handlersFrom, h]
  split
  · contradiction
  · split
    · rename_i hrest
      rw [hdrop] at hrest
      cases hrest
    · rename_i hrest
      rw [hdrop] at hrest
      obtain ⟨rfl, rfl⟩ := List.cons.inj hrest
      rfl

/-- A line below the decorators that starts no function is read on its own. -/
theorem handlersFrom_other (h : StartsRoute line)
    (hrun : ∀ l ∈ run, startsDecorator l = true) (hnext : startsDecorator next = false)
    (hdef : ∀ name, ¬Defines next name) :
    handlersFrom (line :: (run ++ next :: below)) = handlersFrom (next :: below) := by
  have hnone : definedName? next = none := by
    rw [Option.eq_none_iff_forall_ne_some]
    exact fun name hname => hdef name (definedName?_eq_some_iff.mp hname)
  rw [handlersFrom_route h hrun hnext, hnone]

/-- A function below the decorators is a handler.  Reading goes on behind its body. -/
theorem handlersFrom_handler (h : StartsRoute line)
    (hrun : ∀ l ∈ run, startsDecorator l = true) (hdef : Defines definition name)
    (hbody : ∀ l ∈ body, isInside (indent definition) l = true)
    (hbelow : ∀ l ∈ below.head?, isInside (indent definition) l = false) :
    handlersFrom (line :: (run ++ definition :: (body ++ below))) =
      ⟨name, List.intercalate ['\n'] body⟩ :: handlersFrom below := by
  rw [handlersFrom_route h hrun hdef.not_startsDecorator,
    definedName?_eq_some_iff.mpr hdef]
  simp only [takeWhile_append_eq hbody hbelow, dropWhile_append_eq hbody hbelow]

end

/-- How the lines are read, and the handlers that are come upon. -/
inductive Reading : List (List Char) → List Handler → Prop where
  | done : Reading [] []
  /-- A line that starts no route decorator. -/
  | skip {line : List Char} {lines : List (List Char)} {handlers : List Handler}
      (hline : ¬StartsRoute line) (h : Reading lines handlers) :
      Reading (line :: lines) handlers
  /-- Decorators down to the last line. -/
  | alone {route : List Char} {run : List (List Char)} (hroute : StartsRoute route)
      (hrun : ∀ l ∈ run, startsDecorator l = true) : Reading (route :: run) []
  /-- Decorators in front of something that is no function. -/
  | other {route next : List Char} {run below : List (List Char)}
      {handlers : List Handler} (hroute : StartsRoute route)
      (hrun : ∀ l ∈ run, startsDecorator l = true)
      (hnext : startsDecorator next = false) (hdef : ∀ name, ¬Defines next name)
      (h : Reading (next :: below) handlers) :
      Reading (route :: (run ++ next :: below)) handlers
  /-- Decorators in front of a function with its body. -/
  | handler {route definition name : List Char} {run body below : List (List Char)}
      {handlers : List Handler} (hroute : StartsRoute route)
      (hrun : ∀ l ∈ run, startsDecorator l = true) (hdef : Defines definition name)
      (hbody : ∀ l ∈ body, isInside (indent definition) l = true)
      (hbelow : ∀ l ∈ below.head?, isInside (indent definition) l = false)
      (h : Reading below handlers) :
      Reading (route :: (run ++ definition :: (body ++ below)))
        (⟨name, List.intercalate ['\n'] body⟩ :: handlers)

theorem reading_handlersFrom (lines : List (List Char)) :
    Reading lines (handlersFrom lines) := by
  have hroute {line : List Char}
      (h : ¬(!decoratorLine.occursIn .sensitive line) = true) : StartsRoute line := by
    rw [← occursIn_decoratorLine_iff]
    simpa using h
  induction lines using handlersFrom.induct with
  | case1 =>
    rw [handlersFrom]
    exact .done
  | case2 line lines hline ih =>
    have hline : ¬StartsRoute line := by
      rw [← occursIn_decoratorLine_iff]
      simpa using hline
    rw [handlersFrom_skip hline]
    exact .skip hline ih
  | case3 line lines hline hrest =>
    obtain ⟨run, hsplit, hrun, -⟩ := exists_run startsDecorator lines
    rw [hrest, List.append_nil] at hsplit
    rw [hsplit, handlersFrom_alone (hroute hline) hrun]
    exact .alone (hroute hline) hrun
  | case4 line lines hline next below hrest hname ih =>
    obtain ⟨run, hsplit, hrun, hnext⟩ := exists_run startsDecorator lines
    rw [hrest] at hsplit hnext
    have hdef : ∀ name, ¬Defines next name := by
      intro name hdef
      rw [definedName?_eq_some_iff.mpr hdef] at hname
      cases hname
    rw [hsplit, handlersFrom_other (hroute hline) hrun (hnext next rfl) hdef]
    exact .other (hroute hline) hrun (hnext next rfl) hdef ih
  | case5 line lines hline definition below hrest name hname depth ih =>
    obtain ⟨run, hsplit, hrun, -⟩ := exists_run startsDecorator lines
    obtain ⟨body, hbelow, hbody, hstop⟩ := exists_run (isInside depth) below
    have hdef := definedName?_eq_some_iff.mp hname
    rw [hrest, hbelow] at hsplit
    rw [hsplit, handlersFrom_handler (hroute hline) hrun hdef hbody hstop]
    exact .handler (hroute hline) hrun hdef hbody hstop ih

/-- There is one way to read the lines. -/
theorem reading_iff {lines : List (List Char)} {handlers : List Handler} :
    Reading lines handlers ↔ handlersFrom lines = handlers := by
  constructor
  · intro h
    induction h with
    | done => rw [handlersFrom]
    | skip hline _ ih => rw [handlersFrom_skip hline, ih]
    | alone hroute hrun => exact handlersFrom_alone hroute hrun
    | other hroute hrun hnext hdef _ ih =>
      rw [handlersFrom_other hroute hrun hnext hdef, ih]
    | handler hroute hrun hdef hbody hbelow _ ih =>
      rw [handlersFrom_handler hroute hrun hdef hbody hbelow, ih]
  · rintro rfl
    exact reading_handlersFrom lines

end Checks

/-! ## Where the handlers stand -/

/-- Where a handler stands among the lines: the place of its definition, and the place
behind its body. -/
structure Extent where
  definition : Nat
  stop : Nat

/-- The line at the place stands in the body. -/
def Extent.Covers (e : Extent) (place : Nat) : Prop :=
  e.definition < place ∧ place < e.stop

/-- The handler stands there.  Its body goes on as long as lines are blank or indented
deeper than the definition. -/
inductive Extent.Yields (lines : List (List Char)) : Extent → Handler → Prop where
  | mk {front body below : List (List Char)} {definition name : List Char}
      (hlines : lines = front ++ definition :: (body ++ below))
      (hdef : Defines definition name)
      (hbody : ∀ l ∈ body, Blank l ∨ indent definition < indent l)
      (hbelow : ∀ l ∈ below.head?, ¬Blank l ∧ indent l ≤ indent definition) :
      Yields lines ⟨front.length, front.length + 1 + body.length⟩
        ⟨name, List.intercalate ['\n'] body⟩

/-- The route decorator at the one place belongs to the function at the other one: only
decorators stand between them. -/
structure Decorates (lines : List (List Char)) (place definition : Nat) : Prop where
  lt : place < definition
  route : ∃ line, lines[place]? = some line ∧ StartsRoute line
  between : ∀ k, place < k → k < definition →
    ∃ line, lines[k]? = some line ∧ startsDecorator line = true
  defines : ∃ line name, lines[definition]? = some line ∧ Defines line name

/-- From `start` on, these are the handlers and their extents. -/
structure Placed (lines : List (List Char)) (start : Nat) (handlers : List Handler)
    (extents : List Extent) : Prop where
  yields : List.Forall₂ (Extent.Yields lines) extents handlers
  apart : extents.Pairwise fun e f => e.stop ≤ f.definition
  behind : ∀ e ∈ extents, start < e.definition
  definition_iff : ∀ j, (∃ e ∈ extents, e.definition = j) ↔
    ∃ i, start ≤ i ∧ Decorates lines i j ∧ ∀ e ∈ extents, ¬e.Covers i

section

variable {lines front run below body : List (List Char)} {route next definition name : List Char}
  {handlers : List Handler} {extents : List Extent} {start start' i j : Nat}

theorem Placed.nil (h : ∀ i j, start ≤ i → ¬Decorates lines i j) :
    Placed lines start [] [] where
  yields := .nil
  apart := .nil
  behind := nofun
  definition_iff j := iff_of_false nofun fun ⟨i, hi, hdecorates, _⟩ => h i j hi hdecorates

/-- Lines whose decorators belong to no function may be put in front. -/
theorem Placed.widen (h : Placed lines start' handlers extents) (hle : start ≤ start')
    (hnone : ∀ i j, start ≤ i → i < start' → ¬Decorates lines i j) :
    Placed lines start handlers extents where
  yields := h.yields
  apart := h.apart
  behind e he := Nat.lt_of_le_of_lt hle (h.behind e he)
  definition_iff j := by
    rw [h.definition_iff]
    refine exists_congr fun i => ⟨fun ⟨hi, h⟩ => ⟨Nat.le_trans hle hi, h⟩, fun ⟨hi, h⟩ => ⟨?_, h⟩⟩
    exact Nat.le_of_not_lt fun hlt => hnone i j hi hlt h.1

/-- A run of decorators, and the line below it. -/
structure RunAt (lines : List (List Char)) (start place : Nat) (next : List Char) : Prop where
  lt : start < place
  run : ∀ k, start < k → k < place →
    ∃ line, lines[k]? = some line ∧ startsDecorator line = true
  below : lines[place]? = some next
  not_decorator : startsDecorator next = false

/-- A decorator of the run belongs to the line below the run, or to nothing. -/
theorem RunAt.eq_of_decorates (h : RunAt lines start j next) {i k : Nat} (hi : start ≤ i)
    (hlt : i < j) (hdecorates : Decorates lines i k) : k = j := by
  have hik := hdecorates.lt
  rcases Nat.lt_trichotomy k j with hkj | rfl | hjk
  · obtain ⟨line, hline, hdecorator⟩ := h.run k (by omega) hkj
    obtain ⟨line', name, hline', hdefines⟩ := hdecorates.defines
    obtain rfl := Option.some.inj (hline.symm.trans hline')
    rw [hdefines.not_startsDecorator] at hdecorator
    cases hdecorator
  · rfl
  · obtain ⟨line, hline, hdecorator⟩ := hdecorates.between j hlt hjk
    obtain rfl := Option.some.inj (hline.symm.trans h.below)
    rw [h.not_decorator] at hdecorator
    cases hdecorator

theorem RunAt.not_decorates (h : RunAt lines start j next) : ¬Decorates lines j i := by
  intro hdecorates
  obtain ⟨line, hline, hroute⟩ := hdecorates.route
  obtain rfl := Option.some.inj (hline.symm.trans h.below)
  have hdecorator := hroute.startsDecorator
  rw [h.not_decorator] at hdecorator
  cases hdecorator

theorem getElem?_length_append {α : Type} (front rest : List α) (a : α) :
    (front ++ a :: rest)[front.length]? = some a := by
  rw [List.getElem?_append_right (Nat.le_refl _), Nat.sub_self]
  rfl

theorem getElem?_append_cons {α : Type} {front rest : List α} {a : α} {k : Nat}
    (hk : front.length < k) : (front ++ a :: rest)[k]? = rest[k - front.length - 1]? := by
  obtain ⟨m, rfl⟩ : ∃ m, k = front.length + (m + 1) := ⟨k - front.length - 1, by omega⟩
  rw [List.getElem?_append_right (by omega), Nat.add_sub_cancel_left,
    List.getElem?_cons_succ, Nat.add_sub_cancel]

theorem runAt_append (hrun : ∀ l ∈ run, startsDecorator l = true)
    (hnext : startsDecorator next = false) :
    RunAt (front ++ route :: (run ++ next :: below)) front.length
      (front ++ route :: run).length next where
  lt := by simp
  run k hfront hk := by
    have hm : k - front.length - 1 < run.length := by
      simp only [List.length_append, List.length_cons] at hk
      omega
    refine ⟨_, ?_, hrun _ (List.getElem_mem hm)⟩
    rw [getElem?_append_cons hfront, List.getElem?_append_left hm,
      List.getElem?_eq_getElem hm]
  below := by
    have hbelow := getElem?_length_append (front ++ route :: run) below next
    rwa [List.append_assoc, List.cons_append] at hbelow
  not_decorator := hnext

/-- A handler is put in front of those behind its body. -/
theorem Placed.cons {e : Extent} {handler : Handler}
    (h : Placed lines e.stop handlers extents) (hyields : e.Yields lines handler)
    (hroute : ∃ line, lines[start]? = some line ∧ StartsRoute line)
    (hrun : RunAt lines start e.definition definition) (hdef : Defines definition name)
    (hlt : e.definition < e.stop) :
    Placed lines start (handler :: handlers) (e :: extents) where
  yields := .cons hyields h.yields
  apart := .cons (fun f hf => Nat.le_of_lt (h.behind f hf)) h.apart
  behind f hf := by
    rcases List.mem_cons.mp hf with rfl | hf
    · exact hrun.lt
    · have := h.behind f hf
      have := hrun.lt
      omega
  definition_iff j := by
    constructor
    · rintro ⟨f, hf, rfl⟩
      rcases List.mem_cons.mp hf with rfl | hf
      · refine ⟨start, Nat.le_refl _, ⟨hrun.lt, hroute, hrun.run, ?_⟩, ?_⟩
        · exact ⟨definition, name, hrun.below, hdef⟩
        · rintro g hg ⟨hstart, -⟩
          have := hrun.lt
          rcases List.mem_cons.mp hg with rfl | hg
          · omega
          · have := h.behind g hg
            omega
      · obtain ⟨i, hi, hdecorates, hfree⟩ := (h.definition_iff _).mp ⟨f, hf, rfl⟩
        refine ⟨i, ?_, hdecorates, ?_⟩
        · have := hrun.lt
          omega
        · rintro g hg hcovers
          rcases List.mem_cons.mp hg with rfl | hg
          · exact Nat.not_lt.mpr hi hcovers.2
          · exact hfree g hg hcovers
    · rintro ⟨i, hi, hdecorates, hfree⟩
      obtain ⟨hcovers, hfree⟩ := List.forall_mem_cons.mp hfree
      rcases Nat.lt_trichotomy i e.definition with hlt | rfl | hlt
      · exact ⟨e, List.mem_cons_self, (hrun.eq_of_decorates hi hlt hdecorates).symm⟩
      · exact absurd hdecorates hrun.not_decorates
      · -- The place is not in the body, so it stands behind it.
        have hstop : e.stop ≤ i := Nat.le_of_not_lt fun hstop => hcovers ⟨hlt, hstop⟩
        obtain ⟨f, hf, hj⟩ := (h.definition_iff j).mpr ⟨i, hstop, hdecorates, hfree⟩
        exact ⟨f, List.mem_cons_of_mem e hf, hj⟩

end

/-- The handlers that are read have extents. -/
theorem Checks.Reading.exists_extents {rest : List (List Char)} {handlers : List Handler}
    (h : Reading rest handlers) (front : List (List Char)) :
    ∃ extents, Placed (front ++ rest) front.length handlers extents := by
  induction h generalizing front with
  | done =>
    refine ⟨[], .nil fun i j hi hdecorates => ?_⟩
    obtain ⟨line, hline, -⟩ := hdecorates.route
    rw [List.append_nil, List.getElem?_eq_none hi] at hline
    cases hline
  | @skip line lines handlers hline _ ih =>
    obtain ⟨extents, hplaced⟩ := ih (front ++ [line])
    rw [List.append_assoc, List.singleton_append, List.length_append] at hplaced
    refine ⟨extents, hplaced.widen (Nat.le_succ _) fun i j hi hlt hdecorates => ?_⟩
    obtain rfl : i = front.length := Nat.le_antisymm (Nat.le_of_lt_succ hlt) hi
    obtain ⟨line', hline', hroute⟩ := hdecorates.route
    rw [getElem?_length_append] at hline'
    exact hline (Option.some.inj hline' ▸ hroute)
  | @alone route run hroute hrun =>
    -- The definition would have to be one of the decorators.
    refine ⟨[], .nil fun i j hi hdecorates => ?_⟩
    obtain ⟨line, name, hline, hdef⟩ := hdecorates.defines
    rw [getElem?_append_cons (Nat.lt_of_le_of_lt hi hdecorates.lt)] at hline
    have hdecorator := hrun line (List.mem_of_getElem? hline)
    rw [hdef.not_startsDecorator] at hdecorator
    cases hdecorator
  | @other route next run below handlers hroute hrun hnext hdef _ ih =>
    obtain ⟨extents, hplaced⟩ := ih (front ++ route :: run)
    have hrunAt := @runAt_append front run below route next hrun hnext
    rw [List.append_assoc, List.cons_append] at hplaced
    refine ⟨extents, hplaced.widen (Nat.le_of_lt hrunAt.lt) fun i j hi hlt hdecorates => ?_⟩
    obtain rfl := hrunAt.eq_of_decorates hi hlt hdecorates
    obtain ⟨line, name, hline, hdefines⟩ := hdecorates.defines
    obtain rfl := Option.some.inj (hrunAt.below.symm.trans hline)
    exact hdef name hdefines
  | @handler route definition name run body below handlers hroute hrun hdef hbody hbelow _ ih =>
    obtain ⟨extents, hplaced⟩ := ih (front ++ route :: (run ++ definition :: body))
    have hrunAt := @runAt_append front run (body ++ below) route definition hrun
      hdef.not_startsDecorator
    have hstop : (front ++ route :: (run ++ definition :: body)).length =
        (front ++ route :: run).length + 1 + body.length := by
      simp only [List.length_append, List.length_cons]
      omega
    have hlines : front ++ route :: (run ++ definition :: (body ++ below)) =
        (front ++ route :: run) ++ definition :: (body ++ below) := by simp
    have hyields := Extent.Yields.mk hlines hdef
      (fun l hl => isInside_line_iff.mp (hbody l hl)) fun l hl => by
        have hl := hbelow l hl
        rwa [← Bool.not_eq_true, isInside_line_iff, not_or, Nat.not_lt] at hl
    simp only [List.append_assoc, List.cons_append] at hplaced
    rw [hstop] at hplaced
    exact ⟨_, hplaced.cons hyields ⟨route, getElem?_length_append _ _ _, hroute⟩ hrunAt
      hdef (Nat.lt_add_right _ (Nat.lt_succ_self _))⟩

/-- Each handler has a line of its own that starts a route decorator. -/
theorem Checks.Reading.length_le {lines : List (List Char)} {handlers : List Handler}
    (h : Reading lines handlers) :
    handlers.length ≤ lines.countP fun l => decide (StartsRoute l) := by
  induction h with
  | done => exact Nat.le_refl 0
  | @skip line lines handlers hline _ ih =>
    rwa [List.countP_cons_of_neg (by simpa using hline)]
  | alone _ _ => exact Nat.zero_le _
  | @other route next run below handlers hroute hrun hnext hdef _ ih =>
    rw [List.countP_cons, List.countP_append]
    omega
  | @handler route definition name run body below handlers hroute hrun hdef hbody hbelow _ ih =>
    rw [List.countP_cons_of_pos (by simpa using hroute), List.countP_append, List.countP_cons,
      List.countP_append, List.length_cons]
    omega

/-- The handlers of an application stand one below the other, each with a body that is as
long as it can be.  A function is a handler exactly if some decorator of a route belongs to
it that is not in the body of a handler.  There are at most as many handlers as lines that
start such decorators. -/
theorem Checks.routeHandlers_extents (content : List Char) :
    ∃ extents : List Extent,
      List.Forall₂ (Extent.Yields (lines content)) extents (routeHandlers content) ∧
      extents.Pairwise (fun e f => e.stop ≤ f.definition) ∧
      (∀ j, (∃ e ∈ extents, e.definition = j) ↔
        ∃ i, Decorates (lines content) i j ∧ ∀ e ∈ extents, ¬e.Covers i) ∧
      (routeHandlers content).length ≤
        (lines content).countP fun l => decide (StartsRoute l) := by
  have hreading := reading_handlersFrom (lines content)
  obtain ⟨extents, hplaced⟩ := hreading.exists_extents []
  refine ⟨extents, hplaced.yields, hplaced.apart, fun j => ?_, hreading.length_le⟩
  rw [hplaced.definition_iff]
  exact exists_congr fun i => and_iff_right (Nat.zero_le i)

end Preflight
