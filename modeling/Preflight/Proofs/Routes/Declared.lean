import Preflight.Proofs.Catalog
import Preflight.Proofs.Routes.Decorator

/-!
# The routes that an application declares

An `AppLine` is a call of a route decorator or some text without the mark of a
decorator.

* `AppLine.scans_routeDecorator`: on a call a search finds its route, on other lines
  nothing.  From the lines one comes to the application by induction
  (`routes_script`): the routes come back as they were declared, in order.
* `AppLine.reports_endpoints`: what is reported of the expected endpoints.
-/

namespace Preflight

open Text

/-- A line that calls a route decorator, or some text without the mark of one. -/
inductive AppLine where
  | decorator (call : RouteCall)
  | other (text : List Char) (no_mark : '@' ∉ text)

namespace AppLine

/-- The line as text. -/
def text : AppLine → List Char
  | decorator call => call.text
  | other text _ => text

/-- The route that a line declares. -/
def route? : AppLine → Option Checks.Route
  | decorator call => some call.route
  | other _ _ => none

/-- The lines one below the other. -/
def script (lines : List AppLine) : List Char := List.intercalate ['\n'] (lines.map text)

/-- The routes that the lines declare, in order. -/
def declared (lines : List AppLine) : List Checks.Route := lines.filterMap route?

theorem declared_cons (l : AppLine) (more : List AppLine) :
    declared (l :: more) = l.route?.toList ++ declared more := by
  cases l <;> rfl

theorem script_singleton (l : AppLine) : script [l] = l.text :=
  List.intercalate_singleton

theorem script_cons_cons (l next : AppLine) (more : List AppLine) :
    script (l :: next :: more) = l.text ++ ('\n' :: script (next :: more)) :=
  List.intercalate_cons_cons.trans (List.append_assoc _ _ _)

/-- Where a call stands a search finds its route, on other lines it finds nothing. -/
theorem scans_routeDecorator (l : AppLine) (front back : List Char) :
    ∃ trail : List Match,
      trail.filterMap (Checks.routeOf? (front ++ (l.text ++ back))) = l.route?.toList ∧
        Checks.routeDecorator.Scans .sensitive front l.text back trail := by
  cases l with
  | decorator call =>
    obtain ⟨found, hroute, hscans⟩ := call.scans front back
    refine ⟨[found], ?_, hscans⟩
    exact List.filterMap_cons_some hroute
  | other text no_mark =>
    refine ⟨[], rfl, (Checks.marked_routeDecorator.silent ?_ front back).scans⟩
    rintro _ hc rfl
    exact no_mark hc

/-- A search through an application finds the routes that its lines declare. -/
theorem scans_routeDecorator_script : ∀ (lines : List AppLine) (front : List Char),
    ∃ trail : List Match,
      trail.filterMap (Checks.routeOf? (front ++ script lines)) = declared lines ∧
        Checks.routeDecorator.Scans .sensitive front (script lines) [] trail
  | [], front => ⟨[], rfl, (Pattern.silent_nil front []).scans⟩
  | [l], front => by
    obtain ⟨trail, hroutes, hscans⟩ := l.scans_routeDecorator front []
    rw [List.append_nil] at hroutes
    rw [script_singleton]
    refine ⟨trail, ?_, hscans⟩
    rw [declared_cons]
    exact hroutes.trans (List.append_nil _).symm
  | l :: next :: more, front => by
    obtain ⟨trail, hroutes, hscans⟩ :=
      l.scans_routeDecorator front ('\n' :: script (next :: more) ++ [])
    obtain ⟨later, hlater, hrest⟩ :=
      scans_routeDecorator_script (next :: more) (front ++ l.text ++ ['\n'])
    have hsilent : Checks.routeDecorator.Silent .sensitive (front ++ l.text) ['\n']
        (script (next :: more) ++ []) :=
      Checks.marked_routeDecorator.silent (by simp) _ _
    refine ⟨trail ++ later, ?_, ?_⟩
    · rw [declared_cons, List.filterMap_append, ← hroutes, ← hlater, script_cons_cons,
        List.append_nil, List.append_assoc, List.append_assoc]
      rfl
    · rw [script_cons_cons]
      exact hscans.append (hsilent.scans.append hrest)

/-- The routes come back as they were declared. -/
theorem routes_script (lines : List AppLine) :
    Checks.routes (script lines) = declared lines := by
  obtain ⟨trail, hroutes, hscans⟩ := scans_routeDecorator_script lines []
  rw [Checks.routes, Checks.marked_routeDecorator.solid.findAll_of_scans hscans]
  exact hroutes

/-- The endpoints that are expected and that no line declares, in the order in which
they are expected. -/
def missing (c : Context) (lines : List AppLine) : List String :=
  c.endpoints.filter fun e => ∀ r ∈ declared lines, r.path ≠ e.toList

/-- The routes of an application come back from its text.  Endpoints are reported
exactly if some route is declared and some expected endpoint is the path of none, and
then exactly these endpoints are told, in the order in which they are expected. -/
theorem reports_endpoints (c : Context) (lines : List AppLine) :
    let scripted : Context := { c with content := script lines }
    Checks.routes scripted.content = declared lines ∧
      ((∃ message, .violation message ∈ Checks.expectedEndpoints scripted) ↔
        declared lines ≠ [] ∧
          ∃ e ∈ c.endpoints, ∀ r ∈ declared lines, r.path ≠ e.toList) ∧
      Rule.Reports .flaskExpectedEndpoints scripted
        (if declared lines = [] ∨ missing c lines = [] then []
        else
          [.violation
            ("Missing expected endpoints: " ++ String.intercalate ", " (missing c lines))]) := by
  intro scripted
  have hmissing : (c.endpoints.filter fun e =>
      !(declared lines).any (·.path == e.toList)) = missing c lines := by
    refine List.filter_congr fun e _ => ?_
    rw [Bool.eq_iff_iff]
    simp
  have hreport : Checks.expectedEndpoints scripted =
      if declared lines = [] ∨ missing c lines = [] then []
      else
        [.violation
          ("Missing expected endpoints: " ++ String.intercalate ", " (missing c lines))] := by
    simp only [Checks.expectedEndpoints, scripted, routes_script]
    cases hroutes : declared lines with
    | nil => exact (if_pos (.inl rfl)).symm
    | cons r more =>
      simp only [← hroutes, hmissing]
      have hne : declared lines ≠ [] := hroutes ▸ List.cons_ne_nil r more
      cases hnames : missing c lines with
      | nil => exact (if_pos (.inr rfl)).symm
      | cons e names => exact (if_neg (not_or_intro hne (List.cons_ne_nil e names))).symm
  refine ⟨routes_script lines, ?_, hreport ▸ .of_row rfl scripted⟩
  have hsome : missing c lines ≠ [] ↔
      ∃ e ∈ c.endpoints, ∀ r ∈ declared lines, r.path ≠ e.toList := by
    rw [missing, Ne, List.filter_eq_nil_iff]
    simp
  rw [hreport, ← hsome, ← not_or]
  by_cases hnone : declared lines = [] ∨ missing c lines = []
  · rw [if_pos hnone]
    exact iff_of_false nofun (not_not_intro hnone)
  · rw [if_neg hnone]
    exact iff_of_true ⟨_, List.mem_singleton_self _⟩ hnone

/-- A path may look like a decorator of its own. -/
example : Checks.routes
    "@app.route('/@b.get(', methods=['GET' , \"PUT\"])".toList =
      [⟨"/@b.get(".toList, "GET,PUT".toList⟩] := by
  decide +kernel

end AppLine

end Preflight
