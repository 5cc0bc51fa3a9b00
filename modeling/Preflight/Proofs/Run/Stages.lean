import Preflight.Proofs.Evaluation
import Preflight.Proofs.Run.Calls

/-!
# The stages that a run reaches

`History.Stands` describes the history of any calls, in any order and in
surroundings that change from call to call.  Which of its four shapes a
history has depends on two things only: what the first load among the calls
has found, and whether the rules have been called after it.

* `Stands.take` is the step: one call more keeps the description.
* `stands_after` is the run: it holds after any calls.
* `Extends` is what later calls leave alone, again as a step
  (`Stands.extends_take`) and as a run (`Stands.extends_foldl`).

`stages_after` puts these together for every history that a run can have.
-/

namespace Preflight

/-- The stages that may follow a stage. -/
inductive Stage.Follows (target : Target) : Stage → Stage → Prop where
  | load : Follows target .notStarted .contentLoaded
  | fail : Follows target .notStarted .failed
  | evaluate : Follows target .contentLoaded .rulesRun
  | parse (htarget : target.isPowerShell) : Follows target .rulesRun .syntaxChecked
  | probe (htarget : target = .flask) : Follows target .rulesRun .liveProbeRun

/-- The stages of a run that has run its rules. -/
inductive Stage.PastRules (target : Target) : Stage → Prop where
  | rulesRun : PastRules target .rulesRun
  | syntaxChecked (htarget : target.isPowerShell) :
      PastRules target .syntaxChecked
  | liveProbeRun (htarget : target = .flask) : PastRules target .liveProbeRun

namespace History

/-! ## What has been called -/

/-- What the first load among some calls finds under a path: nothing yet
without a load, and otherwise the text, if there is one. -/
def firstRead? (path : String) (calls : List Call) :
    Option (Option (List Char)) :=
  (calls.find? (·.step = .load)).map (·.around.files.text? path)

/-- The rules have been called after a load. -/
def RulesCalled (calls : List Call) : Prop :=
  List.Sublist [.load, .runRules] (calls.map (·.step))

/-- Only the first load reads. -/
theorem firstRead?_concat_of_some {path : String} {calls : List Call}
    {found : Option (List Char)} (h : firstRead? path calls = some found)
    (call : Call) : firstRead? path (calls ++ [call]) = some found := by
  obtain ⟨first, hfirst, hfound⟩ := Option.map_eq_some_iff.mp h
  rw [firstRead?, List.find?_append, hfirst]
  exact congrArg some hfound

theorem firstRead?_concat_of_none {path : String} {calls : List Call}
    (h : firstRead? path calls = none) (call : Call) :
    firstRead? path (calls ++ [call]) =
      if call.step = .load then some (call.around.files.text? path) else none := by
  rw [firstRead?, Option.map_eq_none_iff] at h
  rw [firstRead?, List.find?_append, h]
  by_cases hload : call.step = .load <;> simp [hload]

/-- Something has been read exactly if a load has been called. -/
theorem load_mem_iff {path : String} {calls : List Call} :
    .load ∈ calls.map (·.step) ↔ firstRead? path calls ≠ none := by
  simp [firstRead?, List.find?_eq_none]

theorem load_mem_of_read {path : String} {calls : List Call}
    {found : Option (List Char)} (h : firstRead? path calls = some found) :
    .load ∈ calls.map (·.step) :=
  load_mem_iff.mpr (h ▸ Option.some_ne_none found)

theorem RulesCalled.load_mem {calls : List Call} (h : RulesCalled calls) :
    .load ∈ calls.map (·.step) :=
  h.subset List.mem_cons_self

/-- A call of the rules counts only after a load. -/
theorem rulesCalled_concat_iff {calls : List Call} {call : Call} :
    RulesCalled (calls ++ [call]) ↔
      RulesCalled calls ∨
        call.step = .runRules ∧ .load ∈ calls.map (·.step) := by
  -- Read from the end, the new call comes first.
  have hreverse : ∀ steps, List.Sublist [.load, .runRules] steps ↔
      List.Sublist [Verification.Step.runRules, .load] steps.reverse :=
    fun _ => List.reverse_sublist.symm
  rw [RulesCalled, RulesCalled, hreverse, hreverse, List.map_append,
    List.reverse_append, List.map_singleton, List.reverse_singleton,
    List.singleton_append, List.sublist_cons_iff]
  constructor
  · rintro (hearlier | ⟨rest, heq, hload⟩)
    · exact .inl hearlier
    · obtain ⟨hstep, rfl⟩ := List.cons.inj heq
      exact .inr ⟨hstep.symm, by simpa using hload⟩
  · rintro (hearlier | ⟨hstep, hload⟩)
    · exact .inl hearlier
    · exact .inr ⟨[.load], by rw [hstep], by simpa using hload⟩

/-! ## The four shapes of a history -/

/-- What the history of some calls looks like. -/
inductive Stands (request : Request) (config : Config) (calls : List Call) :
    History → Prop where
  /-- Nothing has been read yet. -/
  | fresh (hread : firstRead? request.path calls = none) :
      Stands request config calls (.start request config)
  /-- There was no text. -/
  | failed (script : ScriptInfo) (message : String) (ruleId : Option RuleId)
      (hread : firstRead? request.path calls = some none) :
      Stands request config calls
        ⟨.fail { Verification.start request config with script } message ruleId, []⟩
  /-- There is a text, and no rule has run. -/
  | loaded (script : ScriptInfo) (text : List Char)
      (hread : firstRead? request.path calls = some (some text))
      (hrules : ¬RulesCalled calls) :
      Stands request config calls
        ⟨(Verification.start request config).withText script text, []⟩
  /-- The rules have run on the text. -/
  | evaluated (script : ScriptInfo) (text : List Char) (stage : Stage)
      (coverage : Coverage) (diagnostics : Diagnostics) (events : List Event)
      (hread : firstRead? request.path calls = some (some text))
      (hrules : RulesCalled calls)
      (hpast : stage.PastRules request.target)
      (hcoverage : coverage.evaluated =
        Rule.applicableIds Rule.catalog request.target
          (Context.resolve request config.detection config.endpoints text).profile) :
      Stands request config calls
        ⟨{ (Verification.start request config).withText script text with
            stage, coverage, diagnostics }, events⟩

variable {request : Request} {config : Config} {calls : List Call}

/-- A call that does nothing keeps the description. -/
theorem Stands.of_idle {h : History} (hstands : Stands request config calls h)
    {call : Call} (hidle : h.state.Idle call.step) :
    Stands request config (calls ++ [call]) h := by
  cases hstands with
  | fresh hread =>
    refine .fresh ?_
    rw [firstRead?_concat_of_none hread, if_neg]
    intro hload
    rw [hload] at hidle
    exact hidle rfl
  | failed script message ruleId hread =>
    exact .failed script message ruleId (firstRead?_concat_of_some hread call)
  | loaded script text hread hrules =>
    refine .loaded script text (firstRead?_concat_of_some hread call) ?_
    rw [rulesCalled_concat_iff]
    rintro (hcalled | ⟨hcall, _⟩)
    · exact hrules hcalled
    · rw [hcall] at hidle
      rcases hidle with hstage | hcontext
      · exact hstage rfl
      · cases hcontext
  | evaluated script text stage coverage diagnostics events hread hrules hpast
      hcoverage =>
    exact .evaluated script text stage coverage diagnostics events
      (firstRead?_concat_of_some hread call)
      (rulesCalled_concat_iff.mpr (.inl hrules)) hpast hcoverage

/-- One call more keeps the description. -/
theorem Stands.take {h : History} (hstands : Stands request config calls h)
    (call : Call) : Stands request config (calls ++ [call]) (h.take call) := by
  have hmoves := h.take_moves call
  generalize h.take call = next at hmoves ⊢
  obtain ⟨step, around⟩ := call
  cases hmoves with
  | idle hidle => exact hstands.of_idle hidle
  | reject script message ruleId hstage htext =>
    cases hstands with
    | fresh hread =>
      refine .failed script message ruleId ?_
      rw [firstRead?_concat_of_none hread, if_pos rfl]
      exact congrArg some htext
    | failed | loaded => cases hstage
    | evaluated _ _ _ _ _ _ _ _ hpast => cases hpast <;> cases hstage
  | accept script text hstage htext =>
    cases hstands with
    | fresh hread =>
      refine .loaded script text ?_ ?_
      · rw [firstRead?_concat_of_none hread, if_pos rfl]
        exact congrArg some htext
      · rw [rulesCalled_concat_iff]
        rintro (hcalled | ⟨hcall, _⟩)
        · exact load_mem_iff.mp hcalled.load_mem hread
        · cases hcall
    | failed | loaded => cases hstage
    | evaluated _ _ _ _ _ _ _ _ hpast => cases hpast <;> cases hstage
  | evaluate context hstage hcontext =>
    cases hstands with
    | fresh | failed => cases hstage
    | loaded script text hread hrules =>
      cases hcontext
      have hevaluated := Rule.evaluate_evaluated Rule.catalog
        (.resolve request config.detection config.endpoints text) .empty
      rw [Context.resolve_target] at hevaluated
      exact .evaluated script text _ _ _ _ (firstRead?_concat_of_some hread _)
        (rulesCalled_concat_iff.mpr (.inr ⟨rfl, load_mem_of_read hread⟩)) .rulesRun
        hevaluated
    | evaluated _ _ _ _ _ _ _ _ hpast => cases hpast <;> cases hstage
  | parse hstage hwants =>
    cases hstands with
    | fresh | failed | loaded => cases hstage
    | evaluated script text stage coverage diagnostics events hread hrules hpast
        hcoverage =>
      exact .evaluated script text _ _ _ _ (firstRead?_concat_of_some hread _)
        (rulesCalled_concat_iff.mpr (.inl hrules))
        (.syntaxChecked (Verification.isPowerShell_of_wantsParser hwants))
        hcoverage
  | probe result hstage hwants =>
    cases hstands with
    | fresh | failed | loaded => rcases hstage with hstage | hstage <;> cases hstage
    | evaluated script text stage coverage diagnostics events hread hrules hpast
        hcoverage =>
      exact .evaluated script text _ _ _ _ (firstRead?_concat_of_some hread _)
        (rulesCalled_concat_iff.mpr (.inl hrules))
        (.liveProbeRun (Verification.eq_flask_of_wantsProbe hwants))
        hcoverage

theorem Stands.foldl {h : History} (hstands : Stands request config calls h)
    (more : List Call) :
    Stands request config (calls ++ more) (more.foldl History.take h) := by
  induction more generalizing calls h with
  | nil => rwa [List.append_nil]
  | cons call more ih =>
    rw [List.append_cons]
    exact ih (hstands.take call)

/-- Every history has one of the four shapes. -/
theorem stands_after (request : Request) (config : Config) (calls : List Call) :
    Stands request config calls (after request config calls) :=
  (Stands.fresh rfl : Stands request config [] _).foldl calls

/-! ## What later calls leave alone -/

/-- What a call keeps of what was there before. -/
structure Extends (before after : History) : Prop where
  context : ∀ context, before.state.context = some context →
    after.state.context = some context
  failed : before.state.stage = .failed → after = before
  diagnostics : before.state.diagnostics.Grows after.state.diagnostics

theorem Extends.refl (h : History) : h.Extends h :=
  ⟨fun _ hcontext => hcontext, fun _ => rfl, .refl _⟩

theorem Extends.trans {h h' h'' : History} (hfirst : h.Extends h')
    (hthen : h'.Extends h'') : h.Extends h'' where
  context context hcontext := hthen.context _ (hfirst.context _ hcontext)
  failed hfailed := by
    have heq := hfirst.failed hfailed
    rw [hthen.failed (heq ▸ hfailed), heq]
  diagnostics := hfirst.diagnostics.trans hthen.diagnostics

/-- Only a script that has not been read yet has no context. -/
theorem Stands.context_eq_none {h : History}
    (hstands : Stands request config calls h)
    (hstage : h.state.stage = .notStarted) : h.state.context = none := by
  cases hstands with
  | fresh => rfl
  | failed | loaded => cases hstage
  | evaluated _ _ _ _ _ _ _ _ hpast => cases hpast <;> cases hstage

/-- The context stays once it is there. -/
theorem Stands.context_take {h : History}
    (hstands : Stands request config calls h) (call : Call) {context : Context}
    (hcontext : h.state.context = some context) :
    (h.take call).state.context = some context := by
  have hmoves := h.take_moves call
  generalize h.take call = next at hmoves ⊢
  obtain ⟨step, around⟩ := call
  cases hmoves with
  | accept script text hstage htext =>
    rw [hstands.context_eq_none hstage] at hcontext
    cases hcontext
  | idle | reject | evaluate | parse | probe => exact hcontext

/-- Diagnostics are only ever added. -/
theorem grows_take (h : History) (call : Call) :
    h.state.diagnostics.Grows (h.take call).state.diagnostics := by
  have hmoves := h.take_moves call
  generalize h.take call = next at hmoves ⊢
  obtain ⟨step, around⟩ := call
  cases hmoves with
  | idle | accept => exact .refl _
  | reject | parse => exact .push _ _
  | evaluate context hstage hcontext =>
    rw [Verification.withRules, Rule.evaluate_diagnostics]
    exact .pushAll _ _
  | probe => exact .pushAll _ _

theorem Stands.extends_take {h : History}
    (hstands : Stands request config calls h) (call : Call) :
    h.Extends (h.take call) where
  context _ hcontext := hstands.context_take call hcontext
  failed hfailed := take_of_idle (Verification.idle_of_failed hfailed call.step)
  diagnostics := grows_take h call

theorem Stands.extends_foldl {h : History}
    (hstands : Stands request config calls h) (more : List Call) :
    h.Extends (more.foldl History.take h) := by
  induction more generalizing calls h with
  | nil => exact .refl h
  | cons call more ih =>
    exact (hstands.extends_take call).trans (ih (hstands.take call))

/-! ## The stage machine -/

/-- What the stage of a run says of the rest of its history. -/
structure Sound (h : History) : Prop where
  context : h.state.context.isSome ↔ h.state.stage ∈
    [Stage.contentLoaded, .rulesRun, .syntaxChecked, .liveProbeRun]
  quiet : h.state.stage = .notStarted ∨ h.state.stage = .contentLoaded →
    h.state.diagnostics = .empty
  failed : h.state.stage = .failed →
    (∃ d, d.severity = .error ∧ h.state.diagnostics = ⟨[d], [], []⟩) ∧
      h.state.coverage = .empty ∧ h.events = []

theorem Stands.sound {h : History} (hstands : Stands request config calls h) :
    h.Sound := by
  cases hstands with
  | fresh =>
    refine ⟨?_, fun _ => rfl, fun hfailed => nomatch hfailed⟩
    simp [start, Verification.start]
  | failed script message ruleId =>
    refine ⟨?_, ?_, ?_⟩
    · simp [Verification.fail, Verification.start]
    · rintro (hstage | hstage) <;> cases hstage
    · exact fun _ => ⟨⟨_, rfl, rfl⟩, rfl, rfl⟩
  | loaded script text =>
    refine ⟨?_, fun _ => rfl, fun hfailed => nomatch hfailed⟩
    simp [Verification.withText]
  | evaluated script text stage coverage diagnostics events _ _ hpast =>
    refine ⟨?_, ?_, ?_⟩
    · cases hpast <;> simp [Verification.withText]
    · rintro (hstage | hstage) <;> cases hpast <;> cases hstage
    · intro hfailed
      cases hpast <;> cases hfailed

/-- No call changes what was asked for. -/
theorem Stands.request_eq {h : History}
    (hstands : Stands request config calls h) : h.state.request = request := by
  cases hstands <;> rfl

/-- The external parser is never asked about a Flask application. -/
theorem Stands.target_ne_flask {h : History}
    (hstands : Stands request config calls h)
    (hstage : h.state.stage = .syntaxChecked) : request.target ≠ .flask := by
  intro hflask
  cases hstands with
  | fresh | failed | loaded => cases hstage
  | evaluated _ _ _ _ _ _ _ _ hpast =>
    cases hpast with
    | rulesRun | liveProbeRun => cases hstage
    | syntaxChecked htarget =>
      rw [hflask] at htarget
      cases htarget

/-- A call leaves the stage alone or moves it along the stage machine. -/
theorem Stands.stage_take {h : History}
    (hstands : Stands request config calls h) (call : Call) :
    (h.take call).state.stage = h.state.stage ∨
      Stage.Follows request.target h.state.stage (h.take call).state.stage := by
  have hmoves := h.take_moves call
  generalize h.take call = next at hmoves ⊢
  obtain ⟨step, around⟩ := call
  cases hmoves with
  | idle => exact .inl rfl
  | reject script message ruleId hstage => exact .inr (hstage ▸ .fail)
  | accept script text hstage => exact .inr (hstage ▸ .load)
  | evaluate context hstage => exact .inr (hstage ▸ .evaluate)
  | parse hstage hwants =>
    have htarget := Verification.isPowerShell_of_wantsParser hwants
    rw [hstands.request_eq] at htarget
    exact .inr (hstage ▸ .parse htarget)
  | probe result hstage hwants =>
    have htarget := Verification.eq_flask_of_wantsProbe hwants
    rw [hstands.request_eq] at htarget
    rcases hstage with hstage | hstage
    · exact .inr (hstage ▸ .probe htarget)
    · exact absurd htarget (hstands.target_ne_flask hstage)

/-- The stage machine, for calls in any order and in any surroundings.  What
a history says of its stage is sound, one call more moves the stage along the
machine or leaves it alone, and no further calls take back a context, a
failure or a diagnostic. -/
theorem stages_after (request : Request) (config : Config) (calls : List Call) :
    (after request config calls).Sound ∧
      (∀ call,
        ((after request config calls).take call).state.stage =
            (after request config calls).state.stage ∨
          Stage.Follows request.target (after request config calls).state.stage
            ((after request config calls).take call).state.stage) ∧
      ∀ more, (after request config calls).Extends
        (after request config (calls ++ more)) := by
  have hstands := stands_after request config calls
  refine ⟨hstands.sound, fun call => hstands.stage_take call, fun more => ?_⟩
  rw [after_append]
  exact hstands.extends_foldl more

end History

end Preflight
