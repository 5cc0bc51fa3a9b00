import Preflight.Verification

/-!
# Calls of a run

The steps of a run may be called in any order and any number of times, and
what is around them may change from one call to the next.  A `Call` is a step
together with the surroundings that it meets, and a `History` is a run
together with all that it has done to them so far.

`History.Moves` says what a call can do.  Either its step is idle
(`Verification.Idle`), and nothing happens, or it is one of five moves, each
with the condition under which it is made.  `History.take_moves` is the
inversion from which the later proofs about calls start, so none of them
opens a step again.

`ProfileInfo.resolve` is all that a run makes of the profile
(`Context.resolve_eq`).
-/

namespace Preflight

/-! ## Texts of a file system -/

/-- The text under a path: that of a regular file whose bytes can be read and
are text. -/
def FileSystem.text? (files : FileSystem) (path : String) :
    Option (List Char) :=
  match files path with
  | .file bytes => decodeScript bytes
  | _ => none

theorem FileSystem.text?_eq_some {files : FileSystem} {path : String}
    {text : List Char} (h : files.text? path = some text) :
    ∃ bytes, files path = .file bytes ∧ decodeScript bytes = some text := by
  rw [text?] at h
  split at h
  · exact ⟨_, ‹_›, h⟩
  · cases h

/-! ## The profile -/

/-- The profile of a text for a target, when the operator names a profile or
leaves it open. -/
def ProfileInfo.resolve (target : Target) (named : Option Profile)
    (policy : DetectionPolicy) (text : List Char) : ProfileInfo :=
  if target ≠ .pdq then .notApplicable
  else
    match named with
    | some p => ⟨some p, .explicit, none⟩
    | none =>
      let found := policy.detect text
      ⟨found.profile, if found.profile.isSome then .detected else .undetermined,
        some found.scores⟩

/-- The context of a text whose profile is resolved. -/
def Context.ofProfile (request : Request) (endpoints : List String)
    (text : List Char) (info : ProfileInfo) : Context :=
  { path := request.path, content := text, target := request.target,
    profile := info.profile, source := info.source, scores := info.scores,
    overrides := request.overrides, endpoints }

theorem Context.resolve_eq (request : Request) (policy : DetectionPolicy)
    (endpoints : List String) (text : List Char) :
    resolve request policy endpoints text =
      ofProfile request endpoints text
        (.resolve request.target request.overrides.profile policy text) := by
  unfold resolve ProfileInfo.resolve
  split
  · rfl
  · cases request.overrides.profile <;> rfl

/-- A script is looked at for the target that was asked for. -/
theorem Context.resolve_target (request : Request) (policy : DetectionPolicy)
    (endpoints : List String) (text : List Char) :
    (resolve request policy endpoints text).target = request.target := by
  rw [resolve_eq]
  rfl

theorem Context.resolve_content (request : Request) (policy : DetectionPolicy)
    (endpoints : List String) (text : List Char) :
    (resolve request policy endpoints text).content = text := by
  rw [resolve_eq]
  rfl

namespace Verification

/-! ## What a step does -/

/-- The step has to wait for its stage, or it has passed, or the step is not
wanted. -/
def Idle (v : Verification) : Step → Prop
  | .load => v.stage ≠ .notStarted
  | .runRules => v.stage ≠ .contentLoaded ∨ v.context = none
  | .checkSyntax => ¬(v.stage = .rulesRun ∧ v.wantsParser)
  | .probeLive =>
    ¬((v.stage = .rulesRun ∨ v.stage = .syntaxChecked) ∧ v.wantsProbe)

/-- An idle step does nothing. -/
theorem step_of_idle (files : FileSystem) (parser : Parser) (host : Host)
    {v : Verification} {step : Step} (h : v.Idle step) :
    v.step files parser host step = (v, []) := by
  cases step with
  | load =>
    have hstage : v.stage ≠ .notStarted := h
    rw [Verification.step, load, if_pos hstage]
  | runRules =>
    rw [Verification.step, runRules]
    rcases h with h | h
    · split
      · exact absurd ‹_› h
      · rfl
    · rw [h]
      split
      · exact absurd ‹_› (by simp)
      · rfl
  | checkSyntax =>
    have hcan : ¬(v.stage = .rulesRun ∧ v.wantsParser) := h
    rw [Verification.step, checkSyntax, if_neg hcan]
  | probeLive =>
    have hcan :
        ¬((v.stage = .rulesRun ∨ v.stage = .syntaxChecked) ∧ v.wantsProbe) := h
    rw [Verification.step, probeLive, if_neg hcan]

/-- A run that has failed is idle for good. -/
theorem idle_of_failed {v : Verification} (h : v.stage = .failed)
    (step : Step) : v.Idle step := by
  cases step <;> simp [Idle, h]

theorem isPowerShell_of_wantsParser {v : Verification} (h : v.wantsParser) :
    v.request.target.isPowerShell := by
  simp only [wantsParser, Bool.and_eq_true] at h
  exact h.1.1

theorem eq_flask_of_wantsProbe {v : Verification} (h : v.wantsProbe) :
    v.request.target = .flask := by
  simp only [wantsProbe, Bool.and_eq_true, beq_iff_eq] at h
  exact h.1.1

/-- At most one of the parser and the probe is wanted. -/
theorem not_wantsParser_and_wantsProbe (v : Verification) :
    ¬(v.wantsParser ∧ v.wantsProbe) := by
  rintro ⟨hparser, hprobe⟩
  have htarget := isPowerShell_of_wantsParser hparser
  rw [eq_flask_of_wantsProbe hprobe] at htarget
  cases htarget

theorem wantsProbe_eq_false {v : Verification} (h : v.wantsParser) :
    v.wantsProbe = false :=
  Bool.eq_false_iff.mpr fun hprobe =>
    v.not_wantsParser_and_wantsProbe ⟨h, hprobe⟩

theorem wantsParser_eq_false {v : Verification} (h : v.wantsProbe) :
    v.wantsParser = false :=
  Bool.eq_false_iff.mpr fun hparser =>
    v.not_wantsParser_and_wantsProbe ⟨hparser, h⟩

/-- A script that is not there, or is no text, fails the run. -/
theorem load_of_text_eq_none {files : FileSystem} {v : Verification}
    (hstage : v.stage = .notStarted)
    (htext : files.text? v.request.path = none) :
    ∃ script message ruleId,
      v.load files = fail { v with script } message ruleId := by
  rw [load, if_neg (not_not_intro hstage)]
  rw [FileSystem.text?] at htext
  cases hentry : files v.request.path with
  | missing => exact ⟨v.script, _, _, rfl⟩
  | directory => exact ⟨v.script, _, _, rfl⟩
  | unreadable osError =>
    simp only [Script.read, hentry, Entry.read, Entry.isFile]
    exact ⟨v.script, _, _, rfl⟩
  | file bytes =>
    rw [hentry] at htext
    simp only [Script.read, hentry, Entry.read, Entry.isFile, accept,
      Script.text?, htext]
    exact ⟨Script.info ⟨v.request.path, bytes⟩, _, _, rfl⟩

/-- The state of a run that has taken over the text of a script. -/
def withText (v : Verification) (script : ScriptInfo) (text : List Char) :
    Verification :=
  { v with
    script
    stage := .contentLoaded
    context :=
      some (.resolve v.request v.config.detection v.config.endpoints text) }

/-- The text of a script is taken over. -/
theorem load_of_file {files : FileSystem} {v : Verification}
    {bytes : List UInt8} {text : List Char} (hstage : v.stage = .notStarted)
    (hfile : files v.request.path = .file bytes)
    (htext : decodeScript bytes = some text) :
    v.load files = v.withText (Script.info ⟨v.request.path, bytes⟩) text := by
  rw [load, if_neg (not_not_intro hstage)]
  simp only [Script.read, hfile, Entry.read, Entry.isFile, accept,
    Script.text?, htext]
  rfl

/-- The state of a run that has run the rules. -/
def withRules (v : Verification) (context : Context) : Verification :=
  { v with
    stage := .rulesRun
    coverage := (Rule.evaluate Rule.catalog context v.diagnostics).1
    diagnostics := (Rule.evaluate Rule.catalog context v.diagnostics).2 }

theorem runRules_of_context {v : Verification} {context : Context}
    (hstage : v.stage = .contentLoaded) (hcontext : v.context = some context) :
    v.runRules = v.withRules context := by
  simp only [runRules, hstage, hcontext, withRules]

/-- The state of a run that has asked the external parser. -/
def withParse (v : Verification) (outcome : ParseOutcome) : Verification :=
  { v with
    stage := .syntaxChecked
    diagnostics := v.diagnostics.push outcome.diagnostic }

/-- The state of a run that has probed the application. -/
def withProbe (v : Verification) (result : LiveResult) : Verification :=
  { v with
    stage := .liveProbeRun
    diagnostics := v.diagnostics.pushAll result.diagnostics }

end Verification

/-! ## Calls and histories -/

/-- What a call meets. -/
structure Surroundings where
  files : FileSystem
  parser : Parser
  host : Host

/-- A step that is called. -/
structure Call where
  step : Verification.Step
  around : Surroundings

/-- A run with all that it has done to its surroundings so far. -/
structure History where
  state : Verification
  events : List Event

namespace History

/-- Nothing has been called yet. -/
def start (request : Request) (config : Config) : History :=
  ⟨.start request config, []⟩

/-- One call more. -/
def take (h : History) (call : Call) : History :=
  let (state, events) :=
    h.state.step call.around.files call.around.parser call.around.host call.step
  ⟨state, h.events ++ events⟩

/-- The history of some calls, one after the other. -/
def after (request : Request) (config : Config) (calls : List Call) : History :=
  calls.foldl take (start request config)

theorem after_append (request : Request) (config : Config)
    (calls more : List Call) :
    after request config (calls ++ more) =
      more.foldl take (after request config calls) :=
  List.foldl_append

theorem take_of_idle {h : History} {call : Call}
    (hidle : h.state.Idle call.step) : h.take call = h := by
  rw [take, Verification.step_of_idle _ _ _ hidle]
  simp

/-- What a step can do to a history. -/
inductive Moves (around : Surroundings) (h : History) :
    Verification.Step → History → Prop where
  | idle {step} (hidle : h.state.Idle step) : Moves around h step h
  | reject (script : ScriptInfo) (message : String) (ruleId : Option RuleId)
      (hstage : h.state.stage = .notStarted)
      (htext : around.files.text? h.state.request.path = none) :
      Moves around h .load
        ⟨.fail { h.state with script } message ruleId, h.events⟩
  | accept (script : ScriptInfo) (text : List Char)
      (hstage : h.state.stage = .notStarted)
      (htext : around.files.text? h.state.request.path = some text) :
      Moves around h .load ⟨h.state.withText script text, h.events⟩
  | evaluate (context : Context) (hstage : h.state.stage = .contentLoaded)
      (hcontext : h.state.context = some context) :
      Moves around h .runRules ⟨h.state.withRules context, h.events⟩
  | parse (hstage : h.state.stage = .rulesRun) (hwants : h.state.wantsParser) :
      Moves around h .checkSyntax
        ⟨h.state.withParse (around.parser h.state.request.path),
          h.events ++ [.parse h.state.request.path]⟩
  | probe (result : LiveResult)
      (hstage : h.state.stage = .rulesRun ∨ h.state.stage = .syntaxChecked)
      (hwants : h.state.wantsProbe)
      (hresult : result =
        h.state.config.live.run around.host Probe.stock h.state.request.path) :
      Moves around h .probeLive
        ⟨h.state.withProbe result, h.events ++ result.events⟩

/-- A call does what its step can do, and nothing else. -/
theorem take_moves (h : History) (call : Call) :
    Moves call.around h call.step (h.take call) := by
  by_cases hidle : h.state.Idle call.step
  · rw [take_of_idle hidle]
    exact .idle hidle
  obtain ⟨step, around⟩ := call
  cases step with
  | load =>
    have hstage : h.state.stage = .notStarted := Classical.not_not.mp hidle
    cases htext : around.files.text? h.state.request.path with
    | none =>
      obtain ⟨script, message, ruleId, hload⟩ :=
        Verification.load_of_text_eq_none hstage htext
      simp only [take, Verification.step, hload, List.append_nil]
      exact .reject script message ruleId hstage htext
    | some text =>
      obtain ⟨bytes, hfile, hdecode⟩ := FileSystem.text?_eq_some htext
      have hload := Verification.load_of_file hstage hfile hdecode
      simp only [take, Verification.step, hload, List.append_nil]
      exact .accept _ text hstage htext
  | runRules =>
    obtain ⟨hstage, hcontext⟩ := not_or.mp hidle
    have hstage := Classical.not_not.mp hstage
    obtain ⟨context, hcontext⟩ := Option.ne_none_iff_exists'.mp hcontext
    have hrun := Verification.runRules_of_context hstage hcontext
    simp only [take, Verification.step, hrun, List.append_nil]
    exact .evaluate context hstage hcontext
  | checkSyntax =>
    have hcan := Classical.not_not.mp hidle
    simp only [take, Verification.step, Verification.checkSyntax, if_pos hcan]
    exact .parse hcan.1 hcan.2
  | probeLive =>
    have hcan := Classical.not_not.mp hidle
    simp only [take, Verification.step, Verification.probeLive, if_pos hcan]
    exact .probe _ hcan.1 hcan.2 rfl

end History

end Preflight
