import Preflight.Proofs.Evaluation
import Preflight.Proofs.Run.Calls

/-!
# Whole runs

What `verify` leaves behind, in one equation for each way a run can go.

* `verify_of_text_eq_none`: there is no text, and the run ends with the
  report of a failure.
* `verify_of_file`: there is one, and the report holds what the rules have
  recorded, then what the parser says, then what the probe finds.

The two parts behind the rules are `parserPart` and `probePart`.  Each is
empty where it is not wanted (`origin_of_mem_parserPart`,
`origin_of_mem_probePart`), and a probe never finds an error.

`diagnostics_verify` sums up what a run with a text records: three lists, one
after the other.
-/

namespace Preflight

namespace Verification

/-! ## The parts behind the rules -/

/-- What the external parser has to add. -/
def parserPart (v : Verification) (parser : Parser) :
    List Diagnostic × List Event :=
  if v.wantsParser then
    ([(parser v.request.path).diagnostic], [.parse v.request.path])
  else ([], [])

/-- What the live probe has to add. -/
def probePart (v : Verification) : Option Host → List Diagnostic × List Event
  | some host =>
    if v.wantsProbe then
      let result := v.config.live.run host Probe.stock v.request.path
      (result.diagnostics, result.events)
    else ([], [])
  | none => ([], [])

/-- The parser takes its turn after the rules. -/
theorem checkSyntax_of_rulesRun (parser : Parser) {v : Verification}
    (hstage : v.stage = .rulesRun) :
    ∃ stage, (stage = .rulesRun ∨ stage = .syntaxChecked) ∧
      v.checkSyntax parser =
        ({ v with
            stage
            diagnostics := v.diagnostics.pushAll (v.parserPart parser).1 },
          (v.parserPart parser).2) := by
  rw [checkSyntax, parserPart]
  by_cases hwants : v.wantsParser
  · rw [if_pos ⟨hstage, hwants⟩, if_pos hwants]
    exact ⟨.syntaxChecked, .inr rfl, rfl⟩
  · rw [if_neg fun hcan => hwants hcan.2, if_neg hwants]
    exact ⟨v.stage, .inl hstage, rfl⟩

/-- The probe takes its turn after the rules, and after the parser if that
was wanted. -/
theorem probeLive_of_stage (host : Host) {v : Verification}
    (hstage : v.stage = .rulesRun ∨ v.stage = .syntaxChecked) :
    ∃ stage, stage ≠ .failed ∧
      v.probeLive host =
        ({ v with
            stage
            diagnostics := v.diagnostics.pushAll (v.probePart (some host)).1 },
          (v.probePart (some host)).2) := by
  rw [probeLive, probePart]
  by_cases hwants : v.wantsProbe
  · rw [if_pos ⟨hstage, hwants⟩, if_pos hwants]
    exact ⟨.liveProbeRun, Stage.noConfusion, rfl⟩
  · rw [if_neg fun hcan => hwants hcan.2, if_neg hwants]
    refine ⟨v.stage, ?_, rfl⟩
    rcases hstage with hstage | hstage <;> simp [hstage]

/-- A run that has not failed is summarized as such. -/
theorem summarize_of_ne_failed {v : Verification} (hstage : v.stage ≠ .failed)
    (tool : Tool) :
    v.summarize tool =
      .assemble tool v.script v.request.target v.profileInfo
        ⟨catalogVersion, v.coverage⟩ v.diagnostics .summarized := by
  rw [summarize, if_neg hstage]

/-- What is left of a whole run once the rules have run. -/
theorem finish_of_rulesRun (parser : Parser) (host : Option Host) (tool : Tool)
    {v : Verification} (hrun : v.stage = .rulesRun) :
    (let (asked, parsing) := v.checkSyntax parser
     let (probed, probing) := match host with
      | some host => asked.probeLive host
      | none => (asked, [])
     (probed.summarize tool, parsing ++ probing)) =
      (.assemble tool v.script v.request.target v.profileInfo
          ⟨catalogVersion, v.coverage⟩
          ((v.diagnostics.pushAll (v.parserPart parser).1).pushAll
            (v.probePart host).1)
          .summarized,
        (v.parserPart parser).2 ++ (v.probePart host).2) := by
  obtain ⟨stage, hstage, hparse⟩ := checkSyntax_of_rulesRun parser hrun
  simp only [hparse]
  cases host with
  | none =>
    rw [summarize_of_ne_failed]
    · rfl
    · rcases hstage with rfl | rfl <;> exact Stage.noConfusion
  | some host =>
    obtain ⟨last, hlast, hprobe⟩ := probeLive_of_stage host
      (v := { v with
        stage
        diagnostics := v.diagnostics.pushAll (v.parserPart parser).1 }) hstage
    simp only [hprobe]
    rw [summarize_of_ne_failed hlast]
    rfl

/-- What a live probe records names the probe, and is never an error. -/
theorem origin_of_mem_run (s : LiveSettings) (host : Host)
    (probes : List Probe) (app : String) :
    ∀ d ∈ (s.run host probes app).diagnostics,
      d.ruleId = some .liveProbe ∧ d.severity ≠ .error := by
  intro d hd
  rw [LiveSettings.run] at hd
  cases hlaunch : host.launch with
  | error reason =>
    rw [hlaunch] at hd
    obtain rfl := List.mem_singleton.mp hd
    exact ⟨rfl, Severity.noConfusion⟩
  | ok started =>
    rw [hlaunch] at hd
    simp only at hd
    split at hd
    · rcases List.mem_cons.mp hd with rfl | hd
      · exact ⟨rfl, Severity.noConfusion⟩
      · obtain ⟨⟨p, failure⟩, _, rfl⟩ := List.mem_map.mp hd
        cases failure <;> exact ⟨rfl, Severity.noConfusion⟩
    · obtain rfl := List.mem_singleton.mp hd
      exact ⟨rfl, Severity.noConfusion⟩

/-- The probe has something to add only where it is wanted. -/
theorem origin_of_mem_probePart (v : Verification) (host : Option Host) :
    ∀ d ∈ (v.probePart host).1,
      v.wantsProbe ∧ d.ruleId = some .liveProbe ∧ d.severity ≠ .error := by
  cases host with
  | none => exact fun _ hd => nomatch hd
  | some host =>
    simp only [probePart]
    split
    · rename_i hwants
      exact fun d hd => ⟨hwants, origin_of_mem_run _ _ _ _ d hd⟩
    · exact fun _ hd => nomatch hd

theorem severity_ne_error_of_probePart (v : Verification) (host : Option Host) :
    ∀ d ∈ (v.probePart host).1, d.severity ≠ .error :=
  fun d hd => (v.origin_of_mem_probePart host d hd).2.2

/-- The parser has one diagnostic to add, and only where it is wanted. -/
theorem origin_of_mem_parserPart (v : Verification) (parser : Parser) :
    ∀ d ∈ (v.parserPart parser).1,
      v.wantsParser ∧ d.ruleId = some .parserCheck := by
  intro d hd
  rw [parserPart] at hd
  split at hd
  · rename_i hwants
    obtain rfl := List.mem_singleton.mp hd
    refine ⟨hwants, ?_⟩
    cases parser v.request.path <;> rfl
  · cases hd

theorem length_parserPart_le (v : Verification) (parser : Parser) :
    (v.parserPart parser).1.length ≤ 1 := by
  rw [parserPart]
  split
  · exact Nat.le_refl 1
  · exact Nat.zero_le 1

end Verification

/-! ## The two ways a run can go -/

section

variable (files : FileSystem) (parser : Parser) (host : Option Host)
  (request : Request) (config : Config) (tool : Tool)

/-- Without a text, the run ends with the report of one error, and nothing
has been done to the surroundings. -/
theorem verify_of_text_eq_none (htext : files.text? request.path = none) :
    ∃ script message ruleId,
      verify files parser host request config tool =
        ((Verification.fail { Verification.start request config with script }
          message ruleId).summarize tool, []) := by
  obtain ⟨script, message, ruleId, hload⟩ :=
    Verification.load_of_text_eq_none (v := .start request config) rfl htext
  refine ⟨script, message, ruleId, ?_⟩
  rw [verify, hload]
  cases host <;> rfl

/-- With a text, the rules are run on it, and the parser and the probe take
their turns. -/
theorem verify_of_file {bytes : List UInt8} {text : List Char}
    (hfile : files request.path = .file bytes)
    (htext : decodeScript bytes = some text) :
    verify files parser host request config tool =
      (let v := Verification.start request config
       let context : Context :=
        .resolve request config.detection config.endpoints text
       let found := Rule.evaluate Rule.catalog context .empty
       (.assemble tool (Script.info ⟨request.path, bytes⟩) request.target
          ⟨context.profile, context.source, context.scores⟩
          ⟨catalogVersion, found.1⟩
          ((found.2.pushAll (v.parserPart parser).1).pushAll (v.probePart host).1)
          .summarized,
        (v.parserPart parser).2 ++ (v.probePart host).2)) := by
  rw [verify, Verification.load_of_file rfl hfile htext,
    Verification.runRules_of_context rfl rfl]
  exact Verification.finish_of_rulesRun parser host tool rfl

/-- A run with a text records what the rules find in it, what the parser says
and what the probe finds. -/
theorem diagnostics_verify {text : List Char}
    (htext : files.text? request.path = some text) :
    (verify files parser host request config tool).1.diagnostics =
      Diagnostics.empty.pushAll
        (Rule.recorded Rule.catalog
            (.resolve request config.detection config.endpoints text) ++
          (Verification.start request config |>.parserPart parser).1 ++
          (Verification.start request config |>.probePart host).1) := by
  obtain ⟨bytes, hfile, hdecode⟩ := FileSystem.text?_eq_some htext
  rw [verify_of_file files parser host request config tool hfile hdecode,
    Diagnostics.pushAll_append, Diagnostics.pushAll_append]
  simp only [Report.assemble, Rule.evaluate_diagnostics]

end

end Preflight
