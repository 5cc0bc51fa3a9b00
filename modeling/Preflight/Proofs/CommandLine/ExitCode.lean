import Mathlib.Data.List.TakeWhile
import Preflight.CommandLine.Run
import Preflight.Proofs.Run.ErrorCount

/-!
# The exit code of a run from the command line

What a run needs to end with 0 is said without the program: `Configured` is about
the configuration file, `Resolves` about the target, `Admitted` about all that is
settled before a script is looked at, `Delivers` about the way of the report to where
it goes, and `Succeeds` about the whole run.

* `extension?_eq_some_iff` and `resolves_iff`: which scripts are taken for Flask
  applications.
* `Config.load_eq_ok_iff` and `loadConfig_eq_ok_iff`: which files can be run with.
* `report_of_admitted` and `report_of_refused`: a run verifies exactly what is
  admitted.
* `ends_of_ok`: the four ways in which a run with readable arguments ends.
* `exitCode_cases`: a report that cannot be printed ends the run with a code of its own,
  even if the script passes, and all other runs end with 0 or 1.
* `Options.SameWork.exitCode_eq`: options that do not matter.

`exitCode_perform` puts these together, for any files and for whatever comes of writing
and printing.
-/

namespace Preflight

/-! ## Scripts by their names -/

section

variable {name stem e : List Char}

/-- What stands behind the last dot. -/
theorem takeWhile_reverse_of_lastDot (he : '.' ∉ e) :
    ((stem ++ '.' :: e).reverse.takeWhile (· ≠ '.')).reverse = e := by
  have hall : ∀ c ∈ e.reverse, decide (c ≠ '.') = true := fun c hc =>
    decide_eq_true fun heq => he (heq ▸ List.mem_reverse.mp hc)
  rw [List.reverse_append, List.reverse_cons, List.append_assoc,
    List.takeWhile_append_of_pos hall, List.singleton_append,
    List.takeWhile_cons_of_neg (by simp), List.append_nil, List.reverse_reverse]

/-- The extension of a name stands behind its last dot and has something before the
dot. -/
theorem extension?_eq_some_iff :
    extension? name = some e ↔
      name ≠ ['.', '.'] ∧ '.' ∉ e ∧ ∃ stem, stem ≠ [] ∧ name = stem ++ '.' :: e := by
  by_cases hdots : name = ['.', '.']
  · rw [extension?, if_pos hdots]
    exact iff_of_false nofun fun h => h.1 hdots
  rw [extension?, if_neg hdots]
  dsimp only
  constructor
  · intro h
    split at h
    · rename_i hlength
      by_cases hdot : '.' ∈ name.reverse
      · obtain ⟨back, front, hname, hback⟩ := List.eq_append_cons_of_mem hdot
        have hsplit : name = front.reverse ++ '.' :: back.reverse := by
          rw [← List.reverse_reverse name, hname]
          simp
        have hlast : '.' ∉ back.reverse := fun hmem => hback (List.mem_reverse.mp hmem)
        rw [hsplit, takeWhile_reverse_of_lastDot hlast] at h hlength
        cases h
        refine ⟨hdots, hlast, front.reverse, ?_, hsplit⟩
        intro hnil
        rw [hnil, List.nil_append, List.length_cons] at hlength
        omega
      · have hall : ∀ c ∈ name.reverse, decide (c ≠ '.') = true := fun c hc =>
          decide_eq_true fun heq => hdot (heq ▸ hc)
        rw [List.takeWhile_eq_self_iff.mpr hall, List.reverse_reverse] at hlength
        omega
    · cases h
  · rintro ⟨-, he, stem, hstem, rfl⟩
    have hpos := List.length_pos_iff.mpr hstem
    rw [takeWhile_reverse_of_lastDot he, if_pos]
    rw [List.length_append, List.length_cons]
    omega

end

/-- The last name of the path ends in `.py`, letter case apart, and has something
before that. -/
def HasPyExtension (path : String) : Prop :=
  ∃ stem e, stem ≠ [] ∧ lastName path.toList = stem ++ '.' :: e ∧
    e.map Char.toLower = ['p', 'y']

theorem hasPyExtension_iff (path : String) :
    HasPyExtension path ↔ ∃ e, extension? (lastName path.toList) = some e ∧
      e.map Char.toLower = ['p', 'y'] := by
  constructor
  · rintro ⟨stem, e, hstem, hname, he⟩
    have hlength := congrArg List.length he
    rw [List.length_map] at hlength
    have hdot : '.' ∉ e := fun hmem => by
      have hlower := List.mem_map_of_mem (f := Char.toLower) hmem
      rw [he] at hlower
      exact absurd hlower (by decide)
    refine ⟨e, extension?_eq_some_iff.mpr ⟨fun hdots => ?_, hdot, stem, hstem, hname⟩, he⟩
    have htotal := congrArg List.length (hname.symm.trans hdots)
    rw [List.length_append, List.length_cons, hlength] at htotal
    simp at htotal
  · rintro ⟨e, hext, he⟩
    obtain ⟨-, -, stem, hstem, hname⟩ := extension?_eq_some_iff.mp hext
    exact ⟨stem, e, hstem, hname, he⟩

/-- Scripts with that extension are Flask applications, all others PDQ scripts. -/
theorem Target.ofPath_cases (path : String) :
    HasPyExtension path ∧ ofPath path = .flask ∨
      ¬HasPyExtension path ∧ ofPath path = .pdq := by
  rw [hasPyExtension_iff, ofPath]
  cases hext : extension? (lastName path.toList) with
  | none => exact .inr ⟨nofun, rfl⟩
  | some e =>
    dsimp only
    split
    · rename_i he
      exact .inl ⟨⟨e, rfl, he⟩, rfl⟩
    · rename_i he
      refine .inr ⟨?_, rfl⟩
      rintro ⟨_, ⟨⟩, hpy⟩
      exact he hpy

/-! ## Configuration files -/

/-- A file can be loaded if it can be read, is UTF-8 and TOML, has settings of the
right kinds, and these make sense. -/
theorem Config.load_eq_ok_iff {files : FileSystem} {path : String}
    {config : Config} :
    load files path = .ok config ↔
      ∃ bytes text document, (files path).read = .ok bytes ∧
        Utf8.decode bytes = some text ∧ Toml.read text = some document ∧
        ofValue? .toml document = some config ∧ config.fault? = none := by
  constructor
  · intro h
    rw [load] at h
    cases hread : (files path).read with
    | error osError => rw [hread] at h; cases h
    | ok bytes =>
      rw [hread] at h
      cases hdecode : Utf8.decode bytes with
      | none =>
        simp only [Except.mapError, bind, Except.bind, hdecode] at h
        cases h
      | some text =>
        simp only [Except.mapError, bind, Except.bind, pure, Except.pure, hdecode] at h
        cases hdocument : (Toml.read text).bind (ofValue? .toml) with
        | none => simp only [hdocument] at h; cases h
        | some found =>
          simp only [hdocument] at h
          obtain ⟨document, htoml, hvalue⟩ := Option.bind_eq_some_iff.mp hdocument
          cases hfault : found.fault? with
          | some fault => simp only [hfault] at h; cases h
          | none =>
            simp only [hfault] at h
            cases h
            exact ⟨bytes, text, document, rfl, hdecode, htoml, hvalue, hfault⟩
  · rintro ⟨bytes, text, document, hread, hdecode, htoml, hvalue, hfault⟩
    simp only [load, hread, Except.mapError, bind, Except.bind, pure, Except.pure,
      hdecode, htoml, Option.bind_some, hvalue, hfault]

namespace CommandLine

/-- The report was there, and what failed is to hand it over. -/
def Failure.InDelivery : Failure → Prop
  | reportNotWritten _ | reportNotPrinted _ => True
  | configNotLoaded .. | profileForTarget _ => False

namespace Options

variable {o : Options} {files : FileSystem} {machine : Machine} {config : Config}
  {target : Target}

/-- The configuration to run with: that of the file, or the stock one. -/
def Configured (o : Options) (files : FileSystem) (config : Config) : Prop :=
  match o.config with
  | none => config = .default
  | some path =>
    ∃ bytes text document, (files path).read = .ok bytes ∧
      Utf8.decode bytes = some text ∧ Toml.read text = some document ∧
      Config.ofValue? .toml document = some config ∧ config.fault? = none

/-- The target that is given, or the one that the script's name calls for. -/
def Resolves (o : Options) (target : Target) : Prop :=
  match o.target with
  | some given => target = given
  | none =>
    HasPyExtension o.script ∧ target = .flask ∨
      ¬HasPyExtension o.script ∧ target = .pdq

/-- The options can be followed: the configuration can be used, and a profile is given
for a PDQ script only. -/
structure Admitted (o : Options) (files : FileSystem) (config : Config)
    (target : Target) : Prop where
  configured : o.Configured files config
  resolved : o.Resolves target
  profile : o.profile = none ∨ target = .pdq

/-- The report on the script. -/
def verification (o : Options) (files : FileSystem) (machine : Machine)
    (config : Config) (target : Target) : Report :=
  (verify files (machine.parser config.parserCheck) (machine.host config.live o.script)
    ⟨o.script, target, ⟨o.profile, o.skipLiveCheck, o.skipSyntaxCheck⟩⟩ config
    o.tool).1

theorem loadConfig_eq_ok_iff :
    o.loadConfig files = .ok config ↔ o.Configured files config := by
  rw [loadConfig, Configured]
  cases o.config with
  | none => exact ⟨fun h => (Except.ok.inj h).symm, fun h => congrArg _ h.symm⟩
  | some path =>
    dsimp only
    rw [← Config.load_eq_ok_iff]
    cases Config.load files path with
    | error cause => exact iff_of_false nofun nofun
    | ok found =>
      exact ⟨fun h => congrArg _ (Except.ok.inj h), fun h => congrArg _ (Except.ok.inj h)⟩

theorem resolves_iff : o.Resolves target ↔ target = o.target.getD (.ofPath o.script) := by
  rw [Resolves]
  cases o.target with
  | some given => exact Iff.rfl
  | none =>
    dsimp only [Option.getD_none]
    rcases Target.ofPath_cases o.script with ⟨hpy, htarget⟩ | ⟨hpy, htarget⟩
    · rw [htarget]
      simp only [hpy, true_and, not_true_eq_false, false_and, or_false]
    · rw [htarget]
      simp only [hpy, false_and, not_false_eq_true, true_and, false_or]

/-- There is one way to follow the options. -/
theorem Admitted.unique {config' : Config} {target' : Target}
    (h : o.Admitted files config target) (h' : o.Admitted files config' target') :
    config' = config ∧ target' = target := by
  have hconfig := loadConfig_eq_ok_iff.mpr h.configured
  rw [loadConfig_eq_ok_iff.mpr h'.configured] at hconfig
  have htarget := resolves_iff.mp h.resolved
  rw [← resolves_iff.mp h'.resolved] at htarget
  exact ⟨Except.ok.inj hconfig, htarget.symm⟩

/-- What is admitted is verified. -/
theorem report_of_admitted (h : o.Admitted files config target) (machine : Machine) :
    o.report files machine = .ok (o.verification files machine config target) := by
  have hconfig := loadConfig_eq_ok_iff.mpr h.configured
  have htarget := resolves_iff.mp h.resolved
  have hrequest : o.request =
      .ok ⟨o.script, target, ⟨o.profile, o.skipLiveCheck, o.skipSyntaxCheck⟩⟩ := by
    have hfits : ¬(o.profile.isSome = true ∧ target ≠ .pdq) := by
      rintro ⟨hprofile, hne⟩
      rcases h.profile with hnone | hpdq
      · rw [hnone] at hprofile
        cases hprofile
      · exact hne hpdq
    rw [request, ← htarget]
    exact if_neg hfits
  rw [report, hconfig, hrequest]
  rfl

theorem eq_configNotLoaded {failure : Failure}
    (h : o.loadConfig files = .error failure) :
    ∃ path cause, failure = .configNotLoaded path cause := by
  rw [loadConfig] at h
  cases hpath : o.config with
  | none => rw [hpath] at h; cases h
  | some path =>
    rw [hpath] at h
    cases hload : Config.load files path with
    | error cause =>
      simp only [hload] at h
      cases h
      exact ⟨path, cause, rfl⟩
    | ok found => simp only [hload] at h; cases h

/-- What is not admitted is refused. -/
theorem report_of_refused (h : ¬∃ config target, o.Admitted files config target)
    (machine : Machine) :
    ∃ failure, o.report files machine = .error failure ∧ ¬failure.InDelivery := by
  cases hconfig : o.loadConfig files with
  | error failure =>
    obtain ⟨path, cause, rfl⟩ := eq_configNotLoaded hconfig
    exact ⟨_, by rw [report, hconfig]; rfl, id⟩
  | ok config =>
    have hconfigured := loadConfig_eq_ok_iff.mp hconfig
    have hresolved := (resolves_iff (o := o)).mpr rfl
    by_cases hfits : o.profile.isSome = true ∧ o.target.getD (.ofPath o.script) ≠ .pdq
    · have hrequest : o.request =
          .error (.profileForTarget (o.target.getD (.ofPath o.script))) := if_pos hfits
      exact ⟨_, by rw [report, hconfig, hrequest]; rfl, id⟩
    · refine absurd ⟨config, _, hconfigured, hresolved, ?_⟩ h
      cases hprofile : o.profile with
      | none => exact .inl rfl
      | some p =>
        rw [hprofile] at hfits
        exact .inr (Decidable.not_not.mp fun hne => hfits ⟨rfl, hne⟩)

/-- The report can be handed over: nothing goes wrong in printing it, or in writing it to
the file that is given for it. -/
def Delivers (o : Options) (machine : Machine) (report : Report) : Prop :=
  match o.out with
  | none => (machine.print (o.rendered report)).error? = none
  | some path =>
    (machine.write path (Utf8.encode (o.rendered report).toList)).error? = none

/-- The options can be followed, the report has no errors, and it can be handed over. -/
def Succeeds (o : Options) (files : FileSystem) (machine : Machine) : Prop :=
  ∃ config target, o.Admitted files config target ∧
    let report := o.verification files machine config target
    report.diagnostics.errors = [] ∧ o.Delivers machine report

/-- The other options differ in the form, the place and the metadata of the report and
in the messages on the way. -/
def SameWork (o other : Options) : Prop :=
  other = { o with
    format := other.format, out := other.out, commit := other.commit
    verbose := other.verbose }

end Options

namespace Outcome

/-- The report, if there is one, could be handed over. -/
def Delivered (outcome : Outcome) : Prop :=
  ∀ failure ∈ outcome.failure, ¬failure.InDelivery

/-- There is a report, and it could not be printed. -/
def Unprinted (outcome : Outcome) : Prop :=
  ∃ osError, outcome.failure = some (.reportNotPrinted osError)

section

variable {outcome : Outcome}

theorem delivered_of_none (h : outcome.failure = none) : outcome.Delivered := by
  rw [Delivered, h]
  exact nofun

theorem Delivered.not_unprinted (h : outcome.Delivered) : ¬outcome.Unprinted := by
  rintro ⟨osError, hfailure⟩
  exact h _ hfailure trivial

theorem not_unprinted_of_reportNotWritten {path : String}
    (h : outcome.failure = some (.reportNotWritten path)) : ¬outcome.Unprinted := by
  rintro ⟨osError, hunprinted⟩
  rw [h] at hunprinted
  cases hunprinted

end

end Outcome

/-! ## Runs -/

/-- The ways in which a run with readable arguments ends. -/
inductive Options.Ends (o : Options) (files : FileSystem) (machine : Machine) :
    Outcome → Prop where
  | refused {failure : Failure}
      (hrefused : ¬∃ config target, o.Admitted files config target)
      (hfailure : ¬failure.InDelivery) :
      Ends o files machine (.failed failure)
  | delivered {outcome : Outcome} {config : Config} {target : Target}
      (hadmitted : o.Admitted files config target)
      (hdelivers : o.Delivers machine (o.verification files machine config target))
      (hfailure : outcome.failure = none)
      (hcode : outcome.exitCode =
        (o.verification files machine config target).verdict.exitCode) :
      Ends o files machine outcome
  | unwritten {outcome : Outcome} {path : String} {config : Config} {target : Target}
      (hadmitted : o.Admitted files config target)
      (hlost : ¬o.Delivers machine (o.verification files machine config target))
      (hout : o.out = some path)
      (hfailure : outcome.failure = some (.reportNotWritten path))
      (hcode : outcome.exitCode = 1) :
      Ends o files machine outcome
  | unprinted {outcome : Outcome} {config : Config} {target : Target}
      (hadmitted : o.Admitted files config target)
      (hlost : ¬o.Delivers machine (o.verification files machine config target))
      (hout : o.out = none)
      (hunprinted : outcome.Unprinted) (hcode : outcome.exitCode = 101) :
      Ends o files machine outcome

section

variable {files : FileSystem} {machine : Machine} {arguments : List String}
  {o : Options} {config : Config} {target : Target}

theorem perform_of_stop {stop : Stop} (files : FileSystem) (machine : Machine)
    (h : Options.ofArguments arguments = .error stop) :
    perform files machine arguments = stop.outcome machine := by
  rw [perform, h]

theorem perform_of_refused (machine : Machine)
    (h : Options.ofArguments arguments = .ok o)
    (hrefused : ¬∃ config target, o.Admitted files config target) :
    ∃ failure, perform files machine arguments = .failed failure ∧
      ¬failure.InDelivery := by
  obtain ⟨failure, hreport, hfailure⟩ := Options.report_of_refused hrefused machine
  refine ⟨failure, ?_, hfailure⟩
  rw [perform, h]
  simp only [hreport]

theorem perform_of_admitted (machine : Machine)
    (h : Options.ofArguments arguments = .ok o)
    (hadmitted : o.Admitted files config target) :
    let report := o.verification files machine config target
    perform files machine arguments =
      .deliver machine o.out report.verdict.exitCode (o.rendered report) := by
  rw [perform, h]
  simp only [Options.report_of_admitted hadmitted machine]

/-- A report is handed over with the given exit code, and a failure to do so has its own. -/
theorem Outcome.exitCode_deliver (machine : Machine) (out : Option String)
    (exitCode : Int) (text : String) :
    (deliver machine out exitCode text).exitCode =
      ((deliver machine out exitCode text).failure.map Failure.exitCode).getD exitCode := by
  cases out <;> rfl

theorem Options.delivers_iff (o : Options) (machine : Machine) (report : Report)
    (exitCode : Int) :
    o.Delivers machine report ↔
      (Outcome.deliver machine o.out exitCode (o.rendered report)).failure = none := by
  rw [Delivers]
  cases o.out with
  | none => exact Option.map_eq_none_iff.symm
  | some path => exact Option.map_eq_none_iff.symm

theorem ends_of_ok (files : FileSystem) (machine : Machine)
    (h : Options.ofArguments arguments = .ok o) :
    o.Ends files machine (perform files machine arguments) := by
  by_cases hadmitted : ∃ config target, o.Admitted files config target
  · obtain ⟨config, target, hadmitted⟩ := hadmitted
    let report := o.verification files machine config target
    rw [perform_of_admitted machine h hadmitted]
    have hcode := Outcome.exitCode_deliver machine o.out report.verdict.exitCode
      (o.rendered report)
    have hdelivers := o.delivers_iff machine report report.verdict.exitCode
    cases hfailure : (Outcome.deliver machine o.out report.verdict.exitCode
        (o.rendered report)).failure with
    | none =>
      rw [hfailure] at hcode
      exact .delivered hadmitted (hdelivers.mpr hfailure) hfailure hcode
    | some failure =>
      have hlost : ¬o.Delivers machine report := by
        rw [hdelivers, hfailure]
        exact nofun
      rw [hfailure] at hcode
      cases hout : o.out with
      | none =>
        rw [hout] at hfailure hcode
        obtain ⟨osError, -, rfl⟩ := Option.map_eq_some_iff.mp hfailure
        exact .unprinted hadmitted hlost hout ⟨osError, hfailure⟩ hcode
      | some path =>
        rw [hout] at hfailure hcode
        obtain ⟨osError, -, rfl⟩ := Option.map_eq_some_iff.mp hfailure
        exact .unwritten hadmitted hlost hout hfailure hcode
  · obtain ⟨failure, hperform, hfailure⟩ := perform_of_refused machine h hadmitted
    rw [hperform]
    exact .refused hadmitted hfailure

/-! ## Exit codes -/

/-- The verdict on the script. -/
theorem Options.exitCode_verification (o : Options) (files : FileSystem)
    (machine : Machine) (config : Config) (target : Target) :
    let report := o.verification files machine config target
    report.verdict.exitCode = if report.diagnostics.errors = [] then 0 else 1 := by
  intro report
  have hverdict : report.verdict = .of report.diagnostics := verdict_verify ..
  have hcode := (Verdict.of_eq report.diagnostics).2.2
  rw [← hverdict] at hcode
  simpa only [List.length_eq_zero_iff] using hcode

namespace Options

theorem Admitted.succeeds_iff (h : o.Admitted files config target) :
    o.Succeeds files machine ↔
      (o.verification files machine config target).diagnostics.errors = [] ∧
        o.Delivers machine (o.verification files machine config target) := by
  constructor
  · rintro ⟨config', target', hadmitted, herrors, hdelivers⟩
    obtain ⟨rfl, rfl⟩ := h.unique hadmitted
    exact ⟨herrors, hdelivers⟩
  · rintro ⟨herrors, hdelivers⟩
    exact ⟨config, target, h, herrors, hdelivers⟩

variable {outcome : Outcome}

/-- What does not succeed is refused, has errors in its report, or cannot hand it
over. -/
theorem Ends.exitCode_eq_zero_iff (h : o.Ends files machine outcome) :
    outcome.exitCode = 0 ↔ o.Succeeds files machine := by
  cases h with
  | @refused failure hrefused hfailure =>
    refine iff_of_false ?_ fun hsucceeds => ?_
    · cases failure <;> exact nofun
    · obtain ⟨config, target, hadmitted, -⟩ := hsucceeds
      exact hrefused ⟨config, target, hadmitted⟩
  | delivered hadmitted hdelivers _ hcode =>
    rw [hcode, exitCode_verification, hadmitted.succeeds_iff]
    split
    · rename_i herrors
      exact iff_of_true rfl ⟨herrors, hdelivers⟩
    · rename_i herrors
      exact iff_of_false (by decide) fun h => herrors h.1
  | unwritten hadmitted hlost _ _ hcode | unprinted hadmitted hlost _ _ hcode =>
    rw [hcode, hadmitted.succeeds_iff]
    exact iff_of_false (by decide) fun h => hlost h.2

/-- Only a report that cannot be printed ends a run with another code than 0 and 1. -/
theorem Ends.exitCode_cases (h : o.Ends files machine outcome) :
    (outcome.exitCode = 0 ∨ outcome.exitCode = 1) ∧ ¬outcome.Unprinted ∨
      outcome.exitCode = 101 ∧ outcome.Unprinted := by
  cases h with
  | @refused failure _ hfailure =>
    left
    cases failure with
    | configNotLoaded | profileForTarget => exact ⟨.inr rfl, nofun⟩
    | reportNotWritten | reportNotPrinted => exact absurd trivial hfailure
  | delivered _ _ hfailure hcode =>
    refine .inl ⟨?_, (Outcome.delivered_of_none hfailure).not_unprinted⟩
    rw [hcode, exitCode_verification]
    split
    · exact .inl rfl
    · exact .inr rfl
  | unwritten _ _ _ hfailure hcode =>
    exact .inl ⟨.inr hcode, Outcome.not_unprinted_of_reportNotWritten hfailure⟩
  | unprinted _ _ _ hunprinted hcode => exact .inr ⟨hcode, hunprinted⟩

theorem Ends.delivered_iff (h : o.Ends files machine outcome)
    (hadmitted : o.Admitted files config target) :
    outcome.Delivered ↔
      o.Delivers machine (o.verification files machine config target) := by
  cases h with
  | refused hrefused => exact absurd ⟨config, target, hadmitted⟩ hrefused
  | delivered hadmitted' hdelivers hfailure =>
    obtain ⟨rfl, rfl⟩ := hadmitted.unique hadmitted'
    exact iff_of_true (Outcome.delivered_of_none hfailure) hdelivers
  | unwritten hadmitted' hlost _ hfailure =>
    obtain ⟨rfl, rfl⟩ := hadmitted.unique hadmitted'
    exact iff_of_false (fun h => h _ hfailure trivial) hlost
  | unprinted hadmitted' hlost _ hunprinted =>
    obtain ⟨rfl, rfl⟩ := hadmitted.unique hadmitted'
    exact iff_of_false (fun h => h.not_unprinted hunprinted) hlost

/-- A report is left unprinted exactly if it goes to the standard output and that does
not take it. -/
theorem Ends.unprinted_iff (h : o.Ends files machine outcome) :
    outcome.Unprinted ↔ o.out = none ∧ ∃ config target,
      o.Admitted files config target ∧
      ¬o.Delivers machine (o.verification files machine config target) := by
  cases h with
  | @refused failure hrefused hfailure =>
    refine iff_of_false ?_ fun ⟨_, config, target, hadmitted, _⟩ =>
      hrefused ⟨config, target, hadmitted⟩
    rintro ⟨osError, hunprinted⟩
    rw [Option.some.inj hunprinted] at hfailure
    exact hfailure trivial
  | delivered hadmitted hdelivers hfailure =>
    refine iff_of_false (Outcome.delivered_of_none hfailure).not_unprinted ?_
    rintro ⟨-, config', target', hadmitted', hlost⟩
    obtain ⟨rfl, rfl⟩ := hadmitted.unique hadmitted'
    exact hlost hdelivers
  | unwritten _ _ hout hfailure =>
    refine iff_of_false (Outcome.not_unprinted_of_reportNotWritten hfailure) ?_
    rintro ⟨hnone, -⟩
    rw [hout] at hnone
    cases hnone
  | unprinted hadmitted hlost hout hunprinted =>
    exact iff_of_true hunprinted ⟨hout, _, _, hadmitted, hlost⟩

/-! ## Options that do not matter -/

variable {other : Options}

theorem SameWork.symm (h : o.SameWork other) : other.SameWork o := by
  rw [SameWork] at h ⊢
  rw [h]

theorem SameWork.admitted (h : o.SameWork other)
    (hadmitted : o.Admitted files config target) :
    other.Admitted files config target := by
  rw [SameWork] at h
  rw [h]
  exact ⟨hadmitted.configured, hadmitted.resolved, hadmitted.profile⟩

theorem SameWork.diagnostics_eq (h : o.SameWork other) (files : FileSystem)
    (machine : Machine) (config : Config) (target : Target) :
    (other.verification files machine config target).diagnostics =
      (o.verification files machine config target).diagnostics := by
  rw [SameWork] at h
  rw [h]
  rfl

/-- Where a run succeeds, one that does the same work succeeds, too, if it hands its
report over. -/
theorem SameWork.succeeds (h : o.SameWork other)
    (hends : other.Ends files machine outcome) (hdelivered : outcome.Delivered)
    (hsucceeds : o.Succeeds files machine) : other.Succeeds files machine := by
  obtain ⟨config, target, hadmitted, herrors, -⟩ := hsucceeds
  have hother := h.admitted hadmitted
  refine ⟨config, target, hother, ?_, (hends.delivered_iff hother).mp hdelivered⟩
  rw [h.diagnostics_eq]
  exact herrors

theorem SameWork.exitCode_eq {outcome' : Outcome} (h : o.SameWork other)
    (hends : o.Ends files machine outcome) (hends' : other.Ends files machine outcome')
    (hdelivered : outcome.Delivered) (hdelivered' : outcome'.Delivered) :
    outcome'.exitCode = outcome.exitCode := by
  have hsucceeds : other.Succeeds files machine ↔ o.Succeeds files machine :=
    ⟨h.symm.succeeds hends hdelivered, h.succeeds hends' hdelivered'⟩
  rw [← hends.exitCode_eq_zero_iff, ← hends'.exitCode_eq_zero_iff] at hsucceeds
  have hcodes : outcome.exitCode = 0 ∨ outcome.exitCode = 1 :=
    (hends.exitCode_cases.resolve_right fun h => hdelivered.not_unprinted h.2).1
  have hcodes' : outcome'.exitCode = 0 ∨ outcome'.exitCode = 1 :=
    (hends'.exitCode_cases.resolve_right fun h => hdelivered'.not_unprinted h.2).1
  omega

end Options

/-- There is a report for the standard output, and printing it fails. -/
def Unprintable (files : FileSystem) (machine : Machine) (arguments : List String) :
    Prop :=
  ∃ o config target, Options.ofArguments arguments = .ok o ∧
    o.Admitted files config target ∧ o.out = none ∧
    (machine.print (o.rendered (o.verification files machine config target))).error? ≠ none

theorem unprinted_iff_of_ok (files : FileSystem) (machine : Machine)
    (h : Options.ofArguments arguments = .ok o) :
    (perform files machine arguments).Unprinted ↔ Unprintable files machine arguments := by
  rw [(ends_of_ok files machine h).unprinted_iff]
  constructor
  · rintro ⟨hout, config, target, hadmitted, hlost⟩
    rw [Options.Delivers, hout] at hlost
    exact ⟨o, config, target, h, hadmitted, hout, hlost⟩
  · rintro ⟨o', config, target, ho, hadmitted, hout, hlost⟩
    obtain rfl : o = o' := Except.ok.inj (h.symm.trans ho)
    refine ⟨hout, config, target, hadmitted, ?_⟩
    rw [Options.Delivers, hout]
    exact hlost

/-- Only a report that cannot be printed ends a run with another code than 0 and 1,
whatever the arguments are. -/
theorem exitCode_cases (files : FileSystem) (machine : Machine)
    (arguments : List String) :
    ((perform files machine arguments).exitCode = 0 ∨
        (perform files machine arguments).exitCode = 1) ∧
        ¬Unprintable files machine arguments ∨
      (perform files machine arguments).exitCode = 101 ∧
        Unprintable files machine arguments := by
  cases hread : Options.ofArguments arguments with
  | error stop =>
    refine .inl ⟨?_, ?_⟩
    · rw [perform_of_stop files machine hread]
      cases stop <;> simp [Stop.outcome, Outcome.answer]
    · rintro ⟨o, config, target, hok, -⟩
      rw [hread] at hok
      cases hok
  | ok o =>
    rw [← unprinted_iff_of_ok files machine hread]
    exact (ends_of_ok files machine hread).exitCode_cases

/-- The exit code of a panic says that the report cannot be printed, and nothing of the
verdict on the script. -/
theorem exitCode_eq_panic_iff (files : FileSystem) (machine : Machine)
    (arguments : List String) :
    (perform files machine arguments).exitCode = 101 ↔
      Unprintable files machine arguments := by
  rcases exitCode_cases files machine arguments with
    ⟨hcode, hprinted⟩ | ⟨hcode, hunprintable⟩
  · exact iff_of_false (by omega) hprinted
  · exact iff_of_true hcode hunprintable

end

/-- A run ends with 0 if help or the version is asked for before anything is wrong with
the arguments and if it succeeds, and otherwise with 1, unless its report cannot be
printed.  Two runs that do the same work end alike if both hand their reports over.  Where no
script is verified, and where the report goes to a file that is not the standard
output, none of it is printed. -/
theorem exitCode_perform (files : FileSystem) (machine : Machine)
    (arguments : List String) :
    let outcome := perform files machine arguments
    (outcome.exitCode = 0 ↔
      Options.ofArguments arguments = .error .help ∨
      Options.ofArguments arguments = .error .version ∨
      ∃ o, Options.ofArguments arguments = .ok o ∧ o.Succeeds files machine) ∧
    (¬Unprintable files machine arguments →
      outcome.exitCode = 0 ∨ outcome.exitCode = 1) ∧
    (∀ (others : List String) (o other : Options),
      Options.ofArguments arguments = .ok o →
      Options.ofArguments others = .ok other → o.SameWork other →
      outcome.Delivered → (perform files machine others).Delivered →
      (perform files machine others).exitCode = outcome.exitCode) ∧
    (∀ stop, Options.ofArguments arguments = .error stop →
      outcome = stop.outcome machine) ∧
    (∀ o, Options.ofArguments arguments = .ok o →
      (¬∃ config target, o.Admitted files config target) → outcome.stdout = "") ∧
    (∀ o path config target, Options.ofArguments arguments = .ok o →
      o.Admitted files config target → o.out = some path →
      let text := o.rendered (o.verification files machine config target)
      (∀ what, machine.write path (Utf8.encode text.toList) ≠ .printed what) →
      outcome.stdout = "") := by
  intro outcome
  refine ⟨?_, ?_, ?_, ?_, ?_, ?_⟩
  · cases hread : Options.ofArguments arguments with
    | error stop =>
      have houtcome : outcome = _ := perform_of_stop files machine hread
      rw [houtcome]
      cases stop <;> simp [Stop.outcome, Outcome.answer]
    | ok o =>
      have hzero := (ends_of_ok files machine hread).exitCode_eq_zero_iff
      simpa using hzero
  · intro hprinted
    have hcodes := exitCode_cases files machine arguments
    exact (hcodes.resolve_right fun h => hprinted h.2).1
  · intro others o other ho hother hsame hdelivered hdelivered'
    exact hsame.exitCode_eq (ends_of_ok files machine ho)
      (ends_of_ok files machine hother) hdelivered hdelivered'
  · intro stop hstop
    exact perform_of_stop files machine hstop
  · intro o ho hrefused
    obtain ⟨failure, hperform, -⟩ := perform_of_refused machine ho hrefused
    have houtcome : outcome = _ := hperform
    rw [houtcome]
    rfl
  · intro o path config target ho hadmitted hout text hfile
    have houtcome : outcome = _ := perform_of_admitted machine ho hadmitted
    rw [houtcome, hout]
    cases hwrite : machine.write path (Utf8.encode text.toList) with
    | taken | refused => exact congrArg (Written.shown text) hwrite
    | printed what => exact absurd hwrite (hfile what)

/-- Help that is asked for behind a mistake is not given.  A report in a file is printed
if the file is the standard output.  A report that cannot be printed ends the run with
neither of the two codes. -/
theorem exitCode_perform_exceptions :
    let files : FileSystem :=
      .set .empty "deploy.ps1" (.file (Utf8.encode "exit 0".toList))
    let machine : Machine := .offline .none
    let full : Machine :=
      { machine with print := fun _ => .cut "" "No space left on device (os error 28)" }
    let arguments := ["--out", "/dev/stdout", "deploy.ps1"]
    ("--help" ∈ ["--bogus", "--help"] ∧
      (perform files machine ["--bogus", "--help"]).exitCode = 1) ∧
    (∃ o report, Options.ofArguments arguments = .ok o ∧ o.out = some "/dev/stdout" ∧
      o.report files machine = .ok report ∧
      (perform files machine arguments).stdout = report.toText ∧ report.toText ≠ "") ∧
    (perform files full ["deploy.ps1"]).exitCode = 101 := by
  intro files machine full arguments
  let o : Options :=
    ⟨"deploy.ps1", none, none, .text, none, none, none, false, false, false⟩
  let o' : Options := { o with out := some "/dev/stdout" }
  have ho : Options.ofArguments ["deploy.ps1"] = .ok o := by decide +kernel
  have ho' : Options.ofArguments arguments = .ok o' := by decide +kernel
  have hpdq : o.Resolves .pdq := Options.resolves_iff.mpr (by decide +kernel)
  have hadmitted : o.Admitted files .default .pdq := ⟨rfl, hpdq, .inl rfl⟩
  have hadmitted' : o'.Admitted files .default .pdq := ⟨rfl, hpdq, .inl rfl⟩
  refine ⟨⟨by decide, ?_⟩, ?_, ?_⟩
  · have hstop : Options.ofArguments ["--bogus", "--help"] =
        .error (.usage (.unknown "--bogus")) := by decide +kernel
    rw [perform_of_stop files machine hstop]
    rfl
  · refine ⟨o', o'.verification files machine .default .pdq, ho', rfl,
      Options.report_of_admitted hadmitted' machine, ?_, Report.toText_ne_empty _⟩
    have hroot : "/dev/stdout".startsWith "/" = true := by decide +kernel
    have hwrite (bytes : List UInt8) : machine.write "/dev/stdout" bytes = .printed .whole :=
      if_pos hroot
    rw [perform_of_admitted machine ho' hadmitted']
    exact congrArg (Written.shown _) (hwrite _)
  · rw [exitCode_eq_panic_iff]
    exact ⟨o, .default, .pdq, ho, hadmitted, rfl, nofun⟩

/-- A report in lines on the standard output, and one as data in a file. -/
theorem exitCode_perform_of_file :
    let directory : Directory := ⟨[(["deploy.ps1"], Utf8.encode "exit 0".toList)]⟩
    let arguments := ["--type", "deploy", "deploy.ps1"]
    let others := ["-v", "--format=json", "--out", "report.json", "--commit", "",
      "--type=deploy", "--", "deploy.ps1"]
    let machine : Machine := .offline .none
    let outcome := run directory .empty machine arguments
    let other := run directory .empty machine others
    outcome.Delivered ∧ other.Delivered ∧ other.exitCode = outcome.exitCode ∧
      (outcome.exitCode = 0 ∨ outcome.exitCode = 1) ∧ other.stdout = "" := by
  intro directory arguments others machine outcome other
  let files := directory.toFileSystem .empty
  let o : Options :=
    ⟨"deploy.ps1", some .deploy, none, .text, none, none, none, false, false, false⟩
  let o' : Options := { o with
    format := .json, out := some "report.json", commit := some "", verbose := true }
  have ho : Options.ofArguments arguments = .ok o := by decide +kernel
  have ho' : Options.ofArguments others = .ok o' := by decide +kernel
  have hpdq : o.Resolves .pdq := Options.resolves_iff.mpr (by decide +kernel)
  have hadmitted : o.Admitted files .default .pdq := ⟨rfl, hpdq, .inr rfl⟩
  have hsame : o.SameWork o' := rfl
  have hadmitted' := hsame.admitted hadmitted
  have hwrite (bytes : List UInt8) :
      (workingIn directory machine).write "report.json" bytes = .taken := by
    have hplace : directory.locate "report.json" = .ok ["report.json"] := by
      decide +kernel
    have hentry : directory.entry ["report.json"] = .missing := by decide +kernel
    have hlast : (Directory.names "report.json").getLast? ≠ some "" := by decide +kernel
    have hroom : directory.write "report.json" bytes =
        .ok ⟨directory.files ++ [(["report.json"], bytes)]⟩ := by
      rw [Directory.write, hplace]
      simp only [bind, Except.bind, hentry, if_neg hlast]
      rfl
    simp [workingIn, machine, Machine.offline, hroom]
  have hdelivered : outcome.Delivered := by
    apply (ends_of_ok files (workingIn directory machine) ho).delivered_iff hadmitted |>.mpr
    rfl
  have hdelivered' : other.Delivered := by
    apply (ends_of_ok files (workingIn directory machine) ho').delivered_iff hadmitted' |>.mpr
    exact congrArg Written.error? (hwrite _)
  have h := exitCode_perform files (workingIn directory machine) arguments
  have h' := exitCode_perform files (workingIn directory machine) others
  refine ⟨hdelivered, hdelivered',
    h.2.2.1 others o o' ho ho' hsame hdelivered hdelivered', ?_, ?_⟩
  · apply h.2.1
    rintro ⟨_, config, target, -, -, -, hcut⟩
    exact hcut rfl
  · have hstdout := h'.2.2.2.2.2 o' "report.json" .default .pdq ho' hadmitted' rfl
    refine hstdout fun what hprinted => ?_
    rw [hwrite] at hprinted
    cases hprinted

end CommandLine

end Preflight
