import Preflight.Config.Basic
import Preflight.Live.Run
import Preflight.ParserCheck
import Preflight.Report.Basic
import Preflight.Rule.Catalog

/-!
# Verification runs

A run is a state that four steps act upon: reading the script, running the rules, asking the
external parser and probing the application.  Each step waits for its stage and does nothing
otherwise.  A script that is missing, unreadable or no text ends the run with exactly one error, and
every later step does nothing.

`verify` takes all steps in order and summarizes.
-/

namespace Preflight

/-- The state of a run. -/
structure Verification where
  request : Request
  config : Config
  stage : Stage
  diagnostics : Diagnostics
  script : ScriptInfo
  /-- There from the moment the script has been read. -/
  context : Option Context
  coverage : Coverage
  deriving DecidableEq, Repr, Inhabited

namespace Verification

/-- A run at its start. -/
def start (request : Request) (config : Config) : Verification :=
  { request, config, stage := .notStarted, diagnostics := .empty,
    script := .unread request.path, context := none, coverage := .empty }

/-- Ends the run with an error. -/
def fail (v : Verification) (message : String) (ruleId : Option RuleId) : Verification :=
  { v with stage := .failed, diagnostics := v.diagnostics.record .error message ruleId }

/-- Takes over a script that has been read: it is decoded, and the profile is resolved. -/
def accept (v : Verification) (script : Script) : Verification :=
  let v := { v with script := script.info }
  match script.text? with
  | none =>
    v.fail "Script content is not readable text (binary data or unsupported encoding)"
      (some .unreadable)
  | some content =>
    { v with
      stage := .contentLoaded
      context := some (.resolve v.request v.config.detection v.config.endpoints content) }

/-- Reads the script. -/
def load (files : FileSystem) (v : Verification) : Verification :=
  if v.stage ≠ .notStarted then v
  else if !(files v.request.path).isFile then
    v.fail s!"Script file not found: {v.request.path}" none
  else
    match Script.read files v.request.path with
    | .error e => v.fail s!"Could not read script: {e}" none
    | .ok script => v.accept script

/-- Runs the rules of the catalog. -/
def runRules (v : Verification) : Verification :=
  match v.stage, v.context with
  | .contentLoaded, some context =>
    let (coverage, diagnostics) := Rule.evaluate Rule.catalog context v.diagnostics
    { v with stage := .rulesRun, coverage, diagnostics }
  | _, _ => v

/-- The external parser is wanted. -/
def wantsParser (v : Verification) : Bool :=
  v.request.target.isPowerShell && !v.request.overrides.skipSyntaxCheck &&
    v.config.parserCheck.enabled

/-- Asks the external parser about a PowerShell script. -/
def checkSyntax (parser : Parser) (v : Verification) : Verification × List Event :=
  if v.stage = .rulesRun ∧ v.wantsParser then
    ({ v with
      stage := .syntaxChecked
      diagnostics := v.diagnostics.push (parser v.request.path).diagnostic },
      [.parse v.request.path])
  else (v, [])

/-- A live probe is wanted. -/
def wantsProbe (v : Verification) : Bool :=
  v.request.target == .flask && !v.request.overrides.skipLiveCheck && v.config.live.enabled

/-- Probes a Flask application. -/
def probeLive (host : Host) (v : Verification) : Verification × List Event :=
  if (v.stage = .rulesRun ∨ v.stage = .syntaxChecked) ∧ v.wantsProbe then
    let result := v.config.live.run host Probe.stock v.request.path
    ({ v with
      stage := .liveProbeRun
      diagnostics := v.diagnostics.pushAll result.diagnostics },
      result.events)
  else (v, [])

/-- What a report says of the profile. -/
def profileInfo (v : Verification) : ProfileInfo :=
  match v.context with
  | some context => ⟨context.profile, context.source, context.scores⟩
  | none => .notApplicable

/-- Ends the run with a report. -/
def summarize (v : Verification) (tool : Tool) : Report :=
  .assemble tool v.script v.request.target v.profileInfo ⟨catalogVersion, v.coverage⟩
    v.diagnostics (if v.stage = .failed then .failed else .summarized)

/-- A step of a run. -/
inductive Step where
  | load
  | runRules
  | checkSyntax
  | probeLive
  deriving DecidableEq, Repr, Inhabited

/-- Takes one step: the new state, and what was done to the surroundings. -/
def step (files : FileSystem) (parser : Parser) (host : Host) (v : Verification) :
    Step → Verification × List Event
  | .load => (v.load files, [])
  | .runRules => (v.runRules, [])
  | .checkSyntax => v.checkSyntax parser
  | .probeLive => v.probeLive host

end Verification

/-- A whole run.  Without a host there is no live probe. -/
def verify (files : FileSystem) (parser : Parser) (host : Option Host) (request : Request)
    (config : Config) (tool : Tool) : Report × List Event :=
  let v := ((Verification.start request config).load files).runRules
  let (v, parsing) := v.checkSyntax parser
  let (v, probing) := match host with
    | some host => v.probeLive host
    | none => (v, [])
  (v.summarize tool, parsing ++ probing)

/-- The characters of a path's last name; slashes and dots that name no file are left out. -/
def lastName (path : List Char) : List Char :=
  ((List.splitOn '/' path).filter fun part => part ≠ [] ∧ part ≠ ['.']).getLast?.getD []

/-- The extension of a file name: what follows its last dot, if a name stands before the dot. -/
def extension? (name : List Char) : Option (List Char) :=
  if name = ['.', '.'] then none
  else
    let after := (name.reverse.takeWhile (· ≠ '.')).reverse
    if after.length + 1 < name.length then some after else none

/-- The target of a script by its path: `.py` files are Flask applications, all others PDQ
scripts. -/
def Target.ofPath (path : String) : Target :=
  match extension? (lastName path.toList) with
  | some e => if e.map Char.toLower = ['p', 'y'] then .flask else .pdq
  | none => .pdq

end Preflight
