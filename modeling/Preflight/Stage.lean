/-!
# Stages of a run

A run reads the script, runs the rules, may run the external parser or probe the application, and
is summarized.  A script that cannot be read ends the run in `failed`.
-/

namespace Preflight

inductive Stage where
  | notStarted
  | contentLoaded
  | rulesRun
  | syntaxChecked
  | liveProbeRun
  | summarized
  | failed
  deriving DecidableEq, Repr, Inhabited

namespace Stage

/-- All stages. -/
def all : List Stage :=
  [notStarted, contentLoaded, rulesRun, syntaxChecked, liveProbeRun, summarized, failed]

/-- The name of the stage in data. -/
def key : Stage → String
  | notStarted => "not_started"
  | contentLoaded => "content_loaded"
  | rulesRun => "rules_run"
  | syntaxChecked => "syntax_checked"
  | liveProbeRun => "live_probe_run"
  | summarized => "summarized"
  | failed => "failed"

/-- The stage of a given key. -/
def ofKey? (s : String) : Option Stage := all.find? (·.key == s)

end Stage

end Preflight
