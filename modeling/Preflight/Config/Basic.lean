import Preflight.Detection
import Preflight.Text.Lines

/-!
# Configuration

The settings of a run, by section.  Every setting has a default.  Times are in milliseconds.
-/

namespace Preflight

/-- How the external parser is run. -/
structure ParserSettings where
  enabled : Bool
  program : String
  timeout : Nat
  deriving DecidableEq, Repr, Inhabited

/-- How a Flask application is started and probed. -/
structure LiveSettings where
  enabled : Bool
  /-- The interpreter that starts the application. -/
  program : String
  /-- The arguments in front of the application's path. -/
  args : List String
  baseUrl : String
  /-- The path that is polled until the server answers. -/
  readyPath : String
  attempts : Nat
  /-- The pause between two polls. -/
  interval : Nat
  readyTimeout : Nat
  requestTimeout : Nat
  /-- How long to wait for the terminated server. -/
  shutdownTimeout : Nat
  deriving DecidableEq, Repr, Inhabited

/-- All settings. -/
structure Config where
  detection : DetectionPolicy
  parserCheck : ParserSettings
  live : LiveSettings
  /-- Paths that a Flask application is expected to serve. -/
  endpoints : List String
  deriving DecidableEq, Repr, Inhabited

/-- The stock parser. -/
def ParserSettings.default : ParserSettings := ⟨true, "pwsh", 10000⟩

/-- A local server, polled for five seconds. -/
def LiveSettings.default : LiveSettings where
  enabled := true
  program := "python"
  args := []
  baseUrl := "http://localhost:5000"
  readyPath := "/api/tools"
  attempts := 10
  interval := 500
  readyTimeout := 1000
  requestTimeout := 10000
  shutdownTimeout := 5000

namespace Config

/-- The stock settings. -/
def default : Config := ⟨.default, .default, .default, ["/api/tools", "/api/run"]⟩

/-- Why settings make no sense. -/
inductive Fault where
  | zeroConfidence
  | repeatedPriority (p : Profile)
  | zeroAttempts
  | emptyBaseUrl
  deriving DecidableEq, Repr

/-- The fault in words. -/
def Fault.message : Fault → String
  | zeroConfidence => "invalid config: detection.min_confidence must be at least 1"
  | repeatedPriority p =>
    s!"invalid config: detection.priority lists {p.label} more than once"
  | zeroAttempts => "invalid config: live.attempts must be at least 1"
  | emptyBaseUrl => "invalid config: live.base_url must not be empty"

/-- The first member of a list that equals an earlier one, or one of `seen`. -/
def firstRepeated? (seen : List Profile) : List Profile → Option Profile
  | [] => none
  | p :: ps => if p ∈ seen then some p else firstRepeated? (p :: seen) ps

/-- The first fault of the settings, in the order of the sections. -/
def fault? (c : Config) : Option Fault :=
  if c.detection.minConfidence = 0 then some .zeroConfidence
  else
    match firstRepeated? [] c.detection.priority with
    | some p => some (.repeatedPriority p)
    | none =>
      if c.live.attempts = 0 then some .zeroAttempts
      else if Text.isBlank c.live.baseUrl.toList then some .emptyBaseUrl
      else none

end Config

end Preflight
