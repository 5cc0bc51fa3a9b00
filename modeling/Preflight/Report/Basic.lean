import Preflight.Context
import Preflight.Stage
import Preflight.Source.FileSystem
import Preflight.Verdict
import Preflight.Rule.Evaluate

/-!
# Reports

A report is all that a run leaves behind.  It holds no times, so the same input always gives the
same report.  Its verdict is the verdict on its diagnostics.
-/

namespace Preflight

/-- The version of the layout of reports. -/
def reportVersion : String := "0.1.0"

/-- The program that wrote a report. -/
structure Tool where
  name : String
  version : String
  commit : Option String
  deriving DecidableEq, Repr, Inhabited

/-- The hash of a script, with the name of the algorithm. -/
structure ScriptHash where
  algorithm : String
  value : String
  deriving DecidableEq, Repr, Inhabited

/-- What a report says of the script. -/
structure ScriptInfo where
  path : String
  size : Nat
  /-- Absent if the script could not be read. -/
  hash : Option ScriptHash
  deriving DecidableEq, Repr, Inhabited

/-- A script that has not been read. -/
def ScriptInfo.unread (path : String) : ScriptInfo := ⟨path, 0, none⟩

/-- A script that has been read. -/
def Script.info (s : Script) : ScriptInfo :=
  ⟨s.path, s.bytes.length, some ⟨"sha256", Sha256.hexHash s.bytes⟩⟩

/-- The profile of a run and how it was found. -/
structure ProfileInfo where
  profile : Option Profile
  source : ProfileSource
  scores : Option Scores
  deriving DecidableEq, Repr, Inhabited

/-- No profile. -/
def ProfileInfo.notApplicable : ProfileInfo := ⟨none, .notApplicable, none⟩

/-- The rules of a run. -/
structure RulesInfo where
  catalogVersion : String
  coverage : Coverage
  deriving DecidableEq, Repr, Inhabited

structure Report where
  schemaVersion : String
  tool : Tool
  script : ScriptInfo
  target : Target
  profile : ProfileInfo
  rules : RulesInfo
  diagnostics : Diagnostics
  verdict : Verdict
  stage : Stage
  deriving DecidableEq, Repr, Inhabited

namespace Report

/-- The report with the verdict that its diagnostics call for. -/
def assemble (tool : Tool) (script : ScriptInfo) (target : Target) (profile : ProfileInfo)
    (rules : RulesInfo) (diagnostics : Diagnostics) (stage : Stage) : Report :=
  { schemaVersion := reportVersion, tool, script, target, profile, rules, diagnostics,
    verdict := .of diagnostics, stage }

end Report

end Preflight
