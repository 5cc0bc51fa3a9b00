import Preflight.Context
import Preflight.Diagnostic.Basic
import Preflight.Pattern.Notation

/-!
# Rules

A rule has a check, a function of the context that lists findings, and a severity for every column
of the severity matrix.  In a context whose column is empty the rule does not apply and is not run.
-/

namespace Preflight

/-- What a check finds.  A violation counts with the severity of the rule, a note is information. -/
inductive Finding where
  | violation (message : String)
  | note (message : String)
  deriving DecidableEq, Repr, Inhabited

/-- Why a check could not run. -/
inductive CheckError where
  | invalidPattern (written : String) (reason : NotationError)
  deriving DecidableEq, Repr

/-- The failure in words. -/
def CheckError.message : CheckError → String
  | invalidPattern written reason => s!"invalid pattern `{written}`: {reason.message written}"

/-- Reads a written pattern for a check. -/
def CheckError.pattern (written : String) : Except CheckError Pattern :=
  (Pattern.ofNotation written).mapError (.invalidPattern written)

/-- A function from contexts to findings, which may fail to run. -/
abbrev Check := Context → Except CheckError (List Finding)

/-- The severity of a rule without a profile and under each of the profiles. -/
structure SeverityMatrix where
  generic : Option Severity
  deploy : Option Severity
  inventory : Option Severity
  connect : Option Severity
  deriving DecidableEq, Repr, Inhabited

namespace SeverityMatrix

/-- One severity in every column. -/
def uniform (s : Severity) : SeverityMatrix := ⟨some s, some s, some s, some s⟩

/-- A severity in the generic column only. -/
def genericOnly (s : Severity) : SeverityMatrix := ⟨some s, none, none, none⟩

/-- The column of a profile; without a profile, the generic column. -/
def column (m : SeverityMatrix) : Option Profile → Option Severity
  | none => m.generic
  | some .deploy => m.deploy
  | some .inventory => m.inventory
  | some .connect => m.connect

end SeverityMatrix

structure Rule where
  id : RuleId
  title : String
  targets : List Target
  severity : SeverityMatrix
  check : Check

namespace Rule

/-- The severity of the rule for a target and a profile, or `none` where it does not apply.
Profiles count for PDQ scripts only. -/
def severityIn (r : Rule) (target : Target) (profile : Option Profile) : Option Severity :=
  if target ∈ r.targets then r.severity.column (if target = .pdq then profile else none) else none

/-- The rule has a generic column. -/
def isUniversal (r : Rule) : Bool := r.severity.generic.isSome

end Rule

end Preflight
