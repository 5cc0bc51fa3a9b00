/-!
# Targets and profiles

A script is verified for a *target*: a generic PowerShell toolkit, the PDQ deployment products, or
a Flask web application.  PDQ scripts moreover have a *profile*, which is chosen by the operator or
detected from the text.
-/

namespace Preflight

/-- The environment that a script is verified for. -/
inductive Target where
  | powerShell
  | pdq
  | flask
  deriving DecidableEq, Repr, Inhabited

namespace Target

/-- All targets. -/
def all : List Target := [powerShell, pdq, flask]

/-- The name of the target in reports. -/
def label : Target → String
  | powerShell => "PowerShell"
  | pdq => "PDQ"
  | flask => "Flask"

/-- The name of the target in data. -/
def key : Target → String
  | powerShell => "powershell"
  | pdq => "pdq"
  | flask => "flask"

/-- The target of a given key. -/
def ofKey? (s : String) : Option Target := all.find? (·.key == s)

/-- Scripts for the target are written in PowerShell. -/
def isPowerShell : Target → Bool
  | powerShell | pdq => true
  | flask => false

end Target

/-- What a PDQ script is for. -/
inductive Profile where
  | deploy
  | inventory
  | connect
  deriving DecidableEq, Repr, Inhabited

namespace Profile

/-- All profiles. -/
def all : List Profile := [deploy, inventory, connect]

/-- The name of the profile in reports. -/
def label : Profile → String
  | deploy => "Deploy"
  | inventory => "Inventory"
  | connect => "Connect"

/-- The name of the profile in data. -/
def key : Profile → String
  | deploy => "deploy"
  | inventory => "inventory"
  | connect => "connect"

/-- The profile of a given key. -/
def ofKey? (s : String) : Option Profile := all.find? (·.key == s)

end Profile

/-- How the profile of a run was found. -/
inductive ProfileSource where
  /-- The operator named it. -/
  | explicit
  /-- The script's text showed it. -/
  | detected
  /-- The script's text did not show one clearly enough. -/
  | undetermined
  /-- The target has no profiles. -/
  | notApplicable
  deriving DecidableEq, Repr, Inhabited

namespace ProfileSource

/-- All sources. -/
def all : List ProfileSource := [explicit, detected, undetermined, notApplicable]

/-- The name of the source in data. -/
def key : ProfileSource → String
  | explicit => "explicit"
  | detected => "detected"
  | undetermined => "undetermined"
  | notApplicable => "not_applicable"

/-- The source of a given key. -/
def ofKey? (s : String) : Option ProfileSource := all.find? (·.key == s)

end ProfileSource

end Preflight
