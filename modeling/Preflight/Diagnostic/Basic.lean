import Preflight.Rule.Id

/-!
# Diagnostics

A run collects diagnostics in three sequences, one per severity.  They only grow, and each keeps
the order in which its members were recorded; equal diagnostics are all kept.
-/

namespace Preflight

inductive Severity where
  | error
  | warning
  | info
  deriving DecidableEq, Repr, Inhabited

namespace Severity

/-- All severities. -/
def all : List Severity := [error, warning, info]

/-- The name of the severity in data. -/
def key : Severity → String
  | error => "error"
  | warning => "warning"
  | info => "info"

/-- The severity of a given key. -/
def ofKey? (s : String) : Option Severity := all.find? (·.key == s)

end Severity

/-- One thing that a run has to say. -/
structure Diagnostic where
  severity : Severity
  message : String
  ruleId : Option RuleId
  deriving DecidableEq, Repr, Inhabited

/-- The diagnostics of a run, by severity. -/
structure Diagnostics where
  errors : List Diagnostic
  warnings : List Diagnostic
  info : List Diagnostic
  deriving DecidableEq, Repr, Inhabited

namespace Diagnostics

/-- No diagnostics. -/
def empty : Diagnostics := ⟨[], [], []⟩

/-- The sequence of one severity. -/
def bucket (ds : Diagnostics) : Severity → List Diagnostic
  | .error => ds.errors
  | .warning => ds.warnings
  | .info => ds.info

/-- Appends a diagnostic to the sequence of its severity. -/
def push (ds : Diagnostics) (d : Diagnostic) : Diagnostics :=
  match d.severity with
  | .error => { ds with errors := ds.errors ++ [d] }
  | .warning => { ds with warnings := ds.warnings ++ [d] }
  | .info => { ds with info := ds.info ++ [d] }

/-- Appends diagnostics one after the other. -/
def pushAll (ds : Diagnostics) (new : List Diagnostic) : Diagnostics := new.foldl push ds

/-- Records a message. -/
def record (ds : Diagnostics) (severity : Severity) (message : String) (ruleId : Option RuleId) :
    Diagnostics :=
  ds.push ⟨severity, message, ruleId⟩

/-- How many diagnostics there are of a severity. -/
def count (ds : Diagnostics) (severity : Severity) : Nat := (ds.bucket severity).length

/-- How many diagnostics there are. -/
def size (ds : Diagnostics) : Nat := ds.errors.length + ds.warnings.length + ds.info.length

/-- All diagnostics, errors first and information last. -/
def toList (ds : Diagnostics) : List Diagnostic := ds.errors ++ ds.warnings ++ ds.info

/-- No error has been recorded. -/
def isPassing (ds : Diagnostics) : Bool := ds.errors.isEmpty

/-- A diagnostic goes to the end of the sequence of its severity and leaves the others alone. -/
theorem bucket_push (ds : Diagnostics) (d : Diagnostic) (severity : Severity) :
    (ds.push d).bucket severity =
      if d.severity = severity then ds.bucket severity ++ [d] else ds.bucket severity := by
  unfold push
  cases h : d.severity <;> cases severity <;> simp [bucket]

end Diagnostics

end Preflight
