import Preflight.Detection

/-!
# What is verified

A *request* is what the operator asks for; a *context* is what every rule gets to see: the decoded
text, with the target, the profile and the settings that rules depend on.
-/

namespace Preflight

/-- What the operator sets for one run. -/
structure Overrides where
  profile : Option Profile
  skipLiveCheck : Bool
  skipSyntaxCheck : Bool
  deriving DecidableEq, Repr, Inhabited

/-- Nothing set. -/
def Overrides.none : Overrides := ⟨.none, false, false⟩

/-- The script to verify and how. -/
structure Request where
  path : String
  target : Target
  overrides : Overrides
  deriving DecidableEq, Repr, Inhabited

/-- The input of every rule. -/
structure Context where
  path : String
  content : List Char
  target : Target
  profile : Option Profile
  source : ProfileSource
  /-- The scores of the detection, if there was one. -/
  scores : Option Scores
  overrides : Overrides
  /-- Paths that a Flask application is expected to serve. -/
  endpoints : List String
  deriving DecidableEq, Repr, Inhabited

namespace Context

/-- The context of a text, with the profile resolved: PDQ scripts have the profile that the
operator names, or else the one that detection finds; other targets have none. -/
def resolve (request : Request) (policy : DetectionPolicy) (endpoints : List String)
    (content : List Char) : Context :=
  let bare : Context :=
    { path := request.path, content, target := request.target, profile := none,
      source := .notApplicable, scores := none, overrides := request.overrides, endpoints }
  if request.target ≠ .pdq then bare
  else
    match request.overrides.profile with
    | some p => { bare with profile := some p, source := .explicit }
    | none =>
      let found := policy.detect content
      { bare with
        profile := found.profile
        scores := some found.scores
        source := if found.profile.isSome then .detected else .undetermined }

end Context

end Preflight
