import Preflight.Target
import Preflight.Text.Lowercase
import Preflight.Text.Lines
import Preflight.Pattern.Search

/-!
# Profile detection

A profile scores one point for each of its signatures that occurs in the script, letter case apart.
The highest score wins.  Below the confidence threshold of the policy no profile is chosen, and
profiles with the same score are told apart by their rank.
-/

namespace Preflight

/-- What counts as a sign of a profile, in a text in lower case. -/
inductive Signature where
  | literal (s : String)
  | pattern (p : Pattern)
  deriving DecidableEq, Repr

/-- The signature occurs in the lowered text. -/
def Signature.occursIn (lowered : List Char) : Signature → Bool
  | literal s => Text.contains s.toList lowered
  | pattern p => p.occursIn .insensitive lowered

/-- The signatures of a profile. -/
def Profile.signatures : Profile → List Signature
  | .inventory =>
    [.literal "new-object pscustomobject", .literal "convertto-json", .literal "| select-object",
      .literal "get-ciminstance", .literal "get-wmiobject", .literal "[pscustomobject]@\x7b"]
  | .deploy =>
    [.literal "start-process", .literal "msiexec", .literal "/quiet", .literal "/silent",
      .literal "install", .literal "exit ",
      .pattern (.text "test-path" ++ .run .inLine ++ .text "exe"), .literal "copy-item"]
  | .connect =>
    [.literal "invoke-command", .literal "new-pssession", .literal "enter-pssession",
      .literal "-computername", .literal "invoke-cimmethod"]

/-- How to choose a profile from scores. -/
structure DetectionPolicy where
  /-- The least score that a chosen profile has. -/
  minConfidence : Nat
  /-- Profiles in order of preference. -/
  priority : List Profile
  deriving DecidableEq, Repr, Inhabited

namespace DetectionPolicy

/-- The order of profiles that a policy does not mention. -/
def fallback : List Profile := [.inventory, .deploy, .connect]

/-- Two signatures are needed, and the fallback order decides. -/
def default : DetectionPolicy := ⟨2, fallback⟩

/-- The place of a profile in the order of preference: mentioned profiles by their first mention,
then the others in the fallback order. -/
def rank (policy : DetectionPolicy) (p : Profile) : Nat :=
  if p ∈ policy.priority then policy.priority.idxOf p
  else policy.priority.length + fallback.idxOf p

end DetectionPolicy

/-- How many signatures of each profile occur. -/
structure Scores where
  inventory : Nat
  deploy : Nat
  connect : Nat
  deriving DecidableEq, Repr, Inhabited

namespace Scores

/-- The score of a profile. -/
def get (s : Scores) : Profile → Nat
  | .inventory => s.inventory
  | .deploy => s.deploy
  | .connect => s.connect

/-- The highest score. -/
def max (s : Scores) : Nat := Max.max (Max.max s.inventory s.deploy) s.connect

/-- The scores of a text. -/
def ofText (text : List Char) : Scores :=
  let lowered := Text.lowercase text
  let score := fun (p : Profile) => p.signatures.countP (·.occursIn lowered)
  ⟨score .inventory, score .deploy, score .connect⟩

end Scores

/-- The member of a list with the least key, the first one of several. -/
def leastBy {α : Type} (key : α → Nat) : List α → Option α
  | [] => none
  | a :: as =>
    match leastBy key as with
    | none => some a
    | some b => if key b < key a then some b else some a

/-- The profile that scores and policy choose. -/
def DetectionPolicy.decide (policy : DetectionPolicy) (scores : Scores) : Option Profile :=
  if scores.max < policy.minConfidence then none
  else leastBy policy.rank (Profile.all.filter fun p => scores.get p == scores.max)

/-- The scores of a text, with the profile chosen by them. -/
structure Detection where
  profile : Option Profile
  scores : Scores
  deriving DecidableEq, Repr, Inhabited

/-- Scores a text and chooses. -/
def DetectionPolicy.detect (policy : DetectionPolicy) (text : List Char) : Detection :=
  let scores := Scores.ofText text
  ⟨policy.decide scores, scores⟩

end Preflight
