import Preflight.Checks.Pdq
import Preflight.Proofs.AddedLines.Search
import Preflight.Proofs.Evaluation
import Preflight.Proofs.Secrets

/-!
# Checks that lines around a text do not mask

What is looked for by patterns that do not ask for the start of the text is
found again when lines are put above and below.

* `promptItems_amid` and `windowItems_amid`: everything that waits for a person
  or opens a window is listed again, in the same order.
* `consoleWrites_amid`: no fewer console writes are counted.
* `sqlInjection_amid`: a formatted query is still found.

The first group has one search in it that looks at what a match holds: a
credential prompt counts only without a message.  Its pattern stays in its line,
so the search goes the same way through the text.
-/

namespace Preflight

namespace Checks

open Pattern Text

variable (above below content : List Char)

/-! ## Lists of items -/

/-- All items in one message; without items there is none. -/
def listed (heading : String) : List String → List String
  | [] => []
  | items => [heading ++ String.intercalate "; " items]

theorem listed_eq_nil_iff {heading : String} {items : List String} :
    listed heading items = [] ↔ items = [] := by
  cases items <;> simp [listed]

theorem labelsIn_amid {table : List (Pattern × String)}
    (htable : ∀ entry ∈ table, entry.1.unanchored = true) :
    (labelsIn content table).Sublist
      (labelsIn (Text.amid above below content) table) := by
  refine List.Sublist.map _ ?_
  induction table with
  | nil => exact .slnil
  | cons entry table ih =>
    obtain ⟨hentry, htable⟩ := List.forall_mem_cons.mp htable
    have ih := ih htable
    rw [List.filter_cons, List.filter_cons]
    by_cases hoccurs : entry.1.occursIn .insensitive content = true
    · rw [if_pos hoccurs, if_pos (occursIn_amid above below hentry hoccurs)]
      exact ih.cons_cons entry
    · rw [if_neg hoccurs]
      split
      · exact ih.cons entry
      · exact ih

/-- Amid the lines, a bare credential prompt is found as such. -/
theorem hasBareCredentialPrompt_amid
    (h : hasBareCredentialPrompt content = true) :
    hasBareCredentialPrompt (Text.amid above below content) = true := by
  have hlines : credentialPrompt.staysInLine .insensitive = true := by decide
  obtain ⟨found, hfound, hbare⟩ := List.any_eq_true.mp h
  refine List.any_eq_true.mpr ⟨found.amid above below, ?_, ?_⟩
  · exact (findAll_amid above below hlines content).subset
      (List.mem_map_of_mem hfound)
  · rw [Match.group?, Option.isNone_map] at hbare ⊢
    exact (congrArg Option.isNone (List.find?_map ..)).trans
      ((Option.isNone_map ..).trans hbare)

/-- The prompts that a text holds, as they are listed. -/
def promptItems (content : List Char) : List String :=
  (if (wordBoundary ++ text "Read-Host" ++ wordBoundary).occursIn .insensitive
      content then
    ["Read-Host will hang PDQ - use parameters instead"]
  else []) ++
  (if hasBareCredentialPrompt content then
    ["Get-Credential without parameters will hang PDQ"]
  else []) ++
  labelsIn content promptShapes

theorem violations_interactivePrompts (c : Context) :
    (interactivePrompts c).filter (·.isViolation) =
      (listed "Interactive commands found (will hang PDQ): "
        (promptItems c.content)).map .violation := by
  show (match promptItems c.content with
    | [] => []
    | found =>
      [Finding.violation ("Interactive commands found (will hang PDQ): " ++
        String.intercalate "; " found)]).filter _ = _
  cases promptItems c.content <;> rfl

theorem promptItems_amid :
    (promptItems content).Sublist
      (promptItems (Text.amid above below content)) := by
  have hif {p q : Prop} [Decidable p] [Decidable q] (h : p → q) (item : String) :
      (if p then [item] else []).Sublist (if q then [item] else []) := by
    by_cases hp : p
    · rw [if_pos hp, if_pos (h hp)]
    · rw [if_neg hp]
      exact List.nil_sublist _
  refine .append (.append (hif ?_ _) (hif ?_ _)) ?_
  · exact occursIn_amid above below (by decide)
  · exact hasBareCredentialPrompt_amid above below content
  · exact labelsIn_amid above below content (by decide)

/-- What opens windows in a text, as it is listed. -/
def windowItems (content : List Char) : List String :=
  labelsIn content windowShapes

theorem violations_guiElements (c : Context) :
    (guiElements c).filter (·.isViolation) =
      (listed "GUI elements found (won't work in PDQ): "
        (windowItems c.content)).map .violation := by
  rw [guiElements, windowItems]
  cases labelsIn c.content windowShapes <;> rfl

theorem windowItems_amid :
    (windowItems content).Sublist
      (windowItems (Text.amid above below content)) :=
  labelsIn_amid above below content (by decide)

/-! ## Queries -/

theorem violations_sqlInjection (c : Context) :
    (sqlInjection c).filter (·.isViolation) = sqlInjection c := by
  rw [sqlInjection]
  split <;> rfl

theorem sqlInjection_amid {context wide : Context}
    (hwide : wide.content = Text.amid above below context.content)
    (h : sqlInjection context ≠ []) : sqlInjection wide ≠ [] := by
  have hqueries : ∀ p ∈ formattedQueries, p.unanchored = true := by decide
  have hfound : formattedQueries.any (·.occursIn .insensitive context.content) =
      true := by
    by_contra hnone
    exact h (if_neg hnone)
  obtain ⟨p, hp, hoccurs⟩ := List.any_eq_true.mp hfound
  have hstill : formattedQueries.any (·.occursIn .insensitive wide.content) =
      true :=
    List.any_eq_true.mpr
      ⟨p, hp, hwide ▸ occursIn_amid above below (hqueries p hp) hoccurs⟩
  rw [sqlInjection, if_pos hstill]
  exact List.cons_ne_nil _ _

/-! ## Console writes -/

/-- A console write, up to its arguments. -/
def consoleWrite : Pattern := text "Write-Host" ++ someSpace

/-- How many console writes are counted. -/
def consoleWrites (content : List Char) : Nat :=
  consoleWrite.count .insensitive content

/-- The first letter of a console write does not come again in it. -/
theorem consoleWrite_apart : consoleWrite.Apart .insensitive := by
  intro front left right back piece back' hleft hright hsplit hfinds hother
  rw [consoleWrite] at hfinds hother
  obtain ⟨name, blanks, hpiece, hname, hspaces⟩ := finds_append_iff.mp hfinds
  obtain ⟨name', blanks', rfl, hname', -⟩ := finds_append_iff.mp hother
  rw [finds_text_insensitive_iff] at hname hname'
  obtain ⟨-, hblanks⟩ := finds_someSpace_iff.mp hspaces
  have hfold : "Write-Host".toList.map simpleFold =
      'w' :: "rite-host".toList := by decide
  obtain ⟨first, letters, rfl, -, hletters⟩ :=
    List.map_eq_cons_iff.mp (hname.trans hfold)
  obtain ⟨second, letters', rfl, hsecond, -⟩ :=
    List.map_eq_cons_iff.mp (hname'.trans hfold)
  -- The second write starts with a letter or with a blank of the first one.
  have hmem : second ∈ letters ++ blanks := by
    obtain ⟨x, left, rfl⟩ := List.exists_cons_of_ne_nil hleft
    obtain ⟨y, right, rfl⟩ := List.exists_cons_of_ne_nil hright
    obtain ⟨rfl, -⟩ := List.cons.inj hsplit
    obtain ⟨-, htail⟩ := List.cons.inj hpiece
    have htail : left ++ y :: right = letters ++ blanks := htail
    rw [← htail]
    exact List.mem_append_right left List.mem_cons_self
  rcases List.mem_append.mp hmem with hmem | hmem
  · have hfolded := List.mem_map_of_mem (f := simpleFold) hmem
    rw [hsecond, hletters] at hfolded
    revert hfolded
    decide
  · have hvariant : second ∈ caseVariants 'w' := mem_caseVariants_iff.mpr hsecond
    have hblank : (caseVariants 'w').all (!isSpace ·) = true := by decide
    have hspace := hblanks second hmem
    have hnot := List.all_eq_true.mp hblank second hvariant
    rw [hspace] at hnot
    cases hnot

/-- The number of writes, if there are any, stands in one message. -/
def counted (before after : String) (n : Nat) : List String :=
  if n = 0 then [] else [before ++ toString n ++ after]

theorem counted_eq_nil_iff {before after : String} {n : Nat} :
    counted before after n = [] ↔ n = 0 := by
  simp [counted]

/-- Apart from their number, what is said of the writes depends on the target and
the profile only. -/
theorem violations_consoleOutput (target : Target) (profile : Option Profile) :
    ∃ before after, ∀ c : Context, c.target = target → c.profile = profile →
      (consoleOutput c).filter (·.isViolation) =
        (counted before after (consoleWrites c.content)).map .violation := by
  have hcounted {note before after message : String} {n : Nat}
      (hmessage : message = before ++ toString n ++ after) :
      (if n = 0 then [Finding.note note]
        else [.violation message]).filter (·.isViolation) =
        (counted before after n).map .violation := by
    rw [counted, hmessage]
    split <;> rfl
  by_cases hscanner : profile = Option.some .inventory ∧ target = .pdq
  · refine ⟨"CRITICAL: Found ", " Write-Host usage(s) in Inventory scanner. " ++
      "Console-only output breaks structured data collection! " ++
      "Use Write-Output or return objects directly.", ?_⟩
    rintro c rfl rfl
    rw [consoleOutput, if_pos hscanner]
    refine hcounted ?_
    simp only [String.append_assoc]
    rfl
  · refine ⟨"Found ", " Write-Host usage(s). " ++
      "Console-only output bypasses the pipeline; " ++
      "consider Write-Output or Write-Verbose.", ?_⟩
    rintro c rfl rfl
    rw [consoleOutput, if_neg hscanner]
    refine hcounted ?_
    simp only [String.append_assoc]
    rfl

theorem consoleWrites_amid :
    consoleWrites content ≤ consoleWrites (Text.amid above below content) := by
  rw [consoleWrites, consoleWrites, count_eq_startsIn consoleWrite_apart,
    count_eq_startsIn consoleWrite_apart]
  exact startsIn_le_amid above below (by decide) content

end Checks

end Preflight
