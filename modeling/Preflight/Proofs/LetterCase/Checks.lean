import Preflight.Proofs.Evaluation
import Preflight.Proofs.LetterCase.Pattern

/-!
# Checks that do not tell cases apart

A check of a PowerShell or PDQ script finds in the folded text what it finds
in the text: the patterns are matched without regard to case, the words are
looked up in lower case, and the codes and names that are read from the text
are judged by what folding keeps.

Two checks show the text that they find, and so only the kinds of their
findings are the same: `hardcodedPaths`, of which it is proved here
(`kinds_hardcodedPaths_folded`), and `namingConvention`, where the case is the
very question.
-/

namespace Preflight

open Text

/-- The context with the folded text. -/
def Context.folded (c : Context) : Context :=
  { c with content := Text.folded c.content }

@[simp] theorem Context.folded_content (c : Context) :
    c.folded.content = Text.folded c.content :=
  rfl

@[simp] theorem Context.folded_target (c : Context) :
    c.folded.target = c.target :=
  rfl

@[simp] theorem Context.folded_profile (c : Context) :
    c.folded.profile = c.profile :=
  rfl

namespace Checks

/-! ## What checks ask of a text -/

@[simp] theorem labelsIn_folded (content : List Char)
    (table : List (Pattern × String)) :
    labelsIn (Text.folded content) table = labelsIn content table := by
  simp only [labelsIn, Pattern.occursIn_folded]

@[simp] theorem mentions_folded (content : List Char) (needle : String) :
    mentions (Text.folded content) needle = mentions content needle := by
  rw [mentions, mentions, lowercase_folded]

@[simp] theorem functionNames_folded (content : List Char) :
    functionNames (Text.folded content) =
      (functionNames content).map Text.folded :=
  functionDeclaration.captures_folded content

@[simp] theorem exitCodes_folded (content : List Char) :
    exitCodes (Text.folded content) = (exitCodes content).map Text.folded :=
  exitStatement.captures_folded content

@[simp] theorem catchBodies_folded (content : List Char) :
    catchBodies (Text.folded content) = (catchBodies content).map Text.folded :=
  catchOpener.bodiesAfter_folded Delimiters.caseless_braces content

@[simp] theorem setsErrorAction_folded (content : List Char) :
    setsErrorAction (Text.folded content) = setsErrorAction content := by
  simp only [setsErrorAction, Pattern.occursIn_folded]

@[simp] theorem resultCalls_folded (content : List Char) :
    resultCalls (Text.folded content) = resultCalls content :=
  Pattern.count_folded _ content

/-- Digits have their values in both cases. -/
@[simp] theorem word?_folded (base : Nat) (digits : List Char) :
    word? base (Text.folded digits) = word? base digits := by
  have hdigit (c : Char) : Notation.hexValue? c.toLower = Notation.hexValue? c :=
    apply_toLower Notation.hexValue? (by decide) c
  have hread (value : Nat) :
      readWord? base value (Text.folded digits) = readWord? base value digits := by
    induction digits generalizing value with
    | nil => rfl
    | cons c digits ih => simp only [folded_cons, readWord?, hdigit, ih]
  have hnil : Text.folded digits = [] ↔ digits = [] := List.map_eq_nil_iff
  simp only [word?, hnil, hread]

/-- The mark of hexadecimal digits may be written in both cases, and a zero is
no letter. -/
@[simp] theorem exitCodeValue?_folded (code : List Char) :
    exitCodeValue? (Text.folded code) = exitCodeValue? code := by
  have hzero (c : Char) : c.toLower = '0' ↔ c = '0' :=
    toLower_eq_iff (by decide) (by decide) c
  have hmark (c : Char) :
      (c.toLower = 'x' ∨ c.toLower = 'X') ↔ (c = 'x' ∨ c = 'X') :=
    decide_eq_decide.mp <|
      apply_toLower (fun c => decide (c = 'x' ∨ c = 'X')) (by decide) c
  fun_cases exitCodeValue? code with
  | case1 x digits hx =>
    rw [folded_cons, folded_cons, (hzero '0').mpr rfl, exitCodeValue?,
      if_pos ((hmark x).mpr hx), word?_folded]
  | case2 x digits hx =>
    have hcode := word?_folded 10 ('0' :: x :: digits)
    rw [folded_cons, folded_cons, (hzero '0').mpr rfl] at hcode ⊢
    rw [exitCodeValue?, if_neg fun h => hx ((hmark x).mp h)]
    exact hcode
  | case3 code hcode =>
    rw [exitCodeValue?.eq_2, word?_folded]
    intro x digits h
    obtain ⟨c, rest, rfl, hc, hrest⟩ := List.map_eq_cons_iff.mp h
    obtain ⟨y, ys, rfl, -, -⟩ := List.map_eq_cons_iff.mp hrest
    exact hcode y ys (by rw [(hzero c).mp hc])

@[simp] theorem isSuccessCode_folded (code : List Char) :
    isSuccessCode (Text.folded code) = isSuccessCode code := by
  rw [isSuccessCode, exitCodeValue?_folded, isSuccessCode]

@[simp] theorem hasBareCredentialPrompt_folded (content : List Char) :
    hasBareCredentialPrompt (Text.folded content) =
      hasBareCredentialPrompt content := by
  rw [hasBareCredentialPrompt, hasBareCredentialPrompt, Pattern.findAll_folded,
    List.any_map]
  congr 1
  funext found
  rw [Function.comp_apply, Match.group?_folded, Option.isNone_map]

@[simp] theorem drivePaths_folded (content : List Char) :
    drivePaths (Text.folded content) = (drivePaths content).map Text.folded :=
  drivePath.captures_folded content

/-- Whether a user is shared is decided on the folded name. -/
@[simp] theorem userPaths_folded (content : List Char) :
    userPaths (Text.folded content) = (userPaths content).map Text.folded := by
  have huser (user : Option (List Char)) :
      ((user.map Text.folded).getD []).map Char.toLower =
        (user.getD []).map Char.toLower := by
    cases user with
    | none => rfl
    | some name => exact folded_folded name
  rw [userPaths, userPaths, Pattern.findAll_folded, List.filterMap_map,
    List.map_filterMap]
  congr 1
  funext found
  simp only [Function.comp_apply, Match.group?_folded, huser]
  split <;> rfl

/-! ## Checks for every target -/

section

variable (c : Context)

@[simp] theorem embeddedSecrets_folded :
    embeddedSecrets c.folded = embeddedSecrets c := by
  rw [embeddedSecrets, Context.folded_content, labelsIn_folded, embeddedSecrets]

@[simp] theorem sqlInjection_folded :
    sqlInjection c.folded = sqlInjection c := by
  simp only [sqlInjection, Context.folded_content, Pattern.occursIn_folded]

/-! ## Checks of PowerShell scripts -/

@[simp] theorem consoleOutput_folded :
    consoleOutput c.folded = consoleOutput c := by
  rw [consoleOutput, Context.folded_content, Pattern.count_folded, consoleOutput]
  rfl

@[simp] theorem tryCatchMismatch_folded :
    tryCatchMismatch c.folded = tryCatchMismatch c := by
  rw [tryCatchMismatch, Context.folded_content, Pattern.count_folded,
    Pattern.count_folded, tryCatchMismatch]

@[simp] theorem noErrorHandling_folded :
    noErrorHandling c.folded = noErrorHandling c := by
  rw [noErrorHandling, Context.folded_content, Pattern.occursIn_folded,
    setsErrorAction_folded, Context.folded_target, noErrorHandling]

@[simp] theorem noErrorAction_folded :
    noErrorAction c.folded = noErrorAction c := by
  rw [noErrorAction, Context.folded_content, setsErrorAction_folded,
    noErrorAction]

@[simp] theorem silentCatch_folded : silentCatch c.folded = silentCatch c := by
  have hmentions (body : List Char) :
      mentions (Text.folded body) = mentions body :=
    funext (mentions_folded body)
  rw [silentCatch, Context.folded_content, catchBodies_folded, silentCatch,
    List.zipIdx_map, List.filterMap_map]
  congr 1
  funext ⟨body, n⟩
  simp only [Function.comp_apply, Prod.map_apply, hmentions, id]

@[simp] theorem successOnlyExit_folded :
    successOnlyExit c.folded = successOnlyExit c := by
  rw [successOnlyExit, successOnlyExit, Context.folded_content,
    exitCodes_folded]
  cases exitCodes c.content with
  | nil => rfl
  | cons code codes =>
    simp only [List.map_cons, List.any_cons, List.any_map, List.length_cons,
      List.length_map, Function.comp_def, isSuccessCode_folded]

@[simp] theorem paramValidation_folded :
    paramValidation c.folded = paramValidation c := by
  rw [paramValidation, paramValidation, Context.folded_content,
    paramOpener.bodiesAfter_folded Delimiters.caseless_parens,
    Pattern.occursIn_folded]
  cases paramOpener.bodiesAfter .insensitive .parens c.content with
  | nil => rfl
  | cons block blocks =>
    rw [List.map_cons]
    simp only [List.countP_cons, List.countP_map, Function.comp_def,
      mentions_folded]

@[simp] theorem adminCheck_folded : adminCheck c.folded = adminCheck c := by
  rw [adminCheck, Context.folded_content, labelsIn_folded, mentions_folded,
    adminCheck]

@[simp] theorem resultLoggingMissing_folded :
    resultLoggingMissing c.folded = resultLoggingMissing c := by
  simp only [resultLoggingMissing, Context.folded_content,
    functionNames_folded, resultCalls_folded, ne_eq, List.map_eq_nil_iff]

@[simp] theorem resultLoggingSparse_folded :
    resultLoggingSparse c.folded = resultLoggingSparse c := by
  rw [resultLoggingSparse, Context.folded_content, functionNames_folded,
    List.length_map, resultCalls_folded, resultLoggingSparse]

/-! ## Checks of PDQ scripts -/

@[simp] theorem exitCodeMissing_folded :
    exitCodeMissing c.folded = exitCodeMissing c := by
  simp only [exitCodeMissing, Context.folded_content, exitCodes_folded, ne_eq,
    List.map_eq_nil_iff]

@[simp] theorem catchWithoutExit_folded :
    catchWithoutExit c.folded = catchWithoutExit c := by
  have hleaving (bodies : List (List Char)) :
      (bodies.map Text.folded).any (leaving.occursIn .insensitive) =
        bodies.any (leaving.occursIn .insensitive) := by
    rw [List.any_map]
    exact congrArg bodies.any (funext (leaving.occursIn_folded ·))
  rw [catchWithoutExit, catchWithoutExit, Context.folded_content,
    catchBodies_folded]
  cases hbodies : catchBodies c.content with
  | nil => rfl
  | cons body bodies => simp only [List.map_cons, ← hleaving (body :: bodies)]

@[simp] theorem interactivePrompts_folded :
    interactivePrompts c.folded = interactivePrompts c := by
  rw [interactivePrompts, Context.folded_content, Pattern.occursIn_folded,
    hasBareCredentialPrompt_folded, labelsIn_folded, interactivePrompts]

@[simp] theorem guiElements_folded : guiElements c.folded = guiElements c := by
  rw [guiElements, Context.folded_content, labelsIn_folded, guiElements]

theorem firstOccurrences_eq_nil_iff {α : Type} [DecidableEq α] (found : List α) :
    firstOccurrences [] found = [] ↔ found = [] := by
  cases found with
  | nil => exact Iff.rfl
  | cons a found => simp [firstOccurrences]

/-- Paths that differ in case count as different paths, so that more or fewer
of them may be listed.  All of them are listed in one violation. -/
theorem kinds_hardcodedPaths_folded :
    (hardcodedPaths c.folded).map (·.isViolation) =
      (hardcodedPaths c).map (·.isViolation) := by
  have hkinds (context : Context) :
      (hardcodedPaths context).map (·.isViolation) =
        if userPaths context.content ++ drivePaths context.content = [] then []
        else [true] := by
    rw [hardcodedPaths]
    simp only [← firstOccurrences_eq_nil_iff (userPaths _ ++ drivePaths _)]
    split
    · rename_i hnone
      rw [if_pos hnone]
      rfl
    · rename_i hsome
      rw [if_neg hsome]
      rfl
  rw [hkinds, hkinds, Context.folded_content, userPaths_folded,
    drivePaths_folded, ← List.map_append]
  simp only [List.map_eq_nil_iff]

@[simp] theorem sessionCleanup_folded :
    sessionCleanup c.folded = sessionCleanup c := by
  simp only [sessionCleanup, Context.folded_content, Pattern.occursIn_folded]

@[simp] theorem structuredOutput_folded :
    structuredOutput c.folded = structuredOutput c := by
  rw [structuredOutput, Context.folded_content, Pattern.occursIn_folded,
    Pattern.occursIn_folded, structuredOutput]

@[simp] theorem silentInstall_folded :
    silentInstall c.folded = silentInstall c := by
  rw [silentInstall, Context.folded_content, Pattern.occursIn_folded,
    silentInstall]

@[simp] theorem installVerification_folded :
    installVerification c.folded = installVerification c := by
  rw [installVerification, Context.folded_content, Pattern.occursIn_folded,
    installVerification]

end

end Checks

end Preflight
