import Preflight.Proofs.Evaluation
import Preflight.Proofs.LineEnds.Search

/-!
# Checks that do not tell line ends apart

A check finds in the text with CR LF for every LF what it finds in the text: all
its patterns are line-neutral, and the words that it looks up stand on one line.

Some checks need more than that:

* `namingConvention` and `routesDefined` show names and paths, which may go over
  line ends; the kinds of their findings are the same
  (`kinds_namingConvention_crlf`, `kinds_routesDefined_crlf`).
* `expectedEndpoints` compares paths with the endpoints, and those must stand on
  one line.
* `silentInstall` looks for a switch behind white space, so that its match may
  start at the LF of a CR LF.
* `routeErrorHandling` reads lines, and the text must have no CR of its own
  (`routeHandlers_crlf`).

Nothing is said of `hardcodedPaths`: a quoted path may end with the line, and is
another path then (`hardcodedPaths_crlf_eq_nil_iff` says what this changes).
-/

namespace Preflight

open Text

/-- The context with other line ends. -/
def Context.crlf (c : Context) : Context :=
  { c with content := Text.crlf c.content }

@[simp] theorem Context.crlf_content (c : Context) :
    c.crlf.content = Text.crlf c.content :=
  rfl

@[simp] theorem Context.crlf_target (c : Context) : c.crlf.target = c.target :=
  rfl

@[simp] theorem Context.crlf_profile (c : Context) :
    c.crlf.profile = c.profile :=
  rfl

@[simp] theorem Context.crlf_endpoints (c : Context) :
    c.crlf.endpoints = c.endpoints :=
  rfl

namespace Checks

open Pattern

/-! ## What checks ask of a text -/

/-- What is asked of each member of a list need not be the same of others. -/
theorem any_congr_mem {α : Type} {as : List α} {p q : α → Bool}
    (h : ∀ a ∈ as, p a = q a) : as.any p = as.any q := by
  rw [Bool.eq_iff_iff, List.any_eq_true, List.any_eq_true]
  exact exists_congr fun a => and_congr_right fun ha => by rw [h a ha]

theorem labelsIn_crlf {table : List (Pattern × String)}
    (htable : ∀ entry ∈ table, entry.1.LineNeutral .insensitive)
    (content : List Char) :
    labelsIn (Text.crlf content) table = labelsIn content table := by
  rw [labelsIn, labelsIn]
  congr 1
  exact List.filter_congr fun entry h => (htable entry h).occursIn_crlf content

theorem mentions_crlf {needle : String}
    (hneedle : OnLine (lowercase needle.toList)) (content : List Char) :
    mentions (Text.crlf content) needle = mentions content needle := by
  rw [mentions, mentions, lowercase_crlf, contains_crlf hneedle]

theorem has_crlf {s : String} (hs : OnLine s.toList) (content : List Char) :
    has (Text.crlf content) s = has content s :=
  contains_crlf hs content

@[simp] theorem functionNames_crlf (content : List Char) :
    functionNames (Text.crlf content) =
      (functionNames content).map Text.crlf :=
  LineNeutral.captures_crlf (by decide) content

@[simp] theorem exitCodes_crlf (content : List Char) :
    exitCodes (Text.crlf content) = (exitCodes content).map Text.crlf :=
  LineNeutral.captures_crlf (by decide) content

@[simp] theorem catchBodies_crlf (content : List Char) :
    catchBodies (Text.crlf content) = (catchBodies content).map Text.crlf :=
  LineNeutral.bodiesAfter_crlf (by decide) (by decide) content

@[simp] theorem setsErrorAction_crlf (content : List Char) :
    setsErrorAction (Text.crlf content) = setsErrorAction content := by
  rw [setsErrorAction, LineNeutral.occursIn_crlf (by decide),
    LineNeutral.occursIn_crlf (by decide), setsErrorAction]

@[simp] theorem resultCalls_crlf (content : List Char) :
    resultCalls (Text.crlf content) = resultCalls content :=
  LineNeutral.count_crlf (by decide) content

@[simp] theorem hasBareCredentialPrompt_crlf (content : List Char) :
    hasBareCredentialPrompt (Text.crlf content) =
      hasBareCredentialPrompt content := by
  rw [hasBareCredentialPrompt, hasBareCredentialPrompt,
    LineNeutral.findAll_crlf (by decide), List.any_map]
  congr 1
  funext found
  rw [Function.comp_apply, Match.group?_crlf, Option.isNone_map]

/-- A line end is no digit. -/
theorem word?_of_lineEnd (base : Nat) {digits : List Char} (h : '\n' ∈ digits) :
    word? base digits = none := by
  have hread (value : Nat) : readWord? base value digits = none := by
    induction digits generalizing value with
    | nil => cases h
    | cons c digits ih =>
      rw [readWord?]
      rcases List.mem_cons.mp h with rfl | hlater
      · rfl
      · split
        · split
          · exact ih hlater _
          · rfl
        · rfl
  rw [word?, if_neg (List.ne_nil_of_mem h), hread]

/-- A code that is zero is on one line. -/
theorem isSuccessCode_of_lineEnd {code : List Char} (h : '\n' ∈ code) :
    isSuccessCode code = false := by
  have hvalue : exitCodeValue? code = none := by
    by_cases hcode : ∃ x digits, code = '0' :: x :: digits
    · obtain ⟨x, digits, rfl⟩ := hcode
      rw [exitCodeValue?]
      split
      · rename_i hx
        have hne : '\n' ≠ x := by
          rintro rfl
          exact absurd hx (by decide)
        exact word?_of_lineEnd 16 (by simpa [hne] using h)
      · exact word?_of_lineEnd 10 h
    · rw [exitCodeValue?.eq_2 _ fun x digits h => hcode ⟨x, digits, h⟩]
      exact word?_of_lineEnd 10 h
  rw [isSuccessCode, hvalue]
  rfl

@[simp] theorem isSuccessCode_crlf (code : List Char) :
    isSuccessCode (Text.crlf code) = isSuccessCode code := by
  by_cases h : '\n' ∈ code
  · rw [isSuccessCode_of_lineEnd h,
      isSuccessCode_of_lineEnd ((mem_crlf_iff (by decide)).mpr h)]
  · rw [crlf_eq_self h]

theorem namingIssue?_crlf_eq_none_iff (name : List Char) :
    namingIssue? (Text.crlf name) = none ↔ namingIssue? name = none := by
  have hdash : (Text.crlf name).contains '-' = name.contains '-' := by
    rw [Bool.eq_iff_iff, List.contains_iff_mem, List.contains_iff_mem,
      mem_crlf_iff (by decide)]
  rw [namingIssue?, namingIssue?, hdash, LineNeutral.occursIn_crlf (by decide)]
  split
  · simp
  · split <;> simp

/-! ## Checks for every target -/

section

variable (c : Context)

@[simp] theorem embeddedSecrets_crlf :
    embeddedSecrets c.crlf = embeddedSecrets c := by
  rw [embeddedSecrets, Context.crlf_content, labelsIn_crlf (by decide),
    embeddedSecrets]

@[simp] theorem sqlInjection_crlf : sqlInjection c.crlf = sqlInjection c := by
  have hqueries : ∀ query ∈ formattedQueries, query.LineNeutral .insensitive := by
    decide
  rw [sqlInjection, Context.crlf_content,
    any_congr_mem fun query h => (hqueries query h).occursIn_crlf c.content,
    sqlInjection]

/-! ## Checks of PowerShell scripts -/

@[simp] theorem consoleOutput_crlf : consoleOutput c.crlf = consoleOutput c := by
  rw [consoleOutput, Context.crlf_content, LineNeutral.count_crlf (by decide),
    Context.crlf_profile, Context.crlf_target, consoleOutput]

@[simp] theorem tryCatchMismatch_crlf :
    tryCatchMismatch c.crlf = tryCatchMismatch c := by
  rw [tryCatchMismatch, Context.crlf_content, LineNeutral.count_crlf (by decide),
    LineNeutral.count_crlf (by decide), tryCatchMismatch]

@[simp] theorem noErrorHandling_crlf :
    noErrorHandling c.crlf = noErrorHandling c := by
  rw [noErrorHandling, Context.crlf_content, LineNeutral.occursIn_crlf (by decide),
    setsErrorAction_crlf, Context.crlf_target, noErrorHandling]

@[simp] theorem noErrorAction_crlf : noErrorAction c.crlf = noErrorAction c := by
  rw [noErrorAction, Context.crlf_content, setsErrorAction_crlf, noErrorAction]

@[simp] theorem silentCatch_crlf : silentCatch c.crlf = silentCatch c := by
  have hcalls : ∀ call ∈ loggingCalls, OnLine (lowercase call.toList) := by
    decide +kernel
  have hlogs (body : List Char) :
      loggingCalls.any (mentions (Text.crlf body)) =
        loggingCalls.any (mentions body) :=
    any_congr_mem fun call h => mentions_crlf (hcalls call h) body
  rw [silentCatch, Context.crlf_content, catchBodies_crlf, silentCatch,
    List.zipIdx_map, List.filterMap_map]
  congr 1
  funext ⟨body, n⟩
  simp only [Function.comp_apply, Prod.map_apply, hlogs, id]

@[simp] theorem successOnlyExit_crlf :
    successOnlyExit c.crlf = successOnlyExit c := by
  rw [successOnlyExit, successOnlyExit, Context.crlf_content, exitCodes_crlf]
  cases exitCodes c.content with
  | nil => rfl
  | cons code codes =>
    simp only [List.map_cons, List.any_cons, List.any_map, List.length_cons,
      List.length_map, Function.comp_def, isSuccessCode_crlf]

@[simp] theorem paramValidation_crlf :
    paramValidation c.crlf = paramValidation c := by
  have hvalidated (block : List Char) :
      (mentions (Text.crlf block) "[Parameter" ||
          mentions (Text.crlf block) "[Validate") =
        (mentions block "[Parameter" || mentions block "[Validate") := by
    rw [mentions_crlf (by decide +kernel), mentions_crlf (by decide +kernel)]
  rw [paramValidation, paramValidation, Context.crlf_content,
    LineNeutral.bodiesAfter_crlf (by decide) (by decide),
    LineNeutral.occursIn_crlf (by decide)]
  cases paramOpener.bodiesAfter .insensitive .parens c.content with
  | nil => rfl
  | cons block blocks =>
    rw [List.map_cons]
    simp only [List.countP_cons, List.countP_map, Function.comp_def, hvalidated]

/-- The names that are shown may go over line ends. -/
theorem kinds_namingConvention_crlf :
    (namingConvention c.crlf).map (·.isViolation) =
      (namingConvention c).map (·.isViolation) := by
  have hkinds (context : Context) :
      (namingConvention context).map (·.isViolation) =
        if functionNames context.content = [] then []
        else if (functionNames context.content).filterMap namingIssue? = [] then
          [false]
        else [true] := by
    rw [namingConvention]
    split
    · rename_i hnone
      rw [if_pos hnone]
      rfl
    · rename_i hsome
      rw [if_neg hsome]
      split
      · rename_i hfine
        rw [if_pos hfine]
        rfl
      · rename_i hissues
        rw [if_neg hissues]
        rfl
  simp only [hkinds, Context.crlf_content, functionNames_crlf,
    List.filterMap_eq_nil_iff, List.forall_mem_map, List.map_eq_nil_iff,
    namingIssue?_crlf_eq_none_iff]

@[simp] theorem adminCheck_crlf : adminCheck c.crlf = adminCheck c := by
  rw [adminCheck, Context.crlf_content, labelsIn_crlf (by decide),
    mentions_crlf (by decide +kernel), adminCheck]

@[simp] theorem resultLoggingMissing_crlf :
    resultLoggingMissing c.crlf = resultLoggingMissing c := by
  simp only [resultLoggingMissing, Context.crlf_content, functionNames_crlf,
    resultCalls_crlf, ne_eq, List.map_eq_nil_iff]

@[simp] theorem resultLoggingSparse_crlf :
    resultLoggingSparse c.crlf = resultLoggingSparse c := by
  rw [resultLoggingSparse, Context.crlf_content, functionNames_crlf,
    List.length_map, resultCalls_crlf, resultLoggingSparse]

/-! ## Checks of PDQ scripts -/

@[simp] theorem exitCodeMissing_crlf :
    exitCodeMissing c.crlf = exitCodeMissing c := by
  simp only [exitCodeMissing, Context.crlf_content, exitCodes_crlf, ne_eq,
    List.map_eq_nil_iff]

@[simp] theorem catchWithoutExit_crlf :
    catchWithoutExit c.crlf = catchWithoutExit c := by
  have hleaving (bodies : List (List Char)) :
      (bodies.map Text.crlf).any (leaving.occursIn .insensitive) =
        bodies.any (leaving.occursIn .insensitive) := by
    rw [List.any_map]
    exact any_congr_mem fun body _ => LineNeutral.occursIn_crlf (by decide) body
  rw [catchWithoutExit, catchWithoutExit, Context.crlf_content, catchBodies_crlf]
  cases catchBodies c.content with
  | nil => rfl
  | cons body bodies => simp only [List.map_cons, ← hleaving (body :: bodies)]

@[simp] theorem interactivePrompts_crlf :
    interactivePrompts c.crlf = interactivePrompts c := by
  rw [interactivePrompts, Context.crlf_content,
    LineNeutral.occursIn_crlf (by decide), hasBareCredentialPrompt_crlf,
    labelsIn_crlf (by decide), interactivePrompts]

@[simp] theorem guiElements_crlf : guiElements c.crlf = guiElements c := by
  rw [guiElements, Context.crlf_content, labelsIn_crlf (by decide), guiElements]

@[simp] theorem sessionCleanup_crlf :
    sessionCleanup c.crlf = sessionCleanup c := by
  have hfamilies : ∀ family ∈ sessionFamilies,
      family.opening.LineNeutral .insensitive ∧
        family.closing.LineNeutral .insensitive := by decide
  rw [sessionCleanup, sessionCleanup, Context.crlf_content,
    List.filter_congr fun family h =>
      (hfamilies family h).1.occursIn_crlf c.content]
  refine List.map_congr_left fun family h => ?_
  rw [(hfamilies family (List.mem_of_mem_filter h)).2.occursIn_crlf]

@[simp] theorem structuredOutput_crlf :
    structuredOutput c.crlf = structuredOutput c := by
  rw [structuredOutput, Context.crlf_content,
    LineNeutral.occursIn_crlf (by decide), LineNeutral.occursIn_crlf (by decide),
    structuredOutput]

@[simp] theorem silentInstall_crlf : silentInstall c.crlf = silentInstall c := by
  have hswitch : silentSwitch.occursIn .insensitive (Text.crlf c.content) =
      silentSwitch.occursIn .insensitive c.content := by
    rw [silentSwitch, occursIn_append_assoc, occursIn_append_assoc,
      occursIn_append_assoc, occursIn_append_assoc,
      LineNeutral.occursIn_behind_crlf (by decide)]
  rw [silentInstall, Context.crlf_content, hswitch, silentInstall]

@[simp] theorem installVerification_crlf :
    installVerification c.crlf = installVerification c := by
  rw [installVerification, Context.crlf_content,
    LineNeutral.occursIn_crlf (by decide), installVerification]

/-! ## Checks of Flask applications -/

theorem missingOf_crlf {name : String} {members : List String}
    (hname : OnLine (s!"from {name} import").toList ∧
      OnLine (s!"import {name}").toList)
    (hmembers : ∀ m ∈ members, OnLine m.toList) (content : List Char) :
    missingOf (Text.crlf content) (name, members) =
      missingOf content (name, members) := by
  rw [missingOf, missingOf, has_crlf hname.1, has_crlf hname.2,
    List.filter_congr fun m h => by rw [has_crlf (hmembers m h)]]

@[simp] theorem requiredImports_crlf :
    requiredImports c.crlf = requiredImports c := by
  have hmodules : ∀ entry ∈ requiredModules,
      (OnLine (s!"from {entry.1} import").toList ∧
        OnLine (s!"import {entry.1}").toList) ∧
      ∀ m ∈ entry.2, OnLine m.toList := by
    decide +kernel
  have hmissing : requiredModules.flatMap (missingOf c.crlf.content) =
      requiredModules.flatMap (missingOf c.content) :=
    List.flatMap_congr fun entry h =>
      missingOf_crlf (hmodules entry h).1 (hmodules entry h).2 c.content
  rw [requiredImports, hmissing, requiredImports]

@[simp] theorem appInit_crlf : appInit c.crlf = appInit c := by
  rw [appInit, Context.crlf_content, has_crlf (by decide), appInit]

@[simp] theorem debugMode_crlf : debugMode c.crlf = debugMode c := by
  rw [debugMode, Context.crlf_content, LineNeutral.occursIn_crlf (by decide),
    debugMode]

@[simp] theorem hostBinding_crlf : hostBinding c.crlf = hostBinding c := by
  rw [hostBinding, Context.crlf_content, has_crlf (by decide),
    LineNeutral.occursIn_crlf (by decide), hostBinding]

/-- The path of a route is the one between the quotes, whatever its methods
are. -/
theorem map_path_routeOf? (content : List Char) (found : Match) :
    (routeOf? content found).map Route.path =
      (found.group? content 1).bind fun _ => found.group? content 2 := by
  rw [routeOf?]
  cases found.group? content 1 with
  | none => rfl
  | some verb =>
    cases found.group? content 2 with
    | none => rfl
    | some path =>
      simp only [Option.bind_eq_bind, Option.bind_some]
      split
      · split <;> rfl
      · rfl

/-- The same paths are served, if their line ends are read alike. -/
theorem map_path_routes_crlf (content : List Char) :
    (routes (Text.crlf content)).map Route.path =
      (routes content).map (Text.crlf ·.path) := by
  have hpath (found : Match) :
      (routeOf? (Text.crlf content) (found.crlf content)).map Route.path =
        (routeOf? content found).map (Text.crlf ·.path) := by
    rw [← Function.comp_def Text.crlf Route.path, ← Option.map_map,
      map_path_routeOf?, map_path_routeOf?, Match.group?_crlf, Match.group?_crlf]
    cases found.group? content 1 <;> rfl
  rw [routes, routes, LineNeutral.findAll_crlf (by decide), List.filterMap_map,
    List.map_filterMap, List.map_filterMap]
  simp only [Function.comp_def, hpath]

/-- The paths that are shown may go over line ends. -/
theorem kinds_routesDefined_crlf :
    (routesDefined c.crlf).map (·.isViolation) =
      (routesDefined c).map (·.isViolation) := by
  have hkinds (context : Context) :
      (routesDefined context).map (·.isViolation) =
        if (routes context.content).map Route.path = [] then [true]
        else ((routes context.content).map Route.path).map fun _ => false := by
    rw [routesDefined]
    cases routes context.content with
    | nil => rfl
    | cons route routes =>
      have hsome : (route :: routes).map Route.path ≠ [] :=
        List.cons_ne_nil _ _
      rw [if_neg hsome]
      simp only [List.map_cons, List.map_map]
      rfl
  rw [hkinds, hkinds, Context.crlf_content, map_path_routes_crlf]
  simp only [List.map_eq_nil_iff, List.map_map, Function.comp_def]

/-- An expected endpoint on one line is served by both applications or by
none. -/
theorem expectedEndpoints_crlf (hendpoints : ∀ e ∈ c.endpoints, '\n' ∉ e.toList) :
    expectedEndpoints c.crlf = expectedEndpoints c := by
  have hpaths := map_path_routes_crlf c.content
  have hserved : ∀ e ∈ c.endpoints,
      (routes (Text.crlf c.content)).any (·.path == e.toList) =
        (routes c.content).any (·.path == e.toList) := by
    intro e he
    have hany := congrArg (·.any (· == e.toList)) hpaths
    simp only [List.any_map, Function.comp_def] at hany
    rw [hany]
    refine any_congr_mem fun route _ => ?_
    rw [Bool.eq_iff_iff, beq_iff_eq, beq_iff_eq, crlf_eq_iff (hendpoints e he)]
  have hmissing := List.filter_congr fun e he => congrArg not (hserved e he)
  rw [expectedEndpoints, expectedEndpoints, Context.crlf_endpoints,
    Context.crlf_content]
  cases hother : routes (Text.crlf c.content) with
  | nil =>
    rw [hother, List.map_nil, eq_comm, List.map_eq_nil_iff] at hpaths
    rw [hpaths]
  | cons other others =>
    cases hroutes : routes c.content with
    | nil =>
      rw [hother, hroutes] at hpaths
      cases hpaths
    | cons route routes =>
      rw [hother, hroutes] at hmissing
      simp only [hmissing]

/-- Handlers are read line by line. -/
theorem routeHandlers_crlf {content : List Char} (hcontent : '\r' ∉ content) :
    routeHandlers (Text.crlf content) = routeHandlers content := by
  rw [routeHandlers, lines_crlf hcontent, routeHandlers]

theorem routeErrorHandling_crlf (hcontent : '\r' ∉ c.content) :
    routeErrorHandling c.crlf = routeErrorHandling c := by
  rw [routeErrorHandling, Context.crlf_content, routeHandlers_crlf hcontent,
    routeErrorHandling]

@[simp] theorem commandInjection_crlf :
    commandInjection c.crlf = commandInjection c := by
  have hdata : ∀ source ∈ requestData, OnLine source.toList := by decide
  rw [commandInjection, Context.crlf_content, has_crlf (by decide),
    any_congr_mem fun source h => has_crlf (hdata source h) c.content,
    LineNeutral.occursIn_crlf (by decide), LineNeutral.occursIn_crlf (by decide),
    commandInjection]

@[simp] theorem cors_crlf : cors c.crlf = cors c := by
  rw [cors, Context.crlf_content, has_crlf (by decide), cors]

end

end Checks

end Preflight
