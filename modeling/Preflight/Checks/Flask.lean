import Preflight.Checks.Secrets
import Preflight.Text.Lines

/-!
# Checks of Flask applications

Python tells letter cases apart, so names are looked up as they are written.  Routes are read from
their decorators, and the bodies of their handlers by indentation.
-/

namespace Preflight.Checks

open Pattern

/-- The text stands in the application as it is. -/
def has (content : List Char) (s : String) : Bool := Text.contains s.toList content

/-- Modules that are expected, with the names that are expected of each. -/
def requiredModules : List (String × List String) :=
  [("flask", ["Flask", "jsonify", "request"]), ("subprocess", [])]

/-- What is missing of a module: the module itself, or names of it. -/
def missingOf (content : List Char) : String × List String → List String
  | (name, members) =>
    if has content s!"from {name} import" || has content s!"import {name}" then
      (members.filter (!has content ·)).map fun m => s!"{name}.{m}"
    else [name]

/-- The expected modules have to be imported. -/
def requiredImports (c : Context) : List Finding :=
  match requiredModules.flatMap (missingOf c.content) with
  | [] => []
  | missing => [.violation ("Missing recommended imports: " ++ String.intercalate ", " missing)]

/-- The application object has to be made from the module's name. -/
def appInit (c : Context) : List Finding :=
  if has c.content "Flask(__name__)" then []
  else [.violation "Flask app not initialized with Flask(__name__)"]

/-- Debug mode, as an argument or in the configuration. -/
def debugSetting : Pattern :=
  let quote := one (.anyOf "'\"")
  alt (text "debug" ++ spaces ++ text "=" ++ spaces ++ text "True")
    (text "[" ++ spaces ++ quote ++ text "DEBUG" ++ quote ++ spaces ++ text "]" ++ spaces ++
      text "=" ++ spaces ++ text "True")

/-- Debug mode has to be off. -/
def debugMode (c : Context) : List Finding :=
  if debugSetting.occursIn .sensitive c.content then
    [.violation "Debug mode enabled - ensure this is disabled in production"]
  else []

/-- A host that other machines cannot reach. -/
def localHost : Pattern :=
  text "host" ++ spaces ++ text "=" ++ spaces ++ one (.anyOf "'\"") ++
    group 1 (alt (text "127.0.0.1") (text "localhost")) ++ one (.anyOf "'\"")

/-- The application has to be reachable from other machines. -/
def hostBinding (c : Context) : List Finding :=
  if has c.content "0.0.0.0" then
    [.note "App configured to listen on all interfaces (0.0.0.0)"]
  else if localHost.occursIn .insensitive c.content then
    [.violation "App only listening on localhost - may not be accessible remotely"]
  else []

/-! ## Routes -/

/-- A path that the application serves, with its methods separated by commas. -/
structure Route where
  path : List Char
  methods : List Char
  deriving DecidableEq, Repr, Inhabited

/-- The names of decorators that declare a route. -/
def routeVerbs : Pattern :=
  firstOf [text "route", text "get", text "post", text "put", text "delete", text "patch"]

/-- A route decorator: the groups are its name, the path, and the list of methods. -/
def routeDecorator : Pattern :=
  text "@" ++ Pattern.some .word ++ text "." ++ group 1 routeVerbs ++ text "(" ++ spaces ++
    one (.anyOf "'\"") ++ group 2 (Pattern.some (.noneOf "'\"")) ++ one (.anyOf "'\"") ++
    optional (spaces ++ text "," ++ spaces ++ text "methods" ++ spaces ++ text "=" ++ spaces ++
      text "[" ++ group 3 (Pattern.some (.noneOf "]")) ++ text "]")

/-- The text without quotes at either end. -/
def unquoted (s : List Char) : List Char :=
  let isQuote := fun (c : Char) => c == '\'' || c == '"'
  ((s.dropWhile isQuote).reverse.dropWhile isQuote).reverse

/-- The methods of a list in brackets, separated by commas alone. -/
def listedMethods (s : List Char) : List Char :=
  let parts := (List.splitOn ',' s).map fun part => unquoted (Text.trim part)
  List.intercalate [','] (parts.filter (!·.isEmpty))

/-- The route that a decorator declares.  A shorthand decorator names its own method. -/
def routeOf? (content : List Char) (found : Match) : Option Route := do
  let verb ← found.group? content 1
  let path ← found.group? content 2
  if verb = "route".toList then
    match found.group? content 3 with
    | Option.some methods => return ⟨path, listedMethods methods⟩
    | none => return ⟨path, "GET".toList⟩
  else return ⟨path, verb.map Char.toUpper⟩

/-- The routes of an application, in text order. -/
def routes (content : List Char) : List Route :=
  (routeDecorator.findAll .sensitive content).filterMap (routeOf? content)

/-- Routes have to be declared; they are listed. -/
def routesDefined (c : Context) : List Finding :=
  match routes c.content with
  | [] => [.violation "No routes defined in Flask app"]
  | found => found.map fun r => .note s!"Route: {String.ofList r.methods} {String.ofList r.path}"

/-- The expected endpoints have to be among the routes, if there are any. -/
def expectedEndpoints (c : Context) : List Finding :=
  match routes c.content with
  | [] => []
  | found =>
    match c.endpoints.filter fun e => !found.any (·.path == e.toList) with
    | [] => []
    | missing => [.violation ("Missing expected endpoints: " ++ String.intercalate ", " missing)]

/-! ## Handlers -/

/-- A function behind a route. -/
structure Handler where
  name : List Char
  body : List Char
  deriving DecidableEq, Repr, Inhabited

/-- A line that starts a route decorator. -/
def decoratorLine : Pattern :=
  textStart ++ spaces ++ text "@" ++ Pattern.some .word ++ text "." ++ group 1 routeVerbs ++
    text "("

/-- A line that starts a function; the group is its name. -/
def definitionLine : Pattern :=
  textStart ++ spaces ++ optional (text "async" ++ someSpace) ++ text "def" ++ someSpace ++
    group 1 (Pattern.some .word) ++ spaces ++ text "("

/-- The name of the function that a line starts. -/
def definedName? (line : List Char) : Option (List Char) :=
  (definitionLine.captures .sensitive line).head?

/-- The width of the white space in front of a line, in bytes of UTF-8. -/
def indent (line : List Char) : Nat :=
  (line.takeWhile Text.isSpace).foldl (fun n c => n + c.utf8Size) 0

/-- The line starts a decorator of any kind. -/
def startsDecorator (line : List Char) : Bool := (Text.trimStart line).head? == Option.some '@'

/-- The line belongs to a body below a definition that is indented by `depth`. -/
def isInside (depth : Nat) (line : List Char) : Bool := Text.isBlank line || depth < indent line

/-- The handlers from a line on.  A route decorator may have further decorators below it; then the
definition has to follow, or there is no handler.  Reading goes on behind the body. -/
def handlersFrom : List (List Char) → List Handler
  | [] => []
  | line :: lines =>
    if !decoratorLine.occursIn .sensitive line then handlersFrom lines
    else
      match _h : lines.dropWhile startsDecorator with
      | [] => []
      | definition :: below =>
        match definedName? definition with
        | none => handlersFrom (definition :: below)
        | Option.some name =>
          let depth := indent definition
          ⟨name, List.intercalate ['\n'] (below.takeWhile (isInside depth))⟩ ::
            handlersFrom (below.dropWhile (isInside depth))
  termination_by lines => lines.length
  decreasing_by
    · simp
    · have := (List.dropWhile_sublist (l := lines) startsDecorator).length_le
      rw [_h] at this
      simp only [List.length_cons] at this ⊢
      omega
    · have := (List.dropWhile_sublist (l := lines) startsDecorator).length_le
      have := (List.dropWhile_sublist (l := below) (isInside (indent definition))).length_le
      simp_all only [List.length_cons]
      omega

/-- The handlers of an application. -/
def routeHandlers (content : List Char) : List Handler := handlersFrom (Text.lines content)

/-- What is wrong with a handler's error handling. -/
def handlerIssue? (h : Handler) : Option String :=
  if !has h.body "try:" then Option.some s!"{String.ofList h.name} (no try-except)"
  else if !(has h.body "jsonify" && has h.body "error") then
    Option.some s!"{String.ofList h.name} (no JSON error response)"
  else none

/-- Handlers are expected to catch errors and to answer them in JSON.  At most three exceptions
are listed. -/
def routeErrorHandling (c : Context) : List Finding :=
  match (routeHandlers c.content).filterMap handlerIssue? with
  | [] => []
  | issues =>
    [.violation ("Error handling issues in routes: " ++ String.intercalate ", " (issues.take 3))]

/-! ## Commands and frontends -/

/-- Where request data comes from. -/
def requestData : List String :=
  ["request.get_json(", "request.json", "request.form", "request.args"]

/-- A subprocess call with braces on its line. -/
def formattedCommand : Pattern :=
  text "subprocess." ++ run .inLine ++ char '{' ++ run .inLine ++ char '}'

/-- A subprocess call through the shell. -/
def shellCommand : Pattern :=
  text "subprocess." ++ Pattern.some .word ++ text "(" ++ run .inLine ++ text "shell" ++ spaces ++
    text "=" ++ spaces ++ text "True"

/-- Commands in an application that reads request data must not be formatted or run by a shell. -/
def commandInjection (c : Context) : List Finding :=
  if has c.content "subprocess" && requestData.any (has c.content) then
    (if formattedCommand.occursIn .insensitive c.content then
      [Finding.violation ("Possible command injection risk - ensure user input is sanitized " ++
        "before passing to subprocess")]
    else []) ++
    (if shellCommand.occursIn .insensitive c.content then
      [Finding.violation "subprocess called with shell=True in an app that reads request data"]
    else [])
  else []

/-- Cross-origin requests have to be configured. -/
def cors (c : Context) : List Finding :=
  if has c.content "CORS" then [.note "CORS is configured"]
  else [.violation "CORS not configured - may cause issues with web frontends"]

end Preflight.Checks
