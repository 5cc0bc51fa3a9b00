import Preflight.Rule.Basic
import Preflight.Pattern.Search

/-!
# Checks for every target

Secrets that are written into the script, and SQL text that is put together before it reaches the
database.
-/

namespace Preflight.Checks

open Pattern

/-- Quoted text on one line, not empty. -/
def quotedText : Pattern :=
  one (.anyOf "\"'") ++ Pattern.some (.noneOf "\"'\n") ++ one (.anyOf "\"'")

/-- A password, secret or key that is assigned a quoted text. -/
def assignedSecret : Pattern :=
  group 1 (firstOf [text "password", text "secret", text "api_key"]) ++
    spaces ++ text "=" ++ spaces ++ quotedText

/-- A quoted text that is turned into a secure string. -/
def secureStringLiteral : Pattern :=
  text "ConvertTo-SecureString" ++ someSpace ++
    optional (group 1 (text "-String" ++ someSpace)) ++ quotedText

/-- A credential object with a quoted text on its line. -/
def credentialLiteral : Pattern :=
  text "New-Object" ++ run .inLine ++ text "PSCredential" ++ run .inLine ++ quotedText

/-- The shapes of secrets and what is said about them. -/
def secretShapes : List (Pattern × String) :=
  [(assignedSecret, "Possible hardcoded password or secret"),
    (secureStringLiteral, "Possible hardcoded secure string"),
    (credentialLiteral, "Possible hardcoded credential")]

/-- The labels of the patterns that occur in a text, letter case apart. -/
def labelsIn (content : List Char) (table : List (Pattern × String)) : List String :=
  (table.filter fun entry => entry.1.occursIn .insensitive content).map (·.2)

/-- Secrets written into the script, all in one violation. -/
def embeddedSecrets (c : Context) : List Finding :=
  match labelsIn c.content secretShapes with
  | [] => []
  | found =>
    [.violation ("Possible hardcoded credentials found: " ++ String.intercalate "; " found)]

/-- An execute call on a formatted string literal. -/
def executeFormatLiteral : Pattern :=
  text "execute" ++ optional (group 1 (text "many")) ++ spaces ++ text "(" ++ spaces ++
    text "f" ++ one (.anyOf "\"'")

/-- An execute call on a string that an operator or a call formats. -/
def executeFormatted : Pattern :=
  text "execute" ++ optional (group 1 (text "many")) ++ spaces ++ text "(" ++ spaces ++
    one (.anyOf "\"'") ++ run (.noneOf "\"'\n") ++ one (.anyOf "\"'") ++ spaces ++
    group 2 (firstOf [text "%", text "+", text ".format("])

/-- A query argument with a variable in its text. -/
def interpolatedQuery : Pattern :=
  text "-Query" ++ someSpace ++ text "\"" ++ run (.noneOf "\"\n") ++ text "$" ++
    one ⟨[.range 'A' 'Z', .range 'a' 'z', .char '_', .char '(', .char '{'], false⟩

/-- The shapes of formatted queries.  A query with placeholders and separate arguments is none. -/
def formattedQueries : List Pattern := [executeFormatLiteral, executeFormatted, interpolatedQuery]

/-- SQL text that is formatted before it is executed. -/
def sqlInjection (c : Context) : List Finding :=
  if formattedQueries.any (·.occursIn .insensitive c.content) then
    [.violation ("Possible SQL injection vulnerability detected: query text is formatted " ++
      "before being passed to an execute call")]
  else []

end Preflight.Checks
