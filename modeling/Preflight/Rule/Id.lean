/-!
# Rule identifiers

Every rule of the catalog has an identifier, and so have the three checks outside of it: the
external parser, the live probe and the reading of the script.
-/

namespace Preflight

inductive RuleId where
  | embeddedSecret
  | sqlInjection
  | consoleOutput
  | tryCatchMismatch
  | noErrorHandling
  | successOnlyExit
  | paramValidation
  | namingConvention
  | noErrorAction
  | silentCatch
  | adminCheck
  | resultLoggingMissing
  | resultLoggingSparse
  | flaskImports
  | flaskAppInit
  | flaskDebug
  | flaskHostBinding
  | flaskNoRoutes
  | flaskExpectedEndpoints
  | flaskRouteErrors
  | flaskCommandInjection
  | flaskCors
  | exitCodeMissing
  | catchWithoutExit
  | interactivePrompt
  | guiElement
  | hardcodedPath
  | sessionCleanup
  | structuredOutput
  | silentInstall
  | installVerification
  /-- The external PowerShell parser. -/
  | parserCheck
  /-- Probing the running application. -/
  | liveProbe
  /-- The script's bytes are no text. -/
  | unreadable
  deriving DecidableEq, Repr, Inhabited

namespace RuleId

/-- The identifier as it is shown and as it stands in data. -/
def key : RuleId → String
  | embeddedSecret => "SEC-CRED-01"
  | sqlInjection => "SEC-SQL-01"
  | consoleOutput => "PS-OUT-01"
  | tryCatchMismatch => "PS-ERR-01"
  | noErrorHandling => "PS-ERR-02"
  | successOnlyExit => "PS-EXIT-02"
  | paramValidation => "PS-PARAM-01"
  | namingConvention => "PS-NAME-01"
  | noErrorAction => "PS-ERR-03"
  | silentCatch => "PS-ERR-04"
  | adminCheck => "PS-ADMIN-01"
  | resultLoggingMissing => "PS-LOG-01"
  | resultLoggingSparse => "PS-LOG-02"
  | flaskImports => "FLASK-IMPORT-01"
  | flaskAppInit => "FLASK-APP-01"
  | flaskDebug => "FLASK-APP-02"
  | flaskHostBinding => "FLASK-APP-03"
  | flaskNoRoutes => "FLASK-ROUTE-01"
  | flaskExpectedEndpoints => "FLASK-ROUTE-02"
  | flaskRouteErrors => "FLASK-ERR-01"
  | flaskCommandInjection => "FLASK-CMD-01"
  | flaskCors => "FLASK-CORS-01"
  | exitCodeMissing => "PS-EXIT-01"
  | catchWithoutExit => "PS-ERR-05"
  | interactivePrompt => "PS-INT-01"
  | guiElement => "PS-GUI-01"
  | hardcodedPath => "PS-PATH-01"
  | sessionCleanup => "PS-SESS-01"
  | structuredOutput => "PS-OBJ-01"
  | silentInstall => "PDQ-DEPLOY-01"
  | installVerification => "PDQ-DEPLOY-02"
  | parserCheck => "PS-SYN-01"
  | liveProbe => "LIVE-01"
  | unreadable => "SRC-READ-01"

/-- All identifiers. -/
def all : List RuleId :=
  [embeddedSecret, sqlInjection, consoleOutput, tryCatchMismatch, noErrorHandling,
    successOnlyExit, paramValidation, namingConvention, noErrorAction, silentCatch, adminCheck,
    resultLoggingMissing, resultLoggingSparse, flaskImports, flaskAppInit, flaskDebug,
    flaskHostBinding, flaskNoRoutes, flaskExpectedEndpoints, flaskRouteErrors,
    flaskCommandInjection, flaskCors, exitCodeMissing, catchWithoutExit, interactivePrompt,
    guiElement, hardcodedPath, sessionCleanup, structuredOutput, silentInstall,
    installVerification, parserCheck, liveProbe, unreadable]

/-- The identifier of a given key. -/
def ofKey? (s : String) : Option RuleId := all.find? (·.key == s)

end RuleId

end Preflight
