import Preflight.Checks.Pdq
import Preflight.Checks.Flask

/-!
# The rule catalog

Every check is a row of the catalog, with its severity in every column.  Rows are run in order;
rules with a generic column stand first.
-/

namespace Preflight

/-- The version of the catalog in reports. -/
def catalogVersion : String := "0.1.0"

namespace Rule

/-- A check that always runs. -/
def total (check : Context → List Finding) : Check := fun context => .ok (check context)

/-- The rules that every run chooses from. -/
def catalog : List Rule :=
  [⟨.embeddedSecret, "Embedded secret literal", Target.all, .uniform .error,
      total Checks.embeddedSecrets⟩,
    ⟨.sqlInjection, "SQL built by string formatting", Target.all, .uniform .error,
      total Checks.sqlInjection⟩,
    ⟨.consoleOutput, "Console-only output", [.powerShell, .pdq],
      ⟨some .warning, some .warning, some .error, some .warning⟩, total Checks.consoleOutput⟩,
    ⟨.tryCatchMismatch, "Mismatched try/catch blocks", [.powerShell, .pdq], .uniform .error,
      total Checks.tryCatchMismatch⟩,
    ⟨.noErrorHandling, "No error handling", [.powerShell, .pdq], .uniform .warning,
      total Checks.noErrorHandling⟩,
    ⟨.successOnlyExit, "Only success exit codes", [.pdq], .uniform .warning,
      total Checks.successOnlyExit⟩,
    ⟨.paramValidation, "Parameter block without binding or validation", [.powerShell, .pdq],
      .uniform .warning, total Checks.paramValidation⟩,
    ⟨.namingConvention, "Function naming convention", [.powerShell, .pdq], .uniform .warning,
      total Checks.namingConvention⟩,
    ⟨.noErrorAction, "No ErrorAction setting", [.powerShell], .genericOnly .warning,
      total Checks.noErrorAction⟩,
    ⟨.silentCatch, "Catch block does not log", [.powerShell], .genericOnly .warning,
      total Checks.silentCatch⟩,
    ⟨.adminCheck, "Admin operations without privilege check", [.powerShell],
      .genericOnly .warning, total Checks.adminCheck⟩,
    ⟨.resultLoggingMissing, "No result logging", [.powerShell], .genericOnly .error,
      total Checks.resultLoggingMissing⟩,
    ⟨.resultLoggingSparse, "Sparse result logging", [.powerShell], .genericOnly .warning,
      total Checks.resultLoggingSparse⟩,
    ⟨.flaskImports, "Required imports", [.flask], .genericOnly .warning,
      total Checks.requiredImports⟩,
    ⟨.flaskAppInit, "Flask app initialization", [.flask], .genericOnly .error,
      total Checks.appInit⟩,
    ⟨.flaskDebug, "Debug mode enabled", [.flask], .genericOnly .warning, total Checks.debugMode⟩,
    ⟨.flaskHostBinding, "Host binding", [.flask], .genericOnly .warning,
      total Checks.hostBinding⟩,
    ⟨.flaskNoRoutes, "Route definitions", [.flask], .genericOnly .error,
      total Checks.routesDefined⟩,
    ⟨.flaskExpectedEndpoints, "Expected endpoints", [.flask], .genericOnly .warning,
      total Checks.expectedEndpoints⟩,
    ⟨.flaskRouteErrors, "Route error handling", [.flask], .genericOnly .warning,
      total Checks.routeErrorHandling⟩,
    ⟨.flaskCommandInjection, "Command injection", [.flask], .genericOnly .warning,
      total Checks.commandInjection⟩,
    ⟨.flaskCors, "CORS configuration", [.flask], .genericOnly .warning, total Checks.cors⟩,
    ⟨.exitCodeMissing, "No explicit exit code", [.pdq], ⟨none, some .warning, none, none⟩,
      total Checks.exitCodeMissing⟩,
    ⟨.catchWithoutExit, "Catch blocks without exit code", [.pdq],
      ⟨none, some .warning, none, none⟩, total Checks.catchWithoutExit⟩,
    ⟨.interactivePrompt, "Interactive prompt", [.pdq],
      ⟨none, some .error, some .error, some .error⟩, total Checks.interactivePrompts⟩,
    ⟨.guiElement, "GUI element", [.pdq], ⟨none, some .error, some .error, some .error⟩,
      total Checks.guiElements⟩,
    ⟨.hardcodedPath, "Hardcoded path", [.pdq],
      ⟨none, some .warning, some .warning, some .warning⟩, total Checks.hardcodedPaths⟩,
    ⟨.sessionCleanup, "Remote session cleanup", [.pdq], ⟨none, none, none, some .warning⟩,
      total Checks.sessionCleanup⟩,
    ⟨.structuredOutput, "Structured object output", [.pdq], ⟨none, none, some .warning, none⟩,
      total Checks.structuredOutput⟩,
    ⟨.silentInstall, "Silent installation switches", [.pdq], ⟨none, some .warning, none, none⟩,
      total Checks.silentInstall⟩,
    ⟨.installVerification, "Installation verification", [.pdq],
      ⟨none, some .warning, none, none⟩, total Checks.installVerification⟩]

/-- The row of a rule, if it is in the catalog. -/
def find? (id : RuleId) : Option Rule := catalog.find? (·.id == id)

end Rule

end Preflight
