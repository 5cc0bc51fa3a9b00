import Preflight.Main
import Preflight.Live.Client
import Preflight.Proofs.Run.ErrorCount
import Preflight.Proofs.Run.Schedule
import Preflight.Proofs.Run.Summary
import Preflight.Proofs.Contributions
import Preflight.Proofs.Encoding.Script
import Preflight.Proofs.Live.Trace
import Preflight.Proofs.LetterCase.Catalog
import Preflight.Proofs.LineEnds.Catalog
import Preflight.Proofs.Pattern.Finds
import Preflight.Proofs.Run.AddedLines
import Preflight.Proofs.Run.Independence
import Preflight.Proofs.Run.Profile
import Preflight.Proofs.Report.RoundTrip
import Preflight.Proofs.Enclosing
import Preflight.Proofs.Config.Partial
import Preflight.Proofs.CommandLine.ExitCode
import Preflight.Proofs.SingleQuoted
import Preflight.Proofs.Preference
import Preflight.Proofs.Nesting
import Preflight.Proofs.BlockOpeners
import Preflight.Proofs.TryStatements
import Preflight.Proofs.ExitStatements
import Preflight.Proofs.QuotedPaths
import Preflight.Proofs.Routes.Declared
import Preflight.Proofs.Routes.Applications
import Preflight.Proofs.ParseErrors
import Preflight.Proofs.Run.ConsoleOutput
import Preflight.Proofs.SharedUsers
import Preflight.Proofs.FunctionNames
import Preflight.Proofs.BodySpans
import Preflight.Proofs.Config.Faults
import Preflight.Proofs.Report.Layout
