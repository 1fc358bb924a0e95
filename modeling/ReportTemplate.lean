import ReportTemplate.FileTree
import ReportTemplate.Main
import ReportTemplate.Proofs.Token.Lossless
import ReportTemplate.Proofs.LogCall.Expansions
import ReportTemplate.Proofs.LogCall.Tokens
import ReportTemplate.Proofs.Machine.Counts
import ReportTemplate.Proofs.Machine.Safety
import ReportTemplate.Proofs.LogCall.Statements
import ReportTemplate.Proofs.Report.Log
import ReportTemplate.Proofs.Program.Failures
import ReportTemplate.Proofs.Grammar.Furthest
import ReportTemplate.Proofs.Program.Ranges
import ReportTemplate.Proofs.LogCall.Quoted
import ReportTemplate.Proofs.Machine.Handles
import ReportTemplate.Proofs.Machine.Appends
import ReportTemplate.Proofs.Machine.Ends
import ReportTemplate.Proofs.Report.Faults
import ReportTemplate.Proofs.Program.Untyped
import ReportTemplate.Proofs.Machine.Sizes
import ReportTemplate.Proofs.Project.Render
import ReportTemplate.Proofs.Library.References
import ReportTemplate.Proofs.Program.ScopeReports
import ReportTemplate.Proofs.Excerpt.Header
import ReportTemplate.Proofs.Token.Comments
import ReportTemplate.Proofs.Grammar.Nesting
import ReportTemplate.Proofs.Library.Order
import ReportTemplate.Proofs.Machine.Depth
import ReportTemplate.Proofs.Program.Policies
import ReportTemplate.Proofs.LogCall.InFull
import ReportTemplate.Proofs.Program.Lines
import ReportTemplate.Proofs.Program.MethodOrder
import ReportTemplate.Proofs.Library.Separators
import ReportTemplate.Proofs.Library.Sorting
import ReportTemplate.Proofs.Machine.Iteration
import ReportTemplate.Proofs.Program.DeadCode
import ReportTemplate.Proofs.Library.Integers
import ReportTemplate.Proofs.Watch.Registration
import ReportTemplate.Proofs.Program.RangeLoops
import ReportTemplate.Proofs.Program.Numerals
import ReportTemplate.Proofs.Token.Quoted
import ReportTemplate.Proofs.Watch.Ignored
import ReportTemplate.Proofs.Project.Located
import ReportTemplate.Proofs.Program.Qualified
import ReportTemplate.Proofs.Machine.Typed
