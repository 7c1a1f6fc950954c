import ClientBoundary.Component
import ClientBoundary.Config.Reader
import ClientBoundary.Linter
import ClientBoundary.Main
import ClientBoundary.Report.Format
import ClientBoundary.Scope.Analysis
import ClientBoundary.UseClient.Rule
import ClientBoundary.Proofs.DirectiveFix
import ClientBoundary.Proofs.FixPass
import ClientBoundary.Proofs.SeverityLabel
import ClientBoundary.Proofs.FixLoop
import ClientBoundary.Proofs.ReportCounts
import ClientBoundary.Proofs.Schedules
import ClientBoundary.Proofs.EditsTogether
import ClientBoundary.Proofs.ReturnedOutput
import ClientBoundary.Proofs.Parentheses
import ClientBoundary.Proofs.HolderIdentity
import ClientBoundary.Proofs.Positions
import ClientBoundary.Proofs.Splicing
import ClientBoundary.Proofs.FreeNames
import ClientBoundary.Proofs.ReportedFix
import ClientBoundary.Proofs.JsonText
import ClientBoundary.Proofs.ReportReading
import ClientBoundary.Proofs.LineBreaks
import ClientBoundary.Proofs.ConfigDocument
import ClientBoundary.Proofs.CollectedFiles
import ClientBoundary.Proofs.NestedScopes
import ClientBoundary.Proofs.GreedyAcceptance
import ClientBoundary.Proofs.TypePositions
import ClientBoundary.Proofs.LexicalLookup
