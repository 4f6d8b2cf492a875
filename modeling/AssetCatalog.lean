import AssetCatalog.Proofs.CommandLine.Check
import AssetCatalog.Proofs.CommandLine.Progress
import AssetCatalog.Proofs.CommandLine.Summary
import AssetCatalog.Proofs.Compile.Brackets
import AssetCatalog.Proofs.Compile.Command
import AssetCatalog.Proofs.Compile.Isolation
import AssetCatalog.Proofs.Compile.Trace
import AssetCatalog.Proofs.Compile.Reporting
import AssetCatalog.Proofs.Compile.Order
import AssetCatalog.CommandLine.Arguments
import AssetCatalog.CommandLine.Display
import AssetCatalog.CommandLine.Help
import AssetCatalog.CommandLine.Program
import AssetCatalog.Main
import AssetCatalog.Proofs.Number.Rounding
import AssetCatalog.Proofs.Version.Denotation
import AssetCatalog.Proofs.Gate.Decision
import AssetCatalog.Proofs.PropertyList.Compact
import AssetCatalog.Proofs.Report.Reasons
import AssetCatalog.Proofs.PropertyList.Ordered
import AssetCatalog.Proofs.Reply.Faithful
import AssetCatalog.Proofs.Report.Lines
import AssetCatalog.Proofs.Publication.Refusals
import AssetCatalog.Proofs.DeploymentTarget.Comments
import AssetCatalog.Proofs.DeploymentTarget.Locality
import AssetCatalog.Proofs.Layout.Apart
import AssetCatalog.Proofs.Layout.Spellings
import AssetCatalog.Proofs.Version.Order
import AssetCatalog.Proofs.Version.Canonical
import AssetCatalog.Proofs.Terminal.Durations
import AssetCatalog.Proofs.Process.Settling
import AssetCatalog.Proofs.Reply.Shapes
