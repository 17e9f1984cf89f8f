import SetupCatalog.Main
import SetupCatalog.Proofs.Archive.Unpack
import SetupCatalog.Proofs.Catalog.Inline
import SetupCatalog.Proofs.Command.LineFeed
import SetupCatalog.Proofs.Command.Planned
import SetupCatalog.Proofs.CommandLine.Run
import SetupCatalog.Proofs.Detector.NegativeDistance
import SetupCatalog.Proofs.Detector.Precedence
import SetupCatalog.Proofs.Detector.Segments
import SetupCatalog.Proofs.Detector.Uncased
import SetupCatalog.Proofs.Discovery.Exclusion
import SetupCatalog.Proofs.Discovery.Loading
import SetupCatalog.Proofs.Report.Document
import SetupCatalog.Proofs.Report.Grouping
import SetupCatalog.Proofs.Report.Plan
import SetupCatalog.Proofs.Report.Table
import SetupCatalog.Proofs.Rule.Announcement
import SetupCatalog.Proofs.Rule.CommentedRow
import SetupCatalog.Proofs.Rule.IdOrigin
import SetupCatalog.Proofs.Rule.KeptArguments
import SetupCatalog.Proofs.Rule.LineFeed
import SetupCatalog.Proofs.Rule.LiveLine
import SetupCatalog.Proofs.Rule.NextStatement
import SetupCatalog.Proofs.Rule.SideloadWindow
import SetupCatalog.Proofs.Rule.WrittenContainer
import SetupCatalog.Proofs.Rule.WrittenFlags
import SetupCatalog.Proofs.Script.LaterText
import SetupCatalog.Proofs.Service.Respond
import SetupCatalog.Proofs.SkipList.Agreement
import SetupCatalog.Service.Request
