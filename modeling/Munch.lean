import Munch.Interface
import Munch.Main
import Munch.Proofs.CursorRuns
import Munch.Proofs.EndOfInput
import Munch.Proofs.ExactDiagnostics
import Munch.Proofs.FileText
import Munch.Proofs.Gluing
import Munch.Proofs.Independence
import Munch.Proofs.Limits
import Munch.Proofs.MalformedBytes
import Munch.Proofs.MaximalMunch
import Munch.Proofs.Positions
import Munch.Proofs.Relexing
import Munch.Proofs.SharedRuns
import Munch.Workspace
import Munch.Proofs.CommandLineOutput
import Munch.Proofs.Growth
import Munch.Proofs.ReaderConfigs
import Munch.Proofs.LimitsInForce
import Munch.Proofs.ActiveConfiguration
import Munch.Proofs.SourceRecords
import Munch.Proofs.Batches
import Munch.Proofs.CleanOpening
import Munch.Proofs.Midway
import Munch.Proofs.Scans
import Munch.Proofs.Separators
import Munch.Proofs.Closing
import Munch.Proofs.Listing
import Munch.Proofs.DiagnosticText
import Munch.Proofs.PlainNumerals
import Munch.Proofs.Settings
