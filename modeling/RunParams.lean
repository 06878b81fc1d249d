import RunParams.CommandLine
import RunParams.Main
import RunParams.Proofs.Paths
import RunParams.Proofs.TreeShape
import RunParams.Proofs.TreeLeaves
import RunParams.Proofs.TreeListing
import RunParams.Proofs.TreeMap
import RunParams.Proofs.Registrations
import RunParams.Proofs.Runs
import RunParams.Proofs.KeySpelling
import RunParams.Proofs.KeyGrammar
import RunParams.Proofs.LineGrammar
import RunParams.Proofs.BatchWrites
import RunParams.Proofs.DocumentRuns
import RunParams.Proofs.DocumentErrors
import RunParams.Proofs.OptionGrammar
import RunParams.Proofs.ArgumentRuns
import RunParams.Proofs.CommandLineErrors
import RunParams.Proofs.ArgumentPrefixes
import RunParams.Proofs.ArgumentSpans
import RunParams.Proofs.TreeReplay
import RunParams.Proofs.TreeRoutes
import RunParams.Proofs.KeyOrder
import RunParams.Proofs.ReportSections
import RunParams.Proofs.FlagSettings
import RunParams.Proofs.Flags
import RunParams.Proofs.Lifecycle
import RunParams.Proofs.Finalizers
import RunParams.Proofs.LineOrder
import RunParams.Proofs.Partition
import RunParams.Proofs.Precedence
import RunParams.Proofs.Lines
import RunParams.Proofs.Wrapping
import RunParams.Proofs.GreedyWrapping
import RunParams.Proofs.WrapLoop
import RunParams.Proofs.UsageLayout
import RunParams.Proofs.ListingRoundTrip
import RunParams.Proofs.Redeclaration
import RunParams.Proofs.ValuesRoundTrip
import RunParams.Proofs.ReportedTexts
import RunParams.Proofs.StoredKeys
import RunParams.Proofs.RegistrationOrder
import RunParams.Proofs.Channels
import RunParams.Proofs.ValueTexts
import RunParams.Proofs.TypedChannels
import RunParams.Proofs.ShownDefaults
import RunParams.Proofs.SurroundingBlanks
import RunParams.Proofs.Refusals
import RunParams.Proofs.RejectedWrites
import RunParams.Proofs.Escaping
import RunParams.Proofs.Rendering
import RunParams.Proofs.ErrorLists
import RunParams.Proofs.CheckErrors
import RunParams.Proofs.ArgumentShapes
import RunParams.Proofs.Conversions
import RunParams.Proofs.FirstRegistrations
import RunParams.Proofs.NewDefaults
import RunParams.Proofs.JoinedDocuments
import RunParams.Proofs.UncheckedAccess
