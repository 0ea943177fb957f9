import Optic.Capture.CaptureSpec
import Optic.Capture.JourneyRequest
import Optic.Compiler.LaunchSpec
import Optic.Cli.ShowSpec
import Optic.Compiler.ArtifactsSpec
import Optic.Compiler.DeliverySpec
import Optic.Compiler.DriverRecovery
import Optic.Compiler.ProbeSpec
import Optic.Compiler.PreparationSpec
import Optic.Compiler.BuildSpec
import Optic.Cli.CapturedSpec
import Optic.Compiler.Relay
import Optic.Compiler.RequestSpec
import Optic.Compiler.SnapshotsSpec
import Optic.Compiler.WrapperSpec
import Optic.Compiler.WriterSpec
import Optic.Evidence.FindSpec
import Optic.Evidence.SymbolSpec
import Optic.LlvmIndex.Body
import Optic.LlvmIndex.BudgetSpec
import Optic.LlvmIndex.Groups
import Optic.LlvmIndex.Module
import Optic.LlvmIndex.Quote
import Optic.LlvmIndex.Safety
import Optic.LlvmIndex.Spelling
import Optic.Records.DurableSpec
import Optic.Records.ReferenceSpec
import Optic.Store.CandidateReads
import Optic.Store.ListingReads
import Optic.Store.PiecewiseSpec
import Optic.Store.PublishRecovery
import Optic.Store.RecordBudgetSpec
import Optic.Store.RetrySpec
