import Quicknet.Library.Transition
import Quicknet.Library.Interaction
import Quicknet.Library.ParentChain
import Quicknet.Library.NumberedQueue
import Quicknet.Journal
import Quicknet.JournalValidation
import Quicknet.JournalVerification
import Quicknet.BlockAnchor
import Quicknet.AttemptReceipt
import Quicknet.ReplacementSearch
import Quicknet.SignerRecovery
import Quicknet.SignerInclusions
import Quicknet.SignerGate
import Quicknet.NonceSync
import Quicknet.SignerCoordinator
import Quicknet.SignerRuns
import Quicknet.JournalWrites
import Quicknet.SignerTrace
import Quicknet.SignerSteps
import Quicknet.SignerInvariant
import Quicknet.SignerReach
import Quicknet.JournalSafety
import Quicknet.LatchedBlockers
import Quicknet.ActionAuthorization
import Quicknet.BroadcastSafety
import Quicknet.CanonicalChain
import Quicknet.ForkedSearch
import Quicknet.Library.QueueFrame
import Quicknet.AttemptFrame
import Quicknet.ChainSearch
import Quicknet.SearchProgress
import Quicknet.RecoveryCalls
import Quicknet.SearchCompleteness
import Quicknet.Library.PrimeCertificate
import Quicknet.BeaconRegistry
import Quicknet.BeaconVerifier
import Quicknet.RegistryAgreement
import Quicknet.BaseField
import Quicknet.SignatureWitness
import Quicknet.RequestScanner
import Quicknet.RequestProcessor
import Quicknet.DurableRequests
import Quicknet.CheckpointStore
import Quicknet.DaemonIteration
import Quicknet.CheckpointSoundness
import Quicknet.InspectionOwnership
import Quicknet.FailedOperations
import Quicknet.PersistenceRetry
import Quicknet.TransactionManager
import Quicknet.SubmissionRecording
import Quicknet.ManagerRuns
import Quicknet.Library.Json
import Quicknet.JournalText
import Quicknet.JournalCodec
import Quicknet.JournalRoundTrip
import Quicknet.Library.DurableFile
import Quicknet.JournalFiles
import Quicknet.JournalCrash
import Quicknet.JournalDurability
import Quicknet.Library.PeriodicSchedule
import Quicknet.BeaconSchedule
import Quicknet.RandomnessConsumer
import Quicknet.RecoveryRevision
import Quicknet.NonceRepair
import Quicknet.ReceiptReconciliation
import Quicknet.Library.JsonLayout
import Quicknet.CheckpointText
import Quicknet.CheckpointMonotonicity
import Quicknet.CheckpointRefinement
import Quicknet.BeaconWork
import Quicknet.RetainedWork
import Quicknet.RoundImport
import Quicknet.ImportRuns
import Quicknet.SyncNonce
import Quicknet.SyncNonceRuns
import Quicknet.RecoveryCycle
import Quicknet.RecoveryPass
import Quicknet.RecoverySkips
import Quicknet.Library.UriComponent
import Quicknet.TextScrubber
import Quicknet.ScrubbedViews
import Quicknet.ScrubberForms
import Quicknet.ScrubberReadings
import Quicknet.ScrubberCoverage
import Quicknet.LimbArithmetic
import Quicknet.RequestBatch
import Quicknet.BroadcastRetrySchedule
import Quicknet.RoundWait
import Quicknet.SoftScans
import Quicknet.SecurityProfile
import Quicknet.ProfileTiming
import Quicknet.Library.Attempt
import Quicknet.SecurityReport
import Quicknet.SecurityCheck
import Quicknet.SecurityFailClosed
import Quicknet.SignedVariants
import Quicknet.ManagerRecovery
import Quicknet.CycleOwnership
import Quicknet.ManagerReports
import Quicknet.Library.DoubleText
import Quicknet.Library.JsonSize
import Quicknet.RpcUsage
import Quicknet.DaemonStatus
import Quicknet.DaemonStatusRoundTrip
import Quicknet.DaemonStatusSize
import Quicknet.RuntimeBounds
import Quicknet.TimestampText
import Quicknet.DaemonStatusPublisher
import Quicknet.StatusPublication
import Quicknet.StoredSigner
import Quicknet.StoredRuns
import Quicknet.StoredPreparation
import Quicknet.PersistenceWedge
import Quicknet.Library.KeyedRows
import Quicknet.RpcMetrics
import Quicknet.RpcMetricsRuns
import Quicknet.RpcCallCounts
import Quicknet.RpcUsageReport
import Quicknet.RpcUsageIntervals
import Quicknet.RpcUsageLog
import Quicknet.RpcUsageAccounting
import Quicknet.Library.NodeBudget
import Quicknet.Library.ObjectGraph
import Quicknet.ErrorDetails
import Quicknet.ErrorSummary
import Quicknet.ErrorSummaryTexts
import Quicknet.ErrorSummaryTree
import Quicknet.ErrorSummaryBounds
import Quicknet.ErrorSummaryFlags
import Quicknet.ErrorSummaryWhole
import Quicknet.Library.ArgumentScan
import Quicknet.CommandArguments
import Quicknet.CommandGrammar
import Quicknet.Library.FileLock
import Quicknet.Library.Interference
import Quicknet.ServiceLock
import Quicknet.ServiceLauncher
import Quicknet.ServiceHost
import Quicknet.ServiceEntries
import Quicknet.StatusSelection
import Quicknet.ServiceOwnership
import Quicknet.ServiceVerification
import Quicknet.ServiceHolding
import Quicknet.ServiceStart
import Quicknet.ServiceExclusion
import Quicknet.DaemonCycle
import Quicknet.DaemonLoop
import Quicknet.Library.Monitor
import Quicknet.DaemonProtocol
import Quicknet.ChainHeadsReader
import Quicknet.BeaconFetch
import Quicknet.BeaconResponse
import Quicknet.BeaconFetchRuns
import Quicknet.RegistryImport
import Quicknet.RegistryImportRuns
