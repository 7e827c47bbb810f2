import Elvern.AdaptiveControl
import Elvern.AgeAnniversaries
import Elvern.AgeGroups
import Elvern.AgeReconciling
import Elvern.AgeResolution
import Elvern.AgeRevocation
import Elvern.AliasHistory
import Elvern.AttachGate
import Elvern.AudioTracks
import Elvern.AuthEnv
import Elvern.AuthSessions
import Elvern.AuthTables
import Elvern.BackupEnvelope
import Elvern.BackupJobs
import Elvern.BackupLease
import Elvern.BackupRoundTrip
import Elvern.BatchFailures
import Elvern.CapacityGuard
import Elvern.CapacityLedger
import Elvern.CatalogTables
import Elvern.ClosedIntervals
import Elvern.CloudActivity
import Elvern.CloudContinuity
import Elvern.CloudMirror
import Elvern.CloudSync
import Elvern.CollisionRepair
import Elvern.ConflictEvidence
import Elvern.ConflictMemory
import Elvern.ConflictTimes
import Elvern.ConnectOnce
import Elvern.ConnectivityRecovery
import Elvern.ContinueWatching
import Elvern.CopyEvidence
import Elvern.CopyMerging
import Elvern.CursorUpkeep
import Elvern.DeciderPolling
import Elvern.DiagnosticCatalog
import Elvern.DiagnosticDelivery
import Elvern.DiagnosticRing
import Elvern.DiagnosticSpool
import Elvern.DiskWrites
import Elvern.DispatchTrace
import Elvern.DriveRanges
import Elvern.DriveStitching
import Elvern.EncryptedJournal
import Elvern.EpochBookkeeping
import Elvern.EpochMoves
import Elvern.EpochPublication
import Elvern.EpochSwitches
import Elvern.EpochWorkers
import Elvern.EventPrivacy
import Elvern.Exceptions
import Elvern.ExternalNavigation
import Elvern.FactorLaw
import Elvern.GoogleConnect
import Elvern.GrantCoupling
import Elvern.Heaps
import Elvern.HiddenIdentities
import Elvern.HiddenScopes
import Elvern.HiddenTables
import Elvern.HideShow
import Elvern.IdealLimiter
import Elvern.Invites
import Elvern.JournalIndexing
import Elvern.JournalRecovery
import Elvern.JournalText
import Elvern.LegacyMigration
import Elvern.LibraryFolders
import Elvern.LibraryFreshness
import Elvern.LibraryLinks
import Elvern.LimiterBuckets
import Elvern.LiteDecider
import Elvern.LiveRuns
import Elvern.LocalStreams
import Elvern.Login
import Elvern.LoginCommits
import Elvern.LoginThrottle
import Elvern.ManifestEnd
import Elvern.MediaScan
import Elvern.MissingRanges
import Elvern.NativeHlsWindow
import Elvern.Overlaps
import Elvern.PassphraseLimiter
import Elvern.PendingEvents
import Elvern.PlaybackGrants
import Elvern.PosterDerivatives
import Elvern.PosterFairness
import Elvern.PosterRetries
import Elvern.PosterWaiters
import Elvern.ProbeCircuit
import Elvern.ProgressRevision
import Elvern.ProgressTracking
import Elvern.PublicationFrontier
import Elvern.PyText
import Elvern.RangeAlgebra
import Elvern.RateLimiter
import Elvern.RebuildFixpoint
import Elvern.RecentAuth
import Elvern.RemergedEvidence
import Elvern.RenameHistory
import Elvern.RevisionCounters
import Elvern.RevisionPolling
import Elvern.RevisionSync
import Elvern.RevisionTriggers
import Elvern.Route2Dispatch
import Elvern.Runs
import Elvern.Savepoints
import Elvern.ScanClassification
import Elvern.ScanRemoval
import Elvern.ScanSkips
import Elvern.ScanWrites
import Elvern.Sealing
import Elvern.SecondFactor
import Elvern.SegmentFiles
import Elvern.SegmentMapping
import Elvern.SeriesRails
import Elvern.SessionLimit
import Elvern.SharedOutputStore
import Elvern.SharedStoreFiles
import Elvern.Simulations
import Elvern.SizeFixpoints
import Elvern.SlidingWindow
import Elvern.SnapshotCursors
import Elvern.SourceRegistration
import Elvern.SpoolMirror
import Elvern.SpoolSequences
import Elvern.SpoolUsage
import Elvern.Statements
import Elvern.Sweeps
import Elvern.Tables
import Elvern.ThreadBudget
import Elvern.TimelineMapping
import Elvern.TimelineRanges
import Elvern.TotpService
import Elvern.TrackingRebuild
import Elvern.Traversals
import Elvern.WatchTime
import Elvern.WindowFollows
import Elvern.WindowedPlaylist
import Elvern.WorkerThreads
