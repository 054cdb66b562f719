import EpochLog.Bytes
import EpochLog.Path
import EpochLog.Checksum
import EpochLog.Time
import EpochLog.Epoch
import EpochLog.Config
import EpochLog.Record
import EpochLog.Record.Cursor
import EpochLog.Batch
import EpochLog.Frame
import EpochLog.Scan
import EpochLog.Disk
import EpochLog.Log.Error
import EpochLog.Log.Reader
import EpochLog.Log.File
import EpochLog.Log.Scripted
import EpochLog.Logs
import EpochLog.Engine
import EpochLog.Engine.Scripted
import EpochLog.Store.Error
import EpochLog.Store.Status
import EpochLog.Store
import EpochLog.Host
import EpochLog.Pending
import EpochLog.Flush
import EpochLog.Recovery
import EpochLog.CommandLine
import EpochLog.Main
import EpochLog.Proofs.RecordForms
import EpochLog.Proofs.RecordWalks
import EpochLog.Proofs.RecordRoundTrips
import EpochLog.Proofs.BatchContents
import EpochLog.Proofs.FrameCode
import EpochLog.Proofs.FileFrames
import EpochLog.Proofs.TornFrames
import EpochLog.Proofs.ExactFrames
import EpochLog.Proofs.DamagedFrames
import EpochLog.Proofs.Ledger
import EpochLog.Proofs.Readers
import EpochLog.Proofs.History
import EpochLog.Proofs.CutImages
import EpochLog.Proofs.DiskNames
import EpochLog.Proofs.FileLogs
import EpochLog.Proofs.LogRefinement
import EpochLog.Proofs.Calls
import EpochLog.Proofs.Runs
import EpochLog.Proofs.Conservation
import EpochLog.Proofs.FileFlushes
import EpochLog.Proofs.OneDirectory
import EpochLog.Proofs.CrashRecovery
import EpochLog.Proofs.CrashAtomicity
import EpochLog.Proofs.Durability
import EpochLog.Proofs.LastingRelations
import EpochLog.Proofs.LeftAlone
import EpochLog.Proofs.ClosedLogs
import EpochLog.Proofs.SignalledEpoch
import EpochLog.Proofs.EpochWindows
import EpochLog.Proofs.EpochArithmetic
import EpochLog.Proofs.AppliedSegments
import EpochLog.Proofs.Crowds
import EpochLog.Proofs.CrowdOrder
import EpochLog.Proofs.OverlappingFlushes
import EpochLog.Proofs.StepwiseRecovery
import EpochLog.Proofs.RetriedApplies
import EpochLog.Proofs.Retention
import EpochLog.Proofs.LogLengths
import EpochLog.Proofs.RepairedImages
import EpochLog.Proofs.StrayEntries
import EpochLog.Proofs.StaleHandles
import EpochLog.Proofs.OverlappedRecovery
import EpochLog.Proofs.Sites
import EpochLog.Proofs.LifeCycles
import EpochLog.Proofs.LastWords
import EpochLog.Proofs.QuietLogs
import EpochLog.Proofs.CandidateLogs
import EpochLog.Proofs.CheckedSettings
import EpochLog.Proofs.FlushCalls
import EpochLog.Proofs.EngineOverlays
import EpochLog.Proofs.Shelves
import EpochLog.Proofs.EngineRuns
import EpochLog.Proofs.PendingSegments
import EpochLog.Proofs.AppliedMaps
import EpochLog.Proofs.DiscardedLogs
import EpochLog.Proofs.BatchRuns
