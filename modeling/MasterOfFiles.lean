import MasterOfFiles.AccessBounds
import MasterOfFiles.AccessRecency
import MasterOfFiles.AgingBounds
import MasterOfFiles.BitmapExactness
import MasterOfFiles.BlockBudget
import MasterOfFiles.BlockNames
import MasterOfFiles.BlockNaming
import MasterOfFiles.BlockTable
import MasterOfFiles.BlockZero
import MasterOfFiles.BoundedRuns
import MasterOfFiles.ByteBuffers
import MasterOfFiles.ByteStreams
import MasterOfFiles.CancelledQueries
import MasterOfFiles.CellQueries
import MasterOfFiles.ClockClasses
import MasterOfFiles.CommitCompleteness
import MasterOfFiles.CommitDeduplication
import MasterOfFiles.CommitTargets
import MasterOfFiles.CommittedTags
import MasterOfFiles.ConcurrentTruncate
import MasterOfFiles.ConfigText
import MasterOfFiles.ConsistentImages
import MasterOfFiles.DanglingQueries
import MasterOfFiles.DeleteFrames
import MasterOfFiles.DescriptorOwnership
import MasterOfFiles.DescriptorTables
import MasterOfFiles.DispatchCompletion
import MasterOfFiles.DispatchNetwork
import MasterOfFiles.DispatchViews
import MasterOfFiles.EndReports
import MasterOfFiles.EvictionReads
import MasterOfFiles.EvictionRequests
import MasterOfFiles.FailedFetches
import MasterOfFiles.FailedRequests
import MasterOfFiles.FailedWrites
import MasterOfFiles.FlushCompleteness
import MasterOfFiles.FrameInvariants
import MasterOfFiles.FrameTables
import MasterOfFiles.FreeBlockSearch
import MasterOfFiles.HandlerSimulation
import MasterOfFiles.HashIndex
import MasterOfFiles.IndexUpdates
import MasterOfFiles.InstructionFields
import MasterOfFiles.KeyedLists
import MasterOfFiles.LinkAgreement
import MasterOfFiles.ListSums
import MasterOfFiles.LockedPrograms
import MasterOfFiles.LockedRequests
import MasterOfFiles.MasterMessages
import MasterOfFiles.MetadataRoundTrip
import MasterOfFiles.MissingTags
import MasterOfFiles.NameResolution
import MasterOfFiles.NameUniqueness
import MasterOfFiles.NumericArguments
import MasterOfFiles.PacketSafety
import MasterOfFiles.Packets
import MasterOfFiles.PagingSimulation
import MasterOfFiles.PartialRuns
import MasterOfFiles.PathTables
import MasterOfFiles.PathWalks
import MasterOfFiles.PlainNames
import MasterOfFiles.PreemptedRuns
import MasterOfFiles.PriorityOrder
import MasterOfFiles.QueryHolders
import MasterOfFiles.QueryOwnership
import MasterOfFiles.QueryRuns
import MasterOfFiles.QuerySubmission
import MasterOfFiles.QueryText
import MasterOfFiles.ReachableStates
import MasterOfFiles.ReadReports
import MasterOfFiles.ReadyQueue
import MasterOfFiles.RecoveredOrder
import MasterOfFiles.ReferenceCounts
import MasterOfFiles.ReplacementPolicies
import MasterOfFiles.ReportDelivery
import MasterOfFiles.RequestEffects
import MasterOfFiles.RestartRecovery
import MasterOfFiles.RetainedBlocks
import MasterOfFiles.ReusedRecords
import MasterOfFiles.RunTraces
import MasterOfFiles.SchedulerMoves
import MasterOfFiles.SchedulerState
import MasterOfFiles.SchedulerSteps
import MasterOfFiles.ScriptProvenance
import MasterOfFiles.SelfDeadlock
import MasterOfFiles.SemaphoreCounts
import MasterOfFiles.ServerMorphisms
import MasterOfFiles.SharedCell
import MasterOfFiles.SharedStrings
import MasterOfFiles.ShellWords
import MasterOfFiles.SizeAgreement
import MasterOfFiles.SortedLists
import MasterOfFiles.StalePages
import MasterOfFiles.StorageAnswers
import MasterOfFiles.StorageFiles
import MasterOfFiles.StorageLockstep
import MasterOfFiles.StorageMessages
import MasterOfFiles.StorageOperations
import MasterOfFiles.StorageRestart
import MasterOfFiles.StorageState
import MasterOfFiles.StoredMetadata
import MasterOfFiles.StringLayouts
import MasterOfFiles.TagCopies
import MasterOfFiles.TagDirectories
import MasterOfFiles.TagLookups
import MasterOfFiles.TraceMarks
import MasterOfFiles.TransparentPaging
import MasterOfFiles.TransparentQueries
import MasterOfFiles.TruncateEffects
import MasterOfFiles.TruncateOutcomes
import MasterOfFiles.TruncateTurns
import MasterOfFiles.UsedBlocks
import MasterOfFiles.WatchedQueries
import MasterOfFiles.WatchedRuns
import MasterOfFiles.WholeQueries
import MasterOfFiles.WorkerInstructions
import MasterOfFiles.WorkerLoop
import MasterOfFiles.WorkerMemory
import MasterOfFiles.WorkerMessages
import MasterOfFiles.WorkerRecords
import MasterOfFiles.WorkerRegistry
import MasterOfFiles.WriteBackCaches
import MasterOfFiles.WriteReadback
