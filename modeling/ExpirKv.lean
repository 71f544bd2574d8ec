import ExpirKv.Admission
import ExpirKv.Cleanup
import ExpirKv.CleanupFacts
import ExpirKv.CleanupLifetime
import ExpirKv.CleanupRun
import ExpirKv.CleanupSafe
import ExpirKv.CleanupSweep
import ExpirKv.Commit.Aligned
import ExpirKv.Commit.Batch
import ExpirKv.Commit.Codecs
import ExpirKv.Commit.Coordinated
import ExpirKv.Commit.Coordinator
import ExpirKv.Commit.CoordinatorInvariant
import ExpirKv.Commit.CoordinatorOutcome
import ExpirKv.Commit.CoordinatorRuns
import ExpirKv.Commit.CoordinatorSteps
import ExpirKv.Commit.Descriptor
import ExpirKv.Commit.DescriptorExact
import ExpirKv.Commit.DescriptorFacts
import ExpirKv.Commit.Durability
import ExpirKv.Commit.Grounding
import ExpirKv.Commit.Journaled
import ExpirKv.Commit.LiveMap
import ExpirKv.Commit.LiveRuns
import ExpirKv.Commit.Ordering
import ExpirKv.Commit.Packed
import ExpirKv.Commit.Planning
import ExpirKv.Commit.PreflightComplete
import ExpirKv.Commit.Preparing
import ExpirKv.Commit.Protocol
import ExpirKv.Commit.ProtocolFacts
import ExpirKv.Commit.Secured
import ExpirKv.Commit.StoredPointers
import ExpirKv.Commit.Streams
import ExpirKv.Commit.Totality
import ExpirKv.Commit.Transactions
import ExpirKv.Commit.Verdicts
import ExpirKv.Commit.WriterRuns
import ExpirKv.Cursor
import ExpirKv.CursorFacts
import ExpirKv.Error
import ExpirKv.Index
import ExpirKv.Library.Bytes
import ExpirKv.Library.Checksum
import ExpirKv.Library.Denoting
import ExpirKv.Library.Effects
import ExpirKv.Library.FifoCache
import ExpirKv.Library.Framing
import ExpirKv.Library.Histories
import ExpirKv.Library.Keyspace
import ExpirKv.Library.LastWrite
import ExpirKv.Library.Mirror
import ExpirKv.Library.Results
import ExpirKv.Library.Retries
import ExpirKv.Library.Zipper
import ExpirKv.Lifecycle.Attempts
import ExpirKv.Lifecycle.Boundaries
import ExpirKv.Lifecycle.CleanOpen
import ExpirKv.Lifecycle.Completing
import ExpirKv.Lifecycle.CrashImages
import ExpirKv.Lifecycle.CrashRuns
import ExpirKv.Lifecycle.Deletes
import ExpirKv.Lifecycle.Destroy
import ExpirKv.Lifecycle.DestroyFacts
import ExpirKv.Lifecycle.Destruction
import ExpirKv.Lifecycle.Handoff
import ExpirKv.Lifecycle.Identity
import ExpirKv.Lifecycle.Initialize
import ExpirKv.Lifecycle.InitializeFacts
import ExpirKv.Lifecycle.InitializeRuns
import ExpirKv.Lifecycle.Lineage
import ExpirKv.Lifecycle.Listing
import ExpirKv.Lifecycle.Outcomes
import ExpirKv.Lifecycle.Reattempts
import ExpirKv.Lifecycle.Removal
import ExpirKv.Lifecycle.Root
import ExpirKv.Lifecycle.ServedRuns
import ExpirKv.Lifecycle.Survival
import ExpirKv.Lifecycle.TornOpen
import ExpirKv.LiveDatabase
import ExpirKv.LiveReads
import ExpirKv.Range
import ExpirKv.RangeFacts
import ExpirKv.Recovery.Acceptance
import ExpirKv.Recovery.Analyze
import ExpirKv.Recovery.AnalyzeDrawn
import ExpirKv.Recovery.AnalyzeFacts
import ExpirKv.Recovery.Anchoring
import ExpirKv.Recovery.Chronicle
import ExpirKv.Recovery.Descriptors
import ExpirKv.Recovery.DescriptorsExact
import ExpirKv.Recovery.Envelope
import ExpirKv.Recovery.Execute
import ExpirKv.Recovery.ExecuteFacts
import ExpirKv.Recovery.ExecuteSteps
import ExpirKv.Recovery.ExecuteTrace
import ExpirKv.Recovery.Flushing
import ExpirKv.Recovery.Guarded
import ExpirKv.Recovery.KeyRanges
import ExpirKv.Recovery.LongestPrefix
import ExpirKv.Recovery.Opening
import ExpirKv.Recovery.Planned
import ExpirKv.Recovery.Resume
import ExpirKv.Recovery.Reverting
import ExpirKv.Recovery.SafeOrder
import ExpirKv.Recovery.Settled
import ExpirKv.Recovery.Topology
import ExpirKv.Recovery.TopologyFacts
import ExpirKv.Recovery.TrimExact
import ExpirKv.Recovery.TrimReached
import ExpirKv.Recovery.TrimSteps
import ExpirKv.Recovery.Undo
import ExpirKv.Recovery.UndoCommit
import ExpirKv.Recovery.UndoFacts
import ExpirKv.Recovery.Weathering
import ExpirKv.Runtime.GateCore
import ExpirKv.Runtime.GateFacts
import ExpirKv.Runtime.GateSteps
import ExpirKv.Runtime.Lifecycle
import ExpirKv.Runtime.LifecycleFacts
import ExpirKv.Runtime.State
import ExpirKv.Runtime.StateFacts
import ExpirKv.Runtime.StateSteps
import ExpirKv.Runtime.Threads
import ExpirKv.Storage
import ExpirKv.Vlog.Append
import ExpirKv.Vlog.AppendChunk
import ExpirKv.Vlog.AppendGrows
import ExpirKv.Vlog.AppendReady
import ExpirKv.Vlog.Atomic
import ExpirKv.Vlog.Books
import ExpirKv.Vlog.Envelope
import ExpirKv.Vlog.EnvelopeFacts
import ExpirKv.Vlog.Format
import ExpirKv.Vlog.FormatExact
import ExpirKv.Vlog.FormatFacts
import ExpirKv.Vlog.Geometry
import ExpirKv.Vlog.HandleCache
import ExpirKv.Vlog.HandleCacheFacts
import ExpirKv.Vlog.HandleThreads
import ExpirKv.Vlog.HandleThreadsFacts
import ExpirKv.Vlog.Laying
import ExpirKv.Vlog.Layouts
import ExpirKv.Vlog.Planner
import ExpirKv.Vlog.PlannerExact
import ExpirKv.Vlog.Pointer
import ExpirKv.Vlog.Reader
import ExpirKv.Vlog.ReaderFacts
import ExpirKv.Vlog.Renumbering
import ExpirKv.Vlog.Rereading
import ExpirKv.Vlog.Reserving
import ExpirKv.Vlog.ReservingFacts
import ExpirKv.Vlog.Retries
import ExpirKv.Vlog.RoundTrip
import ExpirKv.Vlog.Scan
import ExpirKv.Vlog.ScanExact
import ExpirKv.Vlog.ScanFacts
import ExpirKv.Vlog.ScanSound
import ExpirKv.Vlog.Segments
import ExpirKv.Vlog.Streams
import ExpirKv.Vlog.Sync
import ExpirKv.Vlog.Tiling
import ExpirKv.Vlog.Writer
