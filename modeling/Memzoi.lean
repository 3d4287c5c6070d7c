import Memzoi.Lib.Fallible
import Memzoi.Lib.Json
import Memzoi.Lib.Table
import Memzoi.Lib.Calendar
import Memzoi.Lib.Rfc3339
import Memzoi.Lib.Run
import Memzoi.Lib.Text
import Memzoi.Lib.SortedMap
import Memzoi.Lib.Explore
import Memzoi.Lib.Succession
import Memzoi.Lib.Subtree
import Memzoi.Lib.YamlScalar
import Memzoi.Lib.PrefixCode
import Memzoi.Lib.SourceText
import Memzoi.Models
import Memzoi.Retention
import Memzoi.RetentionRules
import Memzoi.Origin
import Memzoi.OriginHistory
import Memzoi.Schema
import Memzoi.Triggers
import Memzoi.Statements
import Memzoi.VersionLocks
import Memzoi.Recall
import Memzoi.Storage
import Memzoi.Checkpoint
import Memzoi.CheckpointHistory
import Memzoi.Maintenance.Contradiction
import Memzoi.PathMatching
import Memzoi.PrivateLifecycle.Request
import Memzoi.PrivateLifecycle.Semantics
import Memzoi.PrivateLifecycle.Apply
import Memzoi.PrivateLifecycle.View
import Memzoi.PrivateLifecycle.Admission
import Memzoi.PrivateLifecycle.SuccessionHistory
import Memzoi.PrivateRetentionRules
import Memzoi.RetentionPanics
import Memzoi.PrivateRetentionExtension
import Memzoi.PrivateLifecycle.ClockRules
import Memzoi.PrivateLifecycle.ClockHistory
import Memzoi.Constraints
import Memzoi.Lib.Footprint
import Memzoi.PrivateLifecycle.Progress
import Memzoi.PrivateLifecycle.GroupOrder
import Memzoi.PrivateLifecycle.EventAuthority
import Memzoi.PrivateLifecycle.Inspection
import Memzoi.Maintenance.Plan
import Memzoi.Maintenance.Detectors
import Memzoi.Maintenance.PrivatePlan
import Memzoi.Maintenance.PlanRules
import Memzoi.Maintenance.PlanAgreement
import Memzoi.Maintenance.Reconcile
import Memzoi.Maintenance.ReconcileRules
import Memzoi.Maintenance.ConflictRecall
import Memzoi.Okf
import Memzoi.Materialization
import Memzoi.OkfMarkdown
import Memzoi.OkfRules
import Memzoi.OkfScalars
import Memzoi.OkfRecordRules
import Memzoi.Proposals
import Memzoi.ProposalRules
import Memzoi.DerivedIndex
import Memzoi.ProposalApply
import Memzoi.ProposalApplyRules
import Memzoi.MaterializationService
import Memzoi.MaterializationRules
import Memzoi.CompareAndSwap
import Memzoi.Maintenance.RepositoryPlan
import Memzoi.Maintenance.PlanValidity
import Memzoi.Maintenance.Revalidation
import Memzoi.Lib.RelationGraph
import Memzoi.Maintenance.ContradictionPartition
import Memzoi.Maintenance.ContradictionFindings
import Memzoi.SessionEnd
import Memzoi.CheckpointCommands
import Memzoi.CheckpointRules
import Memzoi.CheckpointReplay
import Memzoi.Mcp.Protocol
import Memzoi.Mcp.Ledger
import Memzoi.Mcp.EventLoop
import Memzoi.Capture.PaymentCard
import Memzoi.MemoryPolicy
import Memzoi.Import.Plan
import Memzoi.Import.Duplicates
import Memzoi.Import.Redaction
import Memzoi.RepositoryWriteSafety.Request
import Memzoi.RepositoryWriteSafety.Policy
import Memzoi.RepositoryWriteSafety.Binding
import Memzoi.Search.ContextSelection
import Memzoi.Capture.Lineage
import Memzoi.Search.LostWarnings
import Memzoi.EventExport
import Memzoi.Mcp.LineFraming
import Memzoi.SelfUpdate
import Memzoi.Integrate
import Memzoi.Search.Recency
import Memzoi.Capture.MarkdownExtraction
import Memzoi.Capture.GeneratedBlock
import Memzoi.Capture.CreatedOnce
import Memzoi.Capture.HeadingParts
import Memzoi.Capture.AdrExtraction
import Memzoi.Capture.AdrAuthority
import Memzoi.Capture.AdrReading
import Memzoi.Lib.Runs
import Memzoi.Capture.GitHunk
import Memzoi.Capture.GitDiff
import Memzoi.Capture.GitExtraction
import Memzoi.Capture.GitEvidence
import Memzoi.Preservation
import Memzoi.PreservationRules
import Memzoi.Lib.VersionedView
import Memzoi.Mirror
import Memzoi.MirrorRules
import Memzoi.MirrorRevision
import Memzoi.MirrorRun
