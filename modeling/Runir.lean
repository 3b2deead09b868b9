import Runir.Domain.GitRemotes
import Runir.Domain.Keys
import Runir.Domain.MinniSummaries
import Runir.Overlay.ReadYourWrites
import Runir.Store.BatchSerial
import Runir.Store.CycleGuard
import Runir.Store.Lineage
import Runir.Store.PromotionReliable
import Runir.Store.Retention
import Runir.Store.SupersedeOutcome
import Runir.Writes.Concurrent
import Runir.Writes.JudgeRecords
import Runir.Writes.MergedText
import Runir.Writes.Nominations
import Runir.Writes.Partition
import Runir.Writes.Statements
import Runir.Writes.ValueChange
import Runir.Lifecycle.DedupChains
import Runir.Lifecycle.Lock
import Runir.Lifecycle.ProtectedRows
import Runir.Lifecycle.UsefulnessSums
import Runir.Capture.Attribution
import Runir.Capture.BatchDedup
import Runir.Capture.Chunks
import Runir.Capture.CodexWatermarks
import Runir.Capture.CompressedIndices
import Runir.Capture.FactIsolation
import Runir.Capture.Honest
import Runir.Capture.ListSpans
import Runir.Capture.RedactionSound
import Runir.Capture.SpoolForget
import Runir.Capture.SpoolKept
import Runir.Capture.TurnLocks
import Runir.Policy.AdmissionSound
import Runir.Policy.Delivery
import Runir.Bridge.ManagedSealed
import Runir.Compaction.ClusterComponents
import Runir.Compaction.CompactionLoss
import Runir.Continuity.GapDecisions
import Runir.Continuity.GapReconcile
import Runir.Continuity.ProjectStateRuns
import Runir.Continuity.SessionRuns
import Runir.Continuity.StateCas
import Runir.Continuity.WarmingRuns
import Runir.Entities.Arbitrator
import Runir.Entities.EdgeQuotient
import Runir.Maintenance.RetentionSound
import Runir.Maintenance.TenantMerge
import Runir.Noema.CompositionLog
import Runir.Pi.ForcedCompaction
import Runir.Pi.ProjectionRuns
import Runir.Recall.BudgetFit
import Runir.Recall.CollapseWitness
import Runir.Recall.EntityLeg
import Runir.Recall.ExcerptBest
import Runir.Recall.HexisWindow
import Runir.Recall.LatestStateRows
import Runir.Recall.NoemaMerge
import Runir.Recall.RankFusion
import Runir.Recall.SelectionSound
import Runir.Recall.Spliced
import Runir.Recall.StatusFallback
import Runir.Recall.ThinkParsing
import Runir.Recall.VerifiedSources
