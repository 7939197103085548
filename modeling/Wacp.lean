import Wacp.Analysis.CascadeReference
import Wacp.Analysis.TrailRecovery
import Wacp.Analysis.Compaction
import Wacp.Analysis.ApprovalGate
import Wacp.Analysis.PermissionTable
import Wacp.Analysis.CheckpointIds
import Wacp.Analysis.SendOnce
import Wacp.Analysis.TopologyAgreement
import Wacp.Analysis.GateOnce
import Wacp.Analysis.MigrationRoundTrip
import Wacp.Analysis.SnapshotStores
import Wacp.Analysis.MigrationRestore
import Wacp.Analysis.BreakerProtocol
import Wacp.Analysis.LimiterQueue
import Wacp.Analysis.WorkflowTasks
import Wacp.Analysis.SessionPaths
import Wacp.Analysis.LaunchCleanup
import Wacp.Analysis.LaunchCustody
import Wacp.Analysis.LaunchOnce
import Wacp.Analysis.StartupRecovery
import Wacp.Analysis.ProfilePrivacy
import Wacp.Analysis.AccountLockout
import Wacp.Analysis.PinnedProfiles
import Wacp.Analysis.ValidatedLaunch
import Wacp.Analysis.SessionAuthority
import Wacp.Analysis.AgentCredentials
import Wacp.Analysis.PathConfinement
import Wacp.Analysis.StageTools
import Wacp.Analysis.TradeApproval
import Wacp.Analysis.SegmentMerging
import Wacp.Analysis.TimestampOrder
import Wacp.Analysis.RecoveredClock
import Wacp.Analysis.RetryDispatch
import Wacp.Analysis.DispatchCapacity
import Wacp.Analysis.RateWindow
import Wacp.Analysis.ResourceLimits
import Wacp.Analysis.TaskListing
import Wacp.Analysis.ToolTexts
import Wacp.Analysis.SessionMonitor
import Wacp.Analysis.AssignmentsSet
import Wacp.Analysis.PendingItems
import Wacp.Analysis.WorkflowExecution
