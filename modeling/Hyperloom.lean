import Hyperloom.State.RoundLane
import Hyperloom.Bringup.SelfHeal
import Hyperloom.Loop.InboxDelivery
import Hyperloom.Loop.DoubleSpawn
import Hyperloom.Phases.Barrier
import Hyperloom.Phases.BudgetShares
import Hyperloom.Bus.GpuPool
import Hyperloom.Bringup.RoundLiveness
import Hyperloom.Loop.OptimizationStack
import Hyperloom.Phases.EndlessCycles
import Hyperloom.Phases.ClockHistory
import Hyperloom.Blackboard.SegmentRuns
import Hyperloom.Blackboard.InboxDelivery
import Hyperloom.Blackboard.PeerOutcome
import Hyperloom.Toolbox.Concurrency
import Hyperloom.Toolbox.Settling
import Hyperloom.Loop.VerdictMap
import Hyperloom.Toolbox.Exploration
import Hyperloom.Blackboard.ClaimEnd
import Hyperloom.Toolbox.BuildNotification
import Hyperloom.Toolbox.CardConservation
import Hyperloom.Toolbox.CardTime
import Hyperloom.Toolbox.WeightPrecision
import Hyperloom.Toolbox.Attempts
import Hyperloom.Toolbox.KernelRows
import Hyperloom.RuleGate.Landings
import Hyperloom.GpuPower.Recovery
import Hyperloom.Arbor.TakeHost
import Hyperloom.Arbor.StageSettle
import Hyperloom.ForgeLoop.SameCases
import Hyperloom.ForgeLoop.LaneQueue
import Hyperloom.ForgeLoop.Workspace
import Hyperloom.ForgeLoop.EventLog
import Hyperloom.ForgeLoop.OrchestrationProbe
import Hyperloom.Contracts.RecipeDiff
import Hyperloom.State.ExploreLedger
