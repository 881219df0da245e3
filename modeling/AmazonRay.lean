import AmazonRay.ReferenceCounter.Runs
import AmazonRay.TaskManager.Eviction
import AmazonRay.TaskManager.TaskReferences
import AmazonRay.Raylet.LeaseRequests
import AmazonRay.Raylet.PinnedArguments
import AmazonRay.Raylet.OutstandingPulls
import AmazonRay.TaskSubmitter.PendingTasks
import AmazonRay.ActorSubmitter.Results
import AmazonRay.ActorSubmitter.GaplessRuns
import AmazonRay.ActorSubmitter.SubmitQueue
import AmazonRay.ActorSubmitter.ReceivingQueue
import AmazonRay.Recovery.NodeRemoval
import AmazonRay.Recovery.PostedRecoveries
import AmazonRay.PullManager.Runs
import AmazonRay.Gcs.BundlePlacement
import AmazonRay.Gcs.Availability
import AmazonRay.Gcs.DestroyedActors
import AmazonRay.ResourceReports.Convergence
import AmazonRay.ResourceReports.Poller
import AmazonRay.PlacementGroupResources.Conservation
import AmazonRay.LocalResources.View
import AmazonRay.LocalObjects.Counters
import AmazonRay.LocalObjects.SpillWorkers
import AmazonRay.LocalObjects.RefusedSpills
import AmazonRay.WorkerPool.IoWorkers
import AmazonRay.WorkerPool.IdleWorkers
import AmazonRay.Serve.Router
import AmazonRay.Serve.LongPollClient
import AmazonRay.ObjectManager.ChunkedTransfer
import AmazonRay.Rllib.ReplayBuffer
import AmazonRay.PlacementGroupResources.Names
