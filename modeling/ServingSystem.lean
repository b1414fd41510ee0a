import ServingSystem.Runs
import ServingSystem.Dict
import ServingSystem.Positions
import ServingSystem.StateExcept
import ServingSystem.LeastScan
import ServingSystem.LoadBalance
import ServingSystem.LetterCoding
import ServingSystem.RetryLoop
import ServingSystem.Protos
import ServingSystem.DeploymentHandle
import ServingSystem.ReplicaSelection
import ServingSystem.SendRequest
import ServingSystem.ConcurrentRequests
import ServingSystem.RoutingFeed
import ServingSystem.ChunkedCoding
import ServingSystem.HttpSession
import ServingSystem.SessionMetrics
import ServingSystem.HttpMessage
import ServingSystem.SingleResponse
import ServingSystem.TokenPipeline
import ServingSystem.RoutingTable
import ServingSystem.ProxySessions
import ServingSystem.ReplicaKey
import ServingSystem.Registry
import ServingSystem.Coherence
import ServingSystem.NodeAccounting
import ServingSystem.RunningFilter
import ServingSystem.ControlPlane
import ServingSystem.HeadController
import ServingSystem.FutureManager
import ServingSystem.Scheduler
import ServingSystem.CreationTasks
import ServingSystem.RetriedCreation
import ServingSystem.ProxyManager
import ServingSystem.SnapshotOrder
import ServingSystem.ReplicaRequests
import ServingSystem.PythonHandle
import ServingSystem.KeyCodec
import ServingSystem.StreamGenerator
import ServingSystem.RoutingAlike
import ServingSystem.Balance
import ServingSystem.GenerateStream
import ServingSystem.ModelConfigs
import ServingSystem.AwsVm
import ServingSystem.GcpVm
import ServingSystem.ClosedQueue
import ServingSystem.ErrorReplies
import ServingSystem.ChunkRoundTrip
import ServingSystem.ErrorFlags
import ServingSystem.Purge
import ServingSystem.FailedUpdates
import ServingSystem.DeploymentRemoval
import ServingSystem.BatchInverse
import ServingSystem.HealthReports
import ServingSystem.CommandLine
import ServingSystem.ArgumentForms
import ServingSystem.Heartbeat
import ServingSystem.ReplicaPorts
import ServingSystem.HeadSteps
import ServingSystem.WorkerRegistry
import ServingSystem.Cluster
import ServingSystem.ClusterInvariant
import ServingSystem.ClusterRouting
import ServingSystem.ClusterBounds
import ServingSystem.ReplicaStartup
import ServingSystem.Monitor
import ServingSystem.QueueMonitor
import ServingSystem.ReplicaMetrics
import ServingSystem.VllmReplica
import ServingSystem.ReplicaThreads
import ServingSystem.AsyncLock
import ServingSystem.PythonSessions
import ServingSystem.RoutingLock
import ServingSystem.SessionCounts
import ServingSystem.SessionOutcomes
import ServingSystem.ProxyAnswers
import ServingSystem.FleetCreation
import ServingSystem.Fleet
import ServingSystem.FleetInvariant
import ServingSystem.Serving
import ServingSystem.ServingInvariant
