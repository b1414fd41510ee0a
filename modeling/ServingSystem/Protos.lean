import ServingSystem.Dict

/-!
# Messages

The protobuf messages exchanged by the head, the workers, the replicas and
the proxies. Scalar `uint32` and `int64` fields are natural numbers: every
value the code stores in them is a small counter or a clock reading.
-/

set_option autoImplicit false

namespace ServingSystem.Protos

structure ReplicaInfo where
  replicaId : String
  address : String
  state : String
  deriving DecidableEq, Repr

structure DeploymentInfoMessage where
  deploymentId : ℕ
  deploymentName : String
  version : String
  status : String
  replicas : List ReplicaInfo
  deriving DecidableEq, Repr

structure RoutingUpdate where
  currentDeployments : Dict ℕ DeploymentInfoMessage
  timestampNs : ℕ

structure ReplicaContent where
  replicaId : ℕ
  port : String
  deriving DecidableEq, Repr

structure ReplicaCreationReply where
  workerId : ℕ
  replicas : List ReplicaContent
  workerAddress : String
  created : Bool
  deriving DecidableEq, Repr

structure ReplicaState where
  replicaId : ℕ
  deploymentId : ℕ
  status : String
  deriving DecidableEq, Repr

structure HealthStatusUpdate where
  workerId : ℕ
  workerAddress : String
  replicaStates : List ReplicaState
  deriving DecidableEq, Repr

structure Resource where
  numCpus : ℕ
  numGpus : ℕ
  deriving DecidableEq, Repr

structure RegisterRequest where
  nodeId : ℕ
  nodeAddress : String
  port : String
  resource : Resource
  deriving DecidableEq, Repr

end ServingSystem.Protos
