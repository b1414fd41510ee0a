import ServingSystem.Dict
import ServingSystem.Protos
import ServingSystem.ReplicaKey
import ServingSystem.StateExcept

/-!
# The head's registry of replicas

`DeploymentManager`, `AutoScaleManager` and `NodeInfo` as one record of their
fields. An operation that raises keeps the changes it made before. A replica
record is an object of its own: `object` is its identity, and a change made
through one reference is seen through all. Lock acquisitions, the workers'
channels and stubs, and what is only logged are left out.
-/

set_option autoImplicit false

namespace ServingSystem.Head
open Protos (ReplicaContent RegisterRequest Resource RoutingUpdate DeploymentInfoMessage)

inductive PyErr where
  | keyError
  | attributeError
  deriving DecidableEq, Repr

inductive ReplicaStateName where
  | starting
  | running
  | draining
  | shutdown
  deriving DecidableEq, Repr

def ReplicaStateName.text : ReplicaStateName → String
  | .starting => "STARTING"
  | .running => "RUNNING"
  | .draining => "DRAINING"
  | .shutdown => "SHUTDOWN"

structure ReplicaInfo where
  object : ℕ
  replicaNum : String
  replicaAddress : String
  state : ReplicaStateName
  deriving DecidableEq, Repr

structure DeploymentHandle where
  deploymentName : String
  version : String
  numCpus : ℕ
  numGpus : ℕ
  replicas : List ReplicaInfo
  deriving DecidableEq, Repr

/-- `avgRequests` is kept as the bits of the float. -/
structure Replica where
  avgRequests : UInt32
  sentTimeStamp : ℕ
  numCpus : ℕ
  numGpus : ℕ
  deriving DecidableEq, Repr

structure UsedResources where
  numCpus : ℤ
  numGpus : ℤ
  deriving DecidableEq, Repr

structure Node where
  nodeId : ℕ
  nodeAddress : String
  resource : Resource
  usedResources : UsedResources
  deriving DecidableEq, Repr

structure Registry where
  deployments : Dict ℕ DeploymentHandle
  replicaMap : Dict String ReplicaInfo
  autoScaleMap : Dict String Replica
  nodeMap : Dict ℕ Node
  objects : ℕ

abbrev Py := EStateM PyErr Registry

def after {α : Type} (call : Py α) (g : Registry) : Registry := StateExcept.finalState (call g)

structure Same (g g' : Registry) : Prop where
  deployments : g'.deployments = g.deployments
  replicaMap : g'.replicaMap = g.replicaMap
  autoScaleMap : g'.autoScaleMap = g.autoScaleMap
  used : ∀ w, (g'.nodeMap.get w).map Node.usedResources = (g.nodeMap.get w).map Node.usedResources

theorem Same.refl (g : Registry) : Same g g := ⟨rfl, rfl, rfl, fun _ => rfl⟩

/-- The equality the dataclass generates: identity is not compared. -/
def ReplicaInfo.eq (a b : ReplicaInfo) : Bool :=
  a.replicaNum = b.replicaNum ∧ a.replicaAddress = b.replicaAddress ∧ a.state = b.state

namespace AutoScaleManager

def addReplica (workerId replicaNum numCpus numGpus : ℕ) : Py Unit :=
  modify (fun g => { g with
    autoScaleMap := g.autoScaleMap.set (replicaId workerId replicaNum) ⟨0, 0, numCpus, numGpus⟩ })

def removeReplica (workerId replicaNum : ℕ) : Py (ℕ × ℕ) := fun g =>
  match g.autoScaleMap.get (replicaId workerId replicaNum) with
  | none => .error .keyError g
  | some replica => .ok (replica.numCpus, replica.numGpus)
      { g with autoScaleMap := g.autoScaleMap.erase (replicaId workerId replicaNum) }

def loadMetrics (workerId replicaNum : ℕ) (avgRequests : UInt32) (sentTimeStamp : ℕ) : Py Unit :=
  modify (fun g => { g with
    autoScaleMap := g.autoScaleMap.modify (replicaId workerId replicaNum) (fun replica =>
      { replica with avgRequests := avgRequests, sentTimeStamp := sentTimeStamp }) })

end AutoScaleManager

namespace NodeInfo

def addNode (request : RegisterRequest) : Py Unit :=
  modify (fun g => { g with
    nodeMap := g.nodeMap.set request.nodeId
      ⟨request.nodeId, request.nodeAddress ++ ":" ++ request.port, request.resource, ⟨0, 0⟩⟩ })

def Node.use (numCpus numGpus : ℤ) (node : Node) : Node :=
  { node with
    usedResources := ⟨node.usedResources.numCpus+numCpus, node.usedResources.numGpus+numGpus⟩ }

def updateResources (nodeId numCpus numGpus : ℕ) (add : Bool) : Py Unit := fun g =>
  match g.nodeMap.get nodeId with
  | none => .error .keyError g
  | some _ => .ok () { g with
      nodeMap := g.nodeMap.modify nodeId
        (if add then Node.use numCpus numGpus else Node.use (-numCpus) (-numGpus)) }

end NodeInfo

namespace DeploymentManager

def addOrUpdateDeployment (deploymentId : ℕ) (name version : String) (numCpus numGpus : ℕ) :
    Py Unit :=
  modify (fun g => { g with
    deployments :=
      match g.deployments.get deploymentId with
      | none => g.deployments.set deploymentId ⟨name, version, numCpus, numGpus, []⟩
      | some _ => g.deployments.modify deploymentId (fun dep => { dep with
          deploymentName := name, version := version, numCpus := numCpus, numGpus := numGpus }) })

def ReplicaInfo.workerAddress (_ : ReplicaInfo) : Py String := throw .attributeError

/-- The loop of `remove_deployment`; its key is formatted from two strings. -/
def dropReplicas : List ReplicaInfo → Py Unit
  | [] => pure ()
  | r::replicas => do
    let workerAddress ← ReplicaInfo.workerAddress r
    modify (fun g => { g with
      replicaMap := g.replicaMap.erase (workerAddress ++ "#" ++ r.replicaNum) })
    dropReplicas replicas

def removeDeployment (deploymentId : ℕ) : Py Bool := do
  let dep := (← get).deployments.get deploymentId
  modify (fun g => { g with deployments := g.deployments.erase deploymentId })
  match dep with
  | some dep =>
    dropReplicas dep.replicas
    return true
  | none => return false

def newReplica (g : Registry) (workerId : ℕ) (workerAddress : String)
    (replica : ReplicaContent) : ReplicaInfo where
  object := g.objects
  replicaNum := replicaId workerId replica.replicaId
  replicaAddress := workerAddress ++ ":" ++ replica.port
  state := .running

def appendReplica (deploymentId workerId : ℕ) (workerAddress : String)
    (replica : ReplicaContent) : Py Unit :=
  modify (fun g => { g with
    deployments := g.deployments.modify deploymentId (fun dep =>
      { dep with replicas := dep.replicas ++ [newReplica g workerId workerAddress replica] })
    replicaMap := g.replicaMap.set (replicaId workerId replica.replicaId)
      (newReplica g workerId workerAddress replica)
    objects := g.objects+1 })

def addReplicas (deploymentId workerId numCpus numGpus : ℕ) (workerAddress : String) :
    List ReplicaContent → Py Unit
  | [] => pure ()
  | replica::replicas => do
    appendReplica deploymentId workerId workerAddress replica
    AutoScaleManager.addReplica workerId replica.replicaId numCpus numGpus
    addReplicas deploymentId workerId numCpus numGpus workerAddress replicas

def addReplicaToDeployment (deploymentId workerId : ℕ) (replicas : List ReplicaContent)
    (numCpus numGpus : ℕ) (workerAddress : String) : Py Bool := do
  match (← get).deployments.get deploymentId with
  | none => return false
  | some _ =>
    addReplicas deploymentId workerId numCpus numGpus workerAddress replicas
    NodeInfo.updateResources workerId numCpus numGpus true
    return true

def setState (object : ℕ) (state : ReplicaStateName) (replica : ReplicaInfo) : ReplicaInfo :=
  if replica.object = object then { replica with state := state } else replica

def moveReplicaState (replicaNum workerId : ℕ) (newState : ReplicaStateName) : Py Bool := do
  match (← get).replicaMap.get (replicaId workerId replicaNum) with
  | none => return false
  | some replica =>
    modify (fun g => { g with
      deployments := g.deployments.mapVal (fun _ dep =>
        { dep with replicas := dep.replicas.map (setState replica.object newState) })
      replicaMap := g.replicaMap.mapVal (fun _ r => setState replica.object newState r) })
    return true

def removeReplicaFromDeployment (deploymentId replicaNum workerId : ℕ) : Py Bool := do
  let replica := (← get).replicaMap.get (replicaId workerId replicaNum)
  modify (fun g => { g with replicaMap := g.replicaMap.erase (replicaId workerId replicaNum) })
  match replica, (← get).deployments.get deploymentId with
  | some replica, some dep =>
    if dep.replicas.any (fun r => r.eq replica) then
      modify (fun g => { g with
        deployments := g.deployments.modify deploymentId (fun dep =>
          { dep with replicas := dep.replicas.eraseP (fun r => r.eq replica) }) })
      let used ← AutoScaleManager.removeReplica workerId replicaNum
      NodeInfo.updateResources workerId used.1 used.2 false
      return true
    else return false
  | _, _ => return false

def routingReplica (r : ReplicaInfo) : Protos.ReplicaInfo :=
  ⟨r.replicaNum, r.replicaAddress, r.state.text⟩

def deploymentMessage (depId : ℕ) (dep : DeploymentHandle) : DeploymentInfoMessage :=
  ⟨depId, dep.deploymentName, dep.version, "ACTIVE", dep.replicas.map routingReplica⟩

def getCurrentRoutingTable (g : Registry) (timestampNs : ℕ) : RoutingUpdate :=
  ⟨g.deployments.mapVal deploymentMessage, timestampNs⟩

end DeploymentManager

end ServingSystem.Head
