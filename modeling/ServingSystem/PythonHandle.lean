import ServingSystem.LeastScan
import ServingSystem.Protos

/-!
# The Python deployment handle

`DeploymentHandle` of the Python proxy: the replicas of one deployment, a
cache of request counts by replica id, the choice of the next replica, and
the guards and the cleanup of a streaming attempt.
-/

set_option autoImplicit false

namespace ServingSystem.PythonProxy

structure ReplicaInfo where
  replicaId : String
  replicaAddress : String
  state : String
  deriving DecidableEq, Repr

structure DeploymentHandle where
  deploymentId : ℕ
  deploymentName : String
  version : String
  replicaCache : Dict String ℤ
  replicas : List ReplicaInfo

namespace DeploymentHandle

def cacheReplica (cache : Dict String ℤ) (replica : Protos.ReplicaInfo) : Dict String ℤ :=
  let cache := if replica.state = "RUNNING" ∧ replica.replicaId ∉ cache.keys then
    cache.set replica.replicaId 0 else cache
  if replica.state = "SHUTDOWN" ∧ replica.replicaId ∈ cache.keys then
    cache.erase replica.replicaId else cache

def initializeReplicasAndCache : List Protos.ReplicaInfo → Dict String ℤ →
    List ReplicaInfo × Dict String ℤ
  | [], cache => ([], cache)
  | replica::rest, cache =>
    let out := initializeReplicasAndCache rest (cacheReplica cache replica)
    (⟨replica.replicaId, replica.address, replica.state⟩::out.1, out.2)

def ofInfo (deploymentId : ℕ) (info : Protos.DeploymentInfoMessage) : DeploymentHandle where
  deploymentId := deploymentId
  deploymentName := info.deploymentName
  version := info.version
  replicaCache := (initializeReplicasAndCache info.replicas Dict.empty).2
  replicas := (initializeReplicasAndCache info.replicas Dict.empty).1

/-- The parts of a replica id before and after its first `#`; the code raises
when there is none. -/
def parseReplicaId (fullReplicaId : String) : Option (String × String) :=
  match fullReplicaId.toList.dropWhile (fun c => c ≠ '#') with
  | [] => none
  | _::rest => some (String.ofList (fullReplicaId.toList.takeWhile (fun c => c ≠ '#')),
      String.ofList rest)

def count (h : DeploymentHandle) (replicaId : String) : ℤ := (h.replicaCache.get replicaId).getD 0

/-- The address and the id of the replica chosen; `min` raises when no
replica is running. -/
def pickNextReplica (h : DeploymentHandle) : Option (String × String) × DeploymentHandle :=
  let runningReplicas := h.replicas.filter (fun r => r.state = "RUNNING")
  match LeastScan.firstMin (fun r => h.count r.replicaId) runningReplicas with
  | none => (none, h)
  | some selected =>
    (some (selected.replicaAddress, selected.replicaId),
      { h with replicaCache :=
          h.replicaCache.set selected.replicaId (h.count selected.replicaId+1) })

inductive Attempt where
  | raises
  | aborts
  | streams
  deriving DecidableEq, Repr

def attempt (h : DeploymentHandle) (address fullReplicaId : String) : Attempt :=
  if fullReplicaId = "" ∨ address = "" then .raises
  else
    match parseReplicaId fullReplicaId with
    | none => .raises
    | some _ => if fullReplicaId ∈ h.replicaCache.keys then .streams else .aborts

def decrement (h : DeploymentHandle) (fullReplicaId : String) : DeploymentHandle :=
  { h with replicaCache := h.replicaCache.modify fullReplicaId (fun n => n-1) }

def clamp (h : DeploymentHandle) (fullReplicaId : String) : DeploymentHandle :=
  if h.count fullReplicaId < 0 then
    { h with replicaCache := h.replicaCache.set fullReplicaId 0 }
  else h

def finish (h : DeploymentHandle) (fullReplicaId : String) : DeploymentHandle :=
  if fullReplicaId ∈ h.replicaCache.keys then (h.decrement fullReplicaId).clamp fullReplicaId
  else h

theorem initialize_replicas (l : List Protos.ReplicaInfo) (cache : Dict String ℤ) :
    (initializeReplicasAndCache l cache).1 =
      l.map (fun r => ⟨r.replicaId, r.address, r.state⟩) := by
  induction l generalizing cache with
  | nil => rfl
  | cons r l ih => simp only [initializeReplicasAndCache, List.map_cons, ih]

theorem cacheReplica_get {r : Protos.ReplicaInfo} (hr : r.state = "RUNNING")
    (cache : Dict String ℤ) (id : String) :
    (cacheReplica cache r).get id =
      if id = r.replicaId then some ((cache.get id).getD 0) else cache.get id := by
  simp only [cacheReplica, hr, true_and]
  by_cases hk : r.replicaId ∈ cache.keys
  · obtain ⟨n, hn⟩ := Dict.mem_keys.mp hk
    by_cases h : id = r.replicaId <;> simp [hk, h, hn]
  · have hn := Dict.get_eq_none.mpr hk
    by_cases h : id = r.replicaId <;> simp [hk, h, hn]

theorem initialize_get {l : List Protos.ReplicaInfo} (hr : ∀ r ∈ l, r.state = "RUNNING")
    {cache : Dict String ℤ} {id : String}
    (h : cache.get id = some 0 ∨ cache.get id = none ∧ id ∈ l.map Protos.ReplicaInfo.replicaId) :
    (initializeReplicasAndCache l cache).2.get id = some 0 := by
  induction l generalizing cache with
  | nil =>
    show cache.get id = some 0
    simpa using h
  | cons r l ih =>
    apply ih (fun q hq => hr q (List.mem_cons_of_mem r hq))
    rw [cacheReplica_get (hr r List.mem_cons_self)]
    by_cases he : id = r.replicaId
    · rw [if_pos he]
      rcases h with h | ⟨h, -⟩ <;> simp [h]
    · rw [if_neg he]
      rcases h with h | ⟨h, hm⟩
      · exact Or.inl h
      · exact Or.inr ⟨h, by simpa [he] using hm⟩

@[simp] theorem ofInfo_replicas (deploymentId : ℕ) (info : Protos.DeploymentInfoMessage) :
    (ofInfo deploymentId info).replicas =
      info.replicas.map (fun r => ⟨r.replicaId, r.address, r.state⟩) :=
  initialize_replicas info.replicas Dict.empty

theorem ofInfo_get {info : Protos.DeploymentInfoMessage}
    (hr : ∀ r ∈ info.replicas, r.state = "RUNNING") (deploymentId : ℕ) {r : Protos.ReplicaInfo}
    (hm : r ∈ info.replicas) :
    (ofInfo deploymentId info).replicaCache.get r.replicaId = some 0 :=
  initialize_get hr (Or.inr ⟨rfl, List.mem_map_of_mem hm⟩)

theorem filter_running {h : DeploymentHandle} (hr : ∀ r ∈ h.replicas, r.state = "RUNNING") :
    h.replicas.filter (fun r => r.state = "RUNNING") = h.replicas :=
  List.filter_eq_self.mpr (fun r hm => by simpa using hr r hm)

theorem pick_empty {h : DeploymentHandle} (he : h.replicas = []) :
    h.pickNextReplica = (none, h) := by
  simp only [pickNextReplica, he, List.filter_nil, LeastScan.firstMin_nil]

/-- The pick takes the first running replica with the least count. -/
theorem pick_of_firstLeast {h : DeploymentHandle} (hr : ∀ r ∈ h.replicas, r.state = "RUNNING")
    (hn : (h.replicas.map ReplicaInfo.replicaId).Nodup) {i : ℕ} {p : ReplicaInfo}
    (hp : LeastScan.FirstLeast (fun _ => True) (fun r => h.count r.replicaId) h.replicas i p) :
    h.pickNextReplica = (some (p.replicaAddress, p.replicaId),
      { h with replicaCache := h.replicaCache.set p.replicaId (h.count p.replicaId+1) }) := by
  simp only [pickNextReplica, filter_running hr, hp.firstMin_eq (List.Nodup.of_map _ hn)]

theorem count_of_get {h : DeploymentHandle} {id : String} {n : ℤ}
    (hg : h.replicaCache.get id = some n) : h.count id = n := by
  rw [count, hg, Option.getD_some]

theorem attempt_aborts {h : DeploymentHandle} {address id : String}
    (ha : h.attempt address id = .aborts) : h.replicaCache.get id = none := by
  unfold attempt at ha
  split at ha
  · cases ha
  split at ha
  · cases ha
  split at ha
  · cases ha
  next hk => exact Dict.get_eq_none.mpr hk

theorem finish_of_get {h : DeploymentHandle} {id : String} {n : ℤ}
    (hg : h.replicaCache.get id = some n) : h.finish id = (h.decrement id).clamp id :=
  if_pos (Dict.mem_keys.mpr ⟨n, hg⟩)

theorem clamp_decrement {h : DeploymentHandle} {id : String} {n : ℤ}
    (hg : h.replicaCache.get id = some n) (hn : 1 ≤ n) :
    (h.decrement id).clamp id = h.decrement id := by
  have hd : (h.decrement id).replicaCache.get id = some (n-1) := by
    show (h.replicaCache.modify id (fun n => n-1)).get id = _
    rw [Dict.get_modify_self, hg, Option.map_some]
  rw [clamp, count_of_get hd, if_neg (by omega)]

end DeploymentHandle
end ServingSystem.PythonProxy
