import ServingSystem.ReplicaSelection
import ServingSystem.Coherence
import ServingSystem.RoutingTable

/-!
# Replica states from the head to the selection

The head adds replicas and moves their states, the routing table carries the
states to the proxy, and the proxy's handles keep them. What the selection
makes of them is compared with the filter of the Python handle, which picks
among the replicas in state RUNNING only.
-/

set_option autoImplicit false

namespace ServingSystem.RunningFilter
open Head Head.DeploymentManager Proxy Proxy.DeploymentHandle Proxy.ReplicaSelection
open Protos (ReplicaContent DeploymentInfoMessage)

inductive Call where
  | addReplica (deploymentId workerId : ℕ) (replicas : List ReplicaContent)
      (numCpus numGpus : ℕ) (workerAddress : String)
  | moveReplicaState (replicaNum workerId : ℕ) (newState : ReplicaStateName)

def perform (g : Registry) : Call → Registry
  | .addReplica d w rs c u a => after (addReplicaToDeployment d w rs c u a) g
  | .moveReplicaState n w state => after (moveReplicaState n w state) g

def performed (g : Registry) (calls : List Call) : Registry := calls.foldl perform g

/-- In every run on the handle built from the message, only replicas
published as RUNNING are picked, and none when no such replica is eligible. -/
structure OnlyRunning (info : DeploymentInfoMessage) : Prop where
  picked : ∀ t₀ as s, Runs.exec step as (fresh (ofInfo info) t₀) = some s → ∀ t, s.clock ≤ t →
    ∀ c, (s.handle.pickNextReplica t).1 = some c →
      ∃ p, info.replicas[c.info]? = some p ∧ p.state = "RUNNING"
  refused : ∀ t₀ as s, Runs.exec step as (fresh (ofInfo info) t₀) = some s → ∀ t, s.clock ≤ t →
    (∀ r ∈ s.handle.replicas, r.state = "RUNNING" → ¬ Eligible t r) →
      (s.handle.pickNextReplica t).1 = none

def states (h : Proxy.DeploymentHandle) : List String := h.replicas.map Proxy.ReplicaInfo.state

theorem pick_states (h : Proxy.DeploymentHandle) (t : ℤ) :
    states (h.pickNextReplica t).2 = states h := by
  apply List.ext_getElem?
  intro j
  simp only [states, List.getElem?_map, pick_getElem?, Option.map_map, Function.comp_def]
  congr 1
  funext r
  split <;> simp [acquire]

theorem release_states (h : Proxy.DeploymentHandle) (i : ℕ) :
    states (h.releaseReplica i) = states h := by
  apply List.ext_getElem?
  intro j
  simp only [states, List.getElem?_map, release_getElem?, Option.map_map, Function.comp_def]
  congr 1
  funext r
  split <;> simp [release]

theorem step_states (l : List String) (s : State) (a : Act) (s' : State)
    (hl : states s.handle = l) (hs : step s a = some s') : states s'.handle = l := by
  cases a with
  | pick t =>
    obtain ⟨-, rfl⟩ := Option.ite_some_none_eq_some.mp hs
    exact (pick_states _ t).trans hl
  | mark id t =>
    obtain ⟨-, rfl⟩ := Option.ite_some_none_eq_some.mp hs
    exact (markLoop_map (fun _ => rfl) id _).trans hl
  | release i =>
    obtain rfl := Option.some.inj hs
    exact (release_states _ i).trans hl

theorem run_states {info : DeploymentInfoMessage} {t₀ : ℤ} {as : List Act} {s : State}
    (hr : Runs.exec step as (fresh (ofInfo info) t₀) = some s) :
    states s.handle = info.replicas.map Protos.ReplicaInfo.state := by
  refine Runs.exec_invariant (P := fun s => states s.handle = _)
    (step_states (info.replicas.map Protos.ReplicaInfo.state)) ?_ hr
  simp [states, fresh, Proxy.ReplicaInfo.ofProto]

theorem onlyRunning_of_all {info : DeploymentInfoMessage}
    (h : ∀ p ∈ info.replicas, p.state = "RUNNING") : OnlyRunning info where
  picked t₀ as s hr t ht c hc := by
    obtain ⟨r, hr', -⟩ := pick_eq_some hc
    have hs := congrArg (·[c.info]?) (run_states hr)
    simp only [states, List.getElem?_map, hr'.at_index, Option.map_some] at hs
    obtain ⟨p, hp, -⟩ := Option.map_eq_some_iff.mp hs.symm
    exact ⟨p, hp, h p (List.mem_of_getElem? hp)⟩
  refused t₀ as s hr t ht hn := by
    rw [pick_eq_none]
    intro r hm
    refine hn r hm ?_
    have hmem : r.state ∈ info.replicas.map Protos.ReplicaInfo.state := by
      rw [← run_states hr]
      exact List.mem_map_of_mem hm
    obtain ⟨p, hp, hps⟩ := List.mem_map.mp hmem
    exact hps.symm.trans (h p hp)

def pickedFirst (info : DeploymentInfoMessage) (i : ℕ) (h : Proxy.DeploymentHandle) : Prop :=
  ∀ j, h.replicas[j]? = info.replicas[j]?.map (fun p =>
    { Proxy.ReplicaInfo.ofProto p with activeRequests := if j < i then 1 else 0 })

theorem pickedFirst_chosen {info : DeploymentInfoMessage} {i : ℕ} {h : Proxy.DeploymentHandle}
    (hp : pickedFirst info i h) {p : Protos.ReplicaInfo} (hi : info.replicas[i]? = some p)
    (t : ℤ) : h.Chosen t i { Proxy.ReplicaInfo.ofProto p with activeRequests := 0 } where
  at_index := by simp [hp i, hi]
  passes := (eligible_iff t _).mpr (Or.inl rfl)
  least j b hj _ := by
    rw [hp j] at hj
    obtain ⟨q, -, rfl⟩ := Option.map_eq_some_iff.mp hj
    simp only
    split <;> decide
  first j b hj _ hlt := by
    rw [hp j] at hj
    obtain ⟨q, -, rfl⟩ := Option.map_eq_some_iff.mp hj
    simp [hlt]

theorem pickedFirst_pick {info : DeploymentInfoMessage} {i : ℕ} {h : Proxy.DeploymentHandle}
    (hp : pickedFirst info i h) {p : Protos.ReplicaInfo} (hi : info.replicas[i]? = some p)
    (t : ℤ) : pickedFirst info (i+1) (h.pickNextReplica t).2 := by
  intro j
  rw [pick_getElem?, pick_of_chosen (pickedFirst_chosen hp hi t), hp j, Option.map_map]
  congr 1
  funext q
  rcases lt_trichotomy j i with hj | rfl | hj
  · simp [hj, hj.ne', Nat.lt_succ_of_lt hj, recover, Proxy.ReplicaInfo.ofProto]
  · simp [recover, acquire, Proxy.ReplicaInfo.ofProto]
  · simp [hj.not_gt, hj.ne, Nat.not_lt.mpr hj, recover, Proxy.ReplicaInfo.ofProto]

/-- Picking repeatedly from a fresh handle goes through the list in order. -/
theorem picks_in_order (info : DeploymentInfoMessage) (t₀ : ℤ) {i : ℕ}
    (hi : i ≤ info.replicas.length) : ∃ s,
    Runs.exec step (List.replicate i (.pick t₀)) (fresh (ofInfo info) t₀) = some s ∧
      s.clock = t₀ ∧ pickedFirst info i s.handle := by
  induction i with
  | zero =>
    refine ⟨_, rfl, rfl, fun j => ?_⟩
    simp only [fresh, ofInfo_replicas, List.getElem?_map]
    rfl
  | succ i ih =>
    obtain ⟨s, hs, hc, hp⟩ := ih (Nat.le_of_succ_le hi)
    refine ⟨⟨(s.handle.pickNextReplica t₀).2, s.history ++ [.picked t₀
      ((s.handle.pickNextReplica t₀).1.map ReplicaConnection.info)], t₀⟩, ?_, rfl,
      pickedFirst_pick hp (List.getElem?_eq_getElem hi) t₀⟩
    rw [List.replicate_succ', Runs.exec_snoc]
    exact ⟨s, hs, if_pos hc.le⟩

/-- A replica in another state is reached by that many picks. -/
theorem all_of_onlyRunning {info : DeploymentInfoMessage} (h : OnlyRunning info) :
    ∀ p ∈ info.replicas, p.state = "RUNNING" := by
  intro p hm
  obtain ⟨i, hi⟩ := List.getElem?_of_mem hm
  have hlt := (List.getElem?_eq_some_iff.mp hi).1
  obtain ⟨s, hs, hc, hp⟩ := picks_in_order info 0 hlt.le
  obtain ⟨c, hpick, hci⟩ := Option.map_eq_some_iff.mp
    (pick_of_chosen (pickedFirst_chosen hp hi 0))
  obtain ⟨q, hq, hrun⟩ := h.picked 0 _ s hs 0 hc.le c hpick
  rw [hci, hi] at hq
  exact (Option.some.inj hq) ▸ hrun

theorem text_running {state : ReplicaStateName} : state.text = "RUNNING" ↔ state = .running := by
  cases state <;> decide

theorem onlyRunning_message (d : ℕ) (dep : Head.DeploymentHandle) :
    OnlyRunning (deploymentMessage d dep) ↔ ∀ r ∈ dep.replicas, r.state = .running := by
  constructor
  · intro h r hr
    exact text_running.mp (all_of_onlyRunning h _ (List.mem_map_of_mem hr))
  · intro h
    refine onlyRunning_of_all (fun p hp => ?_)
    obtain ⟨r, hr, rfl⟩ := List.mem_map.mp hp
    exact text_running.mpr (h r hr)

/-- After any calls on the head, in whatever order the proxy visits the
table's entries, the handle it keeps for a name serves RUNNING replicas only
exactly when the deployment listed last under that name has no others. -/
theorem only_running_iff (g : Registry) (calls : List Call) (timestampNs : ℕ)
    (entries : List (ℕ × DeploymentInfoMessage))
    (hp : entries.Perm
      (getCurrentRoutingTable (performed g calls) timestampNs).currentDeployments.entries)
    (heap : Heap) (name : String) (h : ℕ)
    (hh : (applyRoutingUpdate heap entries).2.get name = some h) :
    ∃ d dep, (performed g calls).deployments.get d = some dep ∧ dep.deploymentName = name ∧
      (applyRoutingUpdate heap entries).1[h]? = some (ofInfo (deploymentMessage d dep)) ∧
      (OnlyRunning (deploymentMessage d dep) ↔ ∀ r ∈ dep.replicas, r.state = .running) := by
  obtain ⟨j, info, ⟨⟨id, hj⟩, hname, -⟩, rfl⟩ := (applyRoutingUpdate_get heap entries name h).mp hh
  have hmem := hp.mem_iff.mp (List.mem_of_getElem? hj)
  rw [← Dict.get_eq_some, getCurrentRoutingTable, Dict.get_mapVal, Option.map_eq_some_iff] at hmem
  obtain ⟨dep, hd, rfl⟩ := hmem
  refine ⟨id, dep, hd, hname, ?_, onlyRunning_message id dep⟩
  simp [applyRoutingUpdate_heap, List.getElem?_append_right, hj]

def drained : List Call :=
  [.addReplica 2 1 [⟨1, "50101"⟩] 0 0 "10.0.0.1", .moveReplicaState 1 1 .draining]

def drainedEntries : List (ℕ × DeploymentInfoMessage) :=
  (getCurrentRoutingTable
    (performed (Registry.idle sampleDeployments) drained) 0).currentDeployments.entries

theorem only_running_iff_sample : ∃ d dep,
    (performed (Registry.idle sampleDeployments) drained).deployments.get d = some dep ∧
    dep.deploymentName = "/v1/chat/tinyllama" ∧
    (applyRoutingUpdate [] drainedEntries).1[0]? = some (ofInfo (deploymentMessage d dep)) ∧
    (OnlyRunning (deploymentMessage d dep) ↔ ∀ r ∈ dep.replicas, r.state = .running) :=
  only_running_iff (Registry.idle sampleDeployments) drained 0 drainedEntries (List.Perm.refl _) []
    "/v1/chat/tinyllama" 0 (by decide)

/-- The first pick on the applied table returns the draining replica. -/
theorem draining_replica_picked : ∃ handle c r,
    (applyRoutingUpdate [] drainedEntries).2.get "/v1/chat/tinyllama" = some 0 ∧
    (applyRoutingUpdate [] drainedEntries).1[0]? = some handle ∧
    (handle.pickNextReplica 0).1 = some c ∧ handle.replicas[c.info]? = some r ∧
    r.state = "DRAINING" :=
  ⟨_, _, _, by decide, rfl, rfl, rfl, by decide⟩

end ServingSystem.RunningFilter
