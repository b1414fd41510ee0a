import ServingSystem.Coherence
import ServingSystem.WorkerRegistry

/-!
# Replica entries across worker restarts

The head and its workers: a worker registers whenever its process starts,
which sets its replica counter back to zero; `CreateReplica` numbers a
replica by that counter; the reply reaches the head any time later and is
added; a health report removes a replica from its own deployment. Of a worker
only the counter and the replies are modelled, which are those of its
scheduler. The ids whose removal has returned True and whose addition has not
returned True since are recorded and read by no step.
-/

set_option autoImplicit false

namespace ServingSystem.Head.ControlPlane
open Protos (ReplicaContent ReplicaCreationReply RegisterRequest RoutingUpdate)
open DeploymentManager

structure Worker where
  nodeAddress : String
  replicaNum : ℕ
  deriving DecidableEq, Repr

structure State where
  registry : Registry
  workers : Dict ℕ Worker
  replies : List (ℕ × ReplicaCreationReply)
  removed : List String

inductive Act where
  | register (request : RegisterRequest)
  | createReplica (workerId deploymentId : ℕ) (created : Bool)
  | reply (index : ℕ)
  | removeReplica (deploymentId replicaNum workerId : ℕ)

def createReplica (workerId : ℕ) (worker : Worker) (created : Bool) :
    Worker × ReplicaCreationReply :=
  let replicaId := worker.replicaNum+1
  ({ worker with replicaNum := replicaId },
    ⟨workerId, [⟨replicaId, toString (50100+replicaId)⟩], worker.nodeAddress, created⟩)

def worker (s : Scheduler.State) : Worker := ⟨s.nodeAddress, s.replicaNum⟩

/-- No step but `CreateReplica` moves the counter. -/
theorem step_worker {s t : Scheduler.State} (hi : Scheduler.Inv s) {a : Scheduler.Act}
    (hs : Scheduler.step s a = some t) : worker t = worker s ∨ ∃ name d launch,
      a = .createReplica name d launch ∧
      worker t = (createReplica s.workerId (worker s) launch.isSome).1 := by
  obtain ⟨-, ha, ⟨name, d, launch, rfl, hn⟩ | hn⟩ := WorkerRegistry.step_identity hi hs
  · exact Or.inr ⟨name, d, launch, rfl, by simp only [worker, createReplica, ha, hn]⟩
  · exact Or.inl (by simp only [worker, ha, hn])

example (w : ℕ) (addr : String) : worker (Scheduler.initial w addr) = ⟨addr, 0⟩ := rfl

/-- What a call of the scheduler has returned, in any later state, is the
reply of `createReplica`. -/
theorem scheduler_reply {s t u : Scheduler.State} (hi : Scheduler.Inv s) {name : String}
    {d : ℕ} {launch : Option ℕ} {as : List Scheduler.Act}
    (hs : Scheduler.step s (.createReplica name d launch) = some t)
    (hr : Runs.exec Scheduler.step as t = some u) :
    ∃ c, u.calls[s.calls.length]? = some c ∧ ∀ reply, c.progress = .returned reply →
      reply = (createReplica s.workerId (worker s) reply.created).2 := by
  have hit : Scheduler.Inv t := Scheduler.step_inv s _ t hi hs
  obtain ⟨hw, ha, -⟩ := WorkerRegistry.step_identity hi hs
  obtain ⟨hiu, hl⟩ := WorkerRegistry.run_later hit hr
  obtain ⟨c, hc, hid, hrefused⟩ := WorkerRegistry.create_call hi hs
  obtain ⟨c', hc', hid', hlater⟩ := hl.calls _ c hc
  refine ⟨c', hc', fun reply hp => ?_⟩
  cases hcr : reply.created with
  | true =>
    have hset := hiu.settled c' (List.mem_of_getElem? hc')
    rw [Scheduler.Settled, hp] at hset
    obtain ⟨he, -⟩ := hset hcr
    rw [he, Scheduler.State.created, Scheduler.State.reply, hl.workerId, hl.nodeAddress, hw, ha,
      hid', hid]
    rfl
  | false =>
    rw [hrefused reply (hlater reply hp hcr)]
    rfl

def addCreated (s : State) (deploymentId : ℕ) (response : ReplicaCreationReply) : State :=
  if response.created then
    match addReplicaToDeployment deploymentId response.workerId response.replicas 0 0
        response.workerAddress s.registry with
    | .ok true g => { s with
        registry := g
        removed := s.removed.filter (fun key =>
          key ∉ response.replicas.map (fun p => replicaId response.workerId p.replicaId)) }
    | .ok false g => { s with registry := g }
    | .error _ g => { s with registry := g }
  else s

def removeReplica (s : State) (d n w : ℕ) : State :=
  match removeReplicaFromDeployment d n w s.registry with
  | .ok true g => { s with registry := g, removed := s.removed ++ [replicaId w n] }
  | .ok false g => { s with registry := g }
  | .error _ g => { s with registry := g }

def step (s : State) : Act → Option State
  | .register request =>
    some { s with
      registry := after (NodeInfo.addNode request) s.registry
      workers := s.workers.set request.nodeId ⟨request.nodeAddress, 0⟩ }
  | .createReplica w d created =>
    (s.workers.get w).map (fun worker => { s with
      workers := s.workers.set w (createReplica w worker created).1
      replies := s.replies ++ [(d, (createReplica w worker created).2)] })
  | .reply k =>
    s.replies[k]?.map (fun r => addCreated { s with replies := s.replies.eraseIdx k } r.1 r.2)
  | .removeReplica d n w =>
    if NamesOwn s.registry d n w then some (removeReplica s d n w) else none

def initial (deployments : Dict ℕ DeploymentHandle) : State :=
  ⟨Registry.idle deployments, Dict.empty, [], []⟩

/-- Every list holds an id at most once, and a removed id is in no list and
in no routing table. -/
structure NoLeftovers (s : State) : Prop where
  once : ∀ d dep, s.registry.deployments.get d = some dep →
    (dep.replicas.map ReplicaInfo.replicaNum).Nodup
  unlisted : ∀ key ∈ s.removed, ∀ d dep, s.registry.deployments.get d = some dep →
    key ∉ dep.replicas.map ReplicaInfo.replicaNum
  unpublished : ∀ key ∈ s.removed, ∀ t d info,
    (getCurrentRoutingTable s.registry t).currentDeployments.get d = some info →
    key ∉ info.replicas.map Protos.ReplicaInfo.replicaId

def RepliesUnlisted (s : State) : Act → Prop
  | .reply k => ∀ d response, s.replies[k]? = some (d, response) → response.created →
      ∀ p ∈ response.replicas, ∀ d' r, HasReplica s.registry d' r →
        r.replicaNum ≠ replicaId response.workerId p.replicaId
  | _ => True

structure Inv (s : State) : Prop where
  coherent : Coherent s.registry
  single : ∀ r ∈ s.replies, ∃ p, r.2.replicas = [p]
  removed : ∀ key ∈ s.removed, key ∉ s.registry.replicaMap.keys
  workers : ∀ w ∈ s.workers.keys, w ∈ s.registry.nodeMap.keys
  senders : ∀ r ∈ s.replies, r.2.workerId ∈ s.registry.nodeMap.keys

theorem Inv.noLeftovers {s : State} (hi : Inv s) : NoLeftovers s := by
  have hun : ∀ key ∈ s.removed, ∀ d dep, s.registry.deployments.get d = some dep →
      key ∉ dep.replicas.map ReplicaInfo.replicaNum := by
    intro key hk d dep hd hm
    obtain ⟨r, hr, hn⟩ := List.mem_map.mp hm
    exact hi.removed key hk (hi.coherent.mem_keys.mpr ⟨d, r, ⟨dep, hd, hr⟩, hn⟩)
  refine ⟨hi.coherent.ids_nodup, hun, fun key hk t d info hd hm => ?_⟩
  rw [getCurrentRoutingTable, Dict.get_mapVal, Option.map_eq_some_iff] at hd
  obtain ⟨dep, hd, rfl⟩ := hd
  refine hun key hk d dep hd ?_
  simpa [deploymentMessage, routingReplica, List.map_map, Function.comp_def] using hm

theorem reply_inv {s : State} {k d : ℕ} {response : ReplicaCreationReply} (hi : Inv s)
    (hk : s.replies[k]? = some (d, response)) (hc : RepliesUnlisted s (.reply k)) :
    Inv (addCreated { s with replies := s.replies.eraseIdx k } d response) := by
  have hsingle : ∀ r ∈ s.replies.eraseIdx k, ∃ p, r.2.replicas = [p] :=
    fun r hr => hi.single r (List.mem_of_mem_eraseIdx hr)
  have hsenders : ∀ r ∈ s.replies.eraseIdx k, r.2.workerId ∈ s.registry.nodeMap.keys :=
    fun r hr => hi.senders r (List.mem_of_mem_eraseIdx hr)
  obtain ⟨p, hp : response.replicas = [p]⟩ := hi.single _ (List.mem_of_getElem? hk)
  obtain ⟨node, hw⟩ := Dict.mem_keys.mp (hi.senders _ (List.mem_of_getElem? hk))
  unfold addCreated
  split
  next hcr =>
    have hfresh : s.registry.replicaMap.get (replicaId response.workerId p.replicaId) = none := by
      rw [Dict.get_eq_none, hi.coherent.mem_keys]
      rintro ⟨d', r, hr, hn⟩
      exact hc d response hk hcr p (by simp [hp]) d' r hr hn
    obtain ⟨w, replicas, addr, created⟩ := response
    obtain rfl := hp
    dsimp only at hfresh hw ⊢
    cases hd : s.registry.deployments.get d with
    | none =>
      rw [add_missing hd]
      exact ⟨hi.coherent, hsingle, hi.removed, hi.workers, hsenders⟩
    | some dep =>
      -- The sender is a node, so the addition does not raise.
      rw [add_one hd, hw]
      refine ⟨coherent_charged (placed_coherent hi.coherent hd hfresh) _ _ _, hsingle,
        fun key hm => ?_, fun w' h => ?_, fun r h => ?_⟩
      · obtain ⟨hm, hne⟩ := List.mem_filter.mp hm
        simp only [List.map_cons, List.map_nil, List.mem_singleton, decide_eq_true_eq] at hne
        change key ∉ (s.registry.replicaMap.set _ _).keys
        rw [Dict.mem_keys_set]
        exact not_or.mpr ⟨hne, hi.removed key hm⟩
      · exact (Dict.keys_modify s.registry.nodeMap w _).symm ▸ hi.workers w' h
      · exact (Dict.keys_modify s.registry.nodeMap w _).symm ▸ hsenders r h
  next => exact ⟨hi.coherent, hsingle, hi.removed, hi.workers, hsenders⟩

theorem remove_inv {s : State} {d n w : ℕ} (hi : Inv s) (ho : NamesOwn s.registry d n w) :
    Inv (removeReplica s d n w) := by
  unfold removeReplica
  rcases remove_cases hi.coherent ho with ⟨-, h⟩ | ⟨r, rep, hnum, hr, -, h⟩
  · rw [h]
    exact hi
  · have hg : Coherent (s.registry.removed d (replicaId w n)) :=
      hnum ▸ removed_coherent hi.coherent hr
    have hkeys : ∀ key, key ∈ (s.registry.removed d (replicaId w n)).replicaMap.keys →
        key ≠ replicaId w n ∧ key ∈ s.registry.replicaMap.keys :=
      fun key hm => Dict.mem_keys_erase.mp hm
    rw [h]
    cases s.registry.nodeMap.get w with
    | none =>
      exact ⟨hg, hi.single, fun key hm hk => hi.removed key hm (hkeys key hk).2, hi.workers,
        hi.senders⟩
    | some node =>
      refine ⟨coherent_charged hg _ _ _, hi.single, fun key hm hk => ?_, fun w' h => ?_,
        fun r h => ?_⟩
      · rcases List.mem_append.mp hm with hm | hm
        · exact hi.removed key hm (hkeys key hk).2
        · exact (hkeys key hk).1 (List.mem_singleton.mp hm)
      · exact (Dict.keys_modify s.registry.nodeMap w _).symm ▸ hi.workers w' h
      · exact (Dict.keys_modify s.registry.nodeMap w _).symm ▸ hi.senders r h

theorem step_inv (s : State) (a : Act) (s' : State) (hi : Inv s) (hc : RepliesUnlisted s a)
    (hs : step s a = some s') : Inv s' := by
  cases a with
  | register request =>
    obtain rfl := Option.some.inj hs
    refine ⟨⟨hi.coherent.listed, hi.coherent.ids_nodup, hi.coherent.own, hi.coherent.scaled⟩,
      hi.single, hi.removed, fun w h => Dict.mem_keys_set.mpr ?_,
      fun r h => Dict.mem_keys_set.mpr (Or.inr (hi.senders r h))⟩
    exact (Dict.mem_keys_set.mp h).imp_right (hi.workers w)
  | createReplica w d created =>
    obtain ⟨worker, hw, rfl⟩ := Option.map_eq_some_iff.mp hs
    have hk := hi.workers w (Dict.mem_keys.mpr ⟨worker, hw⟩)
    refine ⟨hi.coherent, fun r hr => ?_, hi.removed, fun w' h => ?_, fun r hr => ?_⟩
    · rcases List.mem_append.mp hr with hr | hr
      · exact hi.single r hr
      · obtain rfl := List.mem_singleton.mp hr
        exact ⟨_, rfl⟩
    · rcases Dict.mem_keys_set.mp h with rfl | h
      · exact hk
      · exact hi.workers w' h
    · rcases List.mem_append.mp hr with hr | hr
      · exact hi.senders r hr
      · obtain rfl := List.mem_singleton.mp hr
        exact hk
  | reply k =>
    obtain ⟨⟨d, response⟩, hk, rfl⟩ := Option.map_eq_some_iff.mp hs
    exact reply_inv hi hk hc
  | removeReplica d n w =>
    obtain ⟨ho, rfl⟩ := Option.ite_some_none_eq_some.mp hs
    exact remove_inv hi ho

/-- In the runs that add an id only when no deployment lists it, no list
holds an id twice and no removed id stays behind. -/
theorem unlisted_replies_leave_nothing (deployments : Dict ℕ DeploymentHandle)
    (he : NoReplicas deployments) (as : List Act) (s : State)
    (hr : Runs.exec step as (initial deployments) = some s)
    (hc : Runs.Along step RepliesUnlisted as (initial deployments)) : NoLeftovers s := by
  have h0 : Inv (initial deployments) :=
    ⟨idle_coherent he, by simp [initial], by simp [initial], nofun, nofun⟩
  exact (Runs.exec_invariant_along step_inv h0 hc hr).noLeftovers

def addedRemoved : List Act :=
  [.register sampleNode, .createReplica 1 2 true, .reply 0, .removeReplica 2 1 1]

theorem unlisted_replies_leave_nothing_sample : ∃ s,
    Runs.exec step addedRemoved (initial sampleDeployments) = some s ∧ NoLeftovers s := by
  refine ⟨_, rfl, unlisted_replies_leave_nothing sampleDeployments sampleDeployments_noReplicas
    addedRemoved _ rfl ?_⟩
  refine (Runs.along_cons rfl).mpr ⟨trivial, (Runs.along_cons rfl).mpr ⟨trivial,
    (Runs.along_cons rfl).mpr ⟨?_, (Runs.along_cons rfl).mpr ⟨trivial, trivial⟩⟩⟩⟩
  rintro - - - - - - d r ⟨dep, hd, hr⟩
  rw [sampleDeployments_noReplicas d dep hd] at hr
  cases hr

def restarted : List Act :=
  [.register sampleNode, .createReplica 1 2 true, .reply 0,
    .register sampleNode, .createReplica 1 2 true, .reply 0]

/-- Two replicas have one id, and the removal that returns True drops one of
them. -/
theorem restart_leaves_entry : ∃ s s',
    Runs.exec step restarted (initial sampleDeployments) = some s ∧ ¬ NoLeftovers s ∧
    Runs.exec step (restarted ++ [.removeReplica 2 1 1]) (initial sampleDeployments) = some s' ∧
    "1#1" ∈ s'.removed ∧ ¬ NoLeftovers s' := by
  refine ⟨_, _, rfl, fun h => ?_, rfl, by decide, fun h => ?_⟩
  · exact absurd (h.once 2 _ rfl) (by decide)
  · exact h.unlisted "1#1" (by decide) 2 _ rfl (by decide)

end ServingSystem.Head.ControlPlane
