import ServingSystem.ClusterInvariant

/-!
# What a cluster routes to

In every state of a run of the head with its workers: a replica in a snapshot
that the head publishes or a stream holds is registered at its worker and was
started for the deployment it is listed under; what is listed stays listed;
and only one deployment has replicas.
-/

set_option autoImplicit false

namespace ServingSystem.Cluster
open Protos (RoutingUpdate DeploymentInfoMessage)
open Head DeploymentManager HeadController WorkerRegistry Positions

/-- The worker has registered the id, and started it for this deployment only. -/
structure Serves (w : Scheduler.State) (id d : ℕ) (name : String) : Prop where
  registered : ∃ r, w.replicaRegistry.get id = some r ∧ r.deploymentId = d ∧
    r.port = Scheduler.replicaPort id
  launched : ∃ p ∈ w.processes, p.replicaId = id
  only : ∀ p ∈ w.processes, p.replicaId = id →
    p.port = Scheduler.replicaPort id ∧ p.deploymentName = name ∧ p.deploymentId = d

/-- The address and the id of a routed replica are those of one that a worker
serves. -/
def ServedReplica (workers : List Scheduler.State) (d : ℕ) (name key address : String) : Prop :=
  ∃ w ∈ workers, ∃ id, key = replicaId w.workerId id ∧
    address = w.nodeAddress ++ ":" ++ Scheduler.replicaPort id ∧ Serves w id d name

structure Routed (deployments : Dict ℕ DeploymentHandle) (s : State) : Prop where
  table : LiveTable deployments s.head
  served : ∀ p ∈ RoutingFeed.snapshots s.head.feed, ∀ d info,
    p.currentDeployments.get d = some info → ∀ r ∈ info.replicas,
      ServedReplica s.workers d info.deploymentName r.replicaId r.address

def routes (info : DeploymentInfoMessage) : List (String × String) :=
  info.replicas.map (fun r => (r.replicaId, r.address))

structure Grows (s t : State) : Prop where
  registry : ∀ d dep, s.head.registry.deployments.get d = some dep →
    ∃ dep', t.head.registry.deployments.get d = some dep' ∧
      dep'.deploymentName = dep.deploymentName ∧ (listing dep).2 <+: (listing dep').2
  snapshots : ∀ p ∈ RoutingFeed.snapshots s.head.feed, ∀ q,
    t.head.feed.published.getLast? = some q ∨ t.head.feed.latestRoutingSnapshot = some q →
      ∀ d info, p.currentDeployments.get d = some info →
        ∃ info', q.currentDeployments.get d = some info' ∧
          info'.deploymentName = info.deploymentName ∧ routes info <+: routes info'

section
variable {deployments : Dict ℕ DeploymentHandle} {nodes : List (ℕ × String)} {s s' : State}

theorem Hosted.serves {d : ℕ} {name key address : String}
    (h : Hosted s.workers d name key address)
    (hw : ∀ w ∈ s.workers, Scheduler.Inv w ∧ Origin w) :
    ServedReplica s.workers d name key address := by
  obtain ⟨w, hm, id, hid, hkey, haddr, hcmd⟩ := h
  obtain ⟨-, horigin⟩ := hw w hm
  have honly : ∀ p ∈ w.processes, p.replicaId = id →
      p.port = Scheduler.replicaPort id ∧ p.deploymentName = name ∧ p.deploymentId = d := by
    intro p hp hpid
    have hl := hcmd (CommandLine.started p) (List.mem_map_of_mem hp) hpid
    obtain ⟨-, hport, hname, hd⟩ := CommandLine.Launch.mk.inj hl
    exact ⟨hport, hname, toString_inj hd⟩
  obtain ⟨r, hr⟩ := Dict.mem_keys.mp hid
  obtain ⟨p, hp, hpid, hport, hd⟩ := horigin.registered id r hr
  obtain ⟨hport', -, hd'⟩ := honly p hp hpid
  exact ⟨w, hm, id, hkey, haddr, ⟨r, hr, hd.trans hd', hport.trans hport'⟩, ⟨p, hp, hpid⟩, honly⟩

theorem Inv.added (hi : Inv deployments nodes s) {h : List Event} (hp : h <+: s.head.history) :
    ∀ e ∈ h, ∃ key address, e = .added 2 key address := by
  intro e he
  obtain ⟨d, -, key, address, rfl, rfl, -⟩ := hi.history e (hp.subset he)
  exact ⟨key, address, rfl⟩

/-- Where nothing was removed, the live replicas are the added ones. -/
theorem live_additions {h : List Event} (hall : ∀ e ∈ h, ∃ key address, e = .added 2 key address)
    (d : ℕ) : live h d = h.filterMap (additionsTo d) := by
  have hdead : ∀ key, .dead key ∉ h := by
    intro key hm
    obtain ⟨_, _, he⟩ := hall _ hm
    cases he
  rw [live_eq_filter d [] h (fun pre d' key a post he hm =>
    hdead key (he ▸ List.mem_append_left _ hm)), List.nil_append]
  exact List.filter_eq_self.mpr (fun r _ => decide_eq_true (hdead r.1))

theorem Inv.live_prefix (hi : Inv deployments nodes s) {h h' : List Event} (hh : h <+: h')
    (hp : h' <+: s.head.history) (d : ℕ) : live h d <+: live h' d := by
  rw [live_additions (hi.added (hh.trans hp)), live_additions (hi.added hp)]
  exact hh.filterMap _

theorem mem_live {h : List Event} {d : ℕ} {key address : String}
    (hm : (key, address) ∈ live h d) : .added d key address ∈ h := by
  induction h with
  | nil => cases hm
  | cons e h ih =>
    cases e with
    | added d' k a =>
      simp only [live] at hm
      split at hm
      next hc =>
        obtain ⟨rfl, -⟩ := hc
        rcases List.mem_cons.mp hm with he | hm
        · obtain ⟨rfl, rfl⟩ := Prod.mk.inj he
          exact List.mem_cons_self ..
        · exact List.mem_cons_of_mem _ (ih hm)
      next => exact List.mem_cons_of_mem _ (ih hm)
    | dead k => exact List.mem_cons_of_mem _ (ih hm)

theorem Exact.info {h : List Event} {p : RoutingUpdate} (he : Exact deployments h p) {d : ℕ}
    {info : DeploymentInfoMessage} (hd : p.currentDeployments.get d = some info) :
    ∃ dep, deployments.get d = some dep ∧ dep.deploymentName = info.deploymentName ∧
      routes info = live h d := by
  obtain ⟨dep, hdep, hname, hlive⟩ := he.of_entry (Dict.get_eq_some.mp hd)
  exact ⟨dep, hdep, hname, hlive⟩

theorem Inv.routed (hi : Inv deployments nodes s) : Routed deployments s := by
  refine ⟨hi.head.liveTable, fun p hp d info hd r hr => ?_⟩
  obtain ⟨h, hpre, hex⟩ := hi.listed p hp
  obtain ⟨dep, hdep, hname, hroutes⟩ := Exact.info hex hd
  have hm : (r.replicaId, r.address) ∈ live h d :=
    hroutes ▸ List.mem_map_of_mem (f := fun r => (r.replicaId, r.address)) hr
  obtain ⟨d', dep', key, address, heq, -, hdep', hh⟩ := hi.history _ (hpre.subset (mem_live hm))
  obtain ⟨rfl, rfl, rfl⟩ := Event.added.inj heq
  obtain rfl := Option.some.inj (hdep.symm.trans hdep')
  exact hname ▸ hh.serves hi.worker

theorem step_history (hi : Inv deployments nodes s) {a : Act} (hs : step s a = some s') :
    s.head.history <+: s'.head.history := by
  cases a with
  | register j resource =>
    obtain ⟨w, -, rfl⟩ := Option.map_eq_some_iff.mp hs
    exact List.prefix_rfl
  | attempt task =>
    obtain ⟨_, _, _, _, _, -, -, -, rfl⟩ := attempt_step hs
    exact List.prefix_rfl
  | arrive n j launch =>
    obtain ⟨_, _, _, -, -, -, -, -, rfl⟩ := arrive_step hs
    exact List.prefix_rfl
  | answer n t =>
    obtain ⟨a, j, i, w, c, response, h, ha, hh, hw, hc, hp, hstep, rfl⟩ := answer_step hs
    have hmem := List.mem_of_getElem? ha
    by_cases hcr : response.created
    · obtain ⟨_, _, -, -, he⟩ := created_answer hi hmem hh hw hc hp hcr hstep
      exact he ▸ List.prefix_append _ _
    · obtain rfl := refused_answer hi hmem hcr hstep
      exact List.prefix_rfl
  | giveUp task =>
    obtain ⟨-, hs⟩ := Option.ite_none_right_eq_some.mp hs
    obtain ⟨h, hstep, rfl⟩ := Option.map_eq_some_iff.mp hs
    exact (failed_quiet hstep).history ▸ List.prefix_rfl
  | report j =>
    obtain ⟨w, -, rfl⟩ := Option.map_eq_some_iff.mp hs
    exact List.prefix_rfl
  | deliver i t =>
    obtain rfl := hi.delivered hs
    exact List.prefix_rfl
  | worker j a =>
    obtain ⟨-, hs⟩ := Option.ite_none_left_eq_some.mp hs
    obtain ⟨w, -, hs⟩ := Option.bind_eq_some_iff.mp hs
    obtain ⟨w', -, rfl⟩ := Option.map_eq_some_iff.mp hs
    exact List.prefix_rfl
  | head a =>
    obtain ⟨hint, hs⟩ := Option.ite_none_right_eq_some.mp hs
    obtain ⟨h, hstep, rfl⟩ := Option.map_eq_some_iff.mp hs
    exact (internal_quiet hint hstep).history ▸ List.prefix_rfl

theorem run_history (hn : (nodes.map Prod.fst).Nodup) (ha : (nodes.map Prod.snd).Nodup)
    (hi : Inv deployments nodes s) {as : List Act} (hr : Runs.exec step as s = some s') :
    Inv deployments nodes s' ∧ s.head.history <+: s'.head.history := by
  refine Runs.exec_invariant (P := fun t => Inv deployments nodes t ∧
    s.head.history <+: t.head.history) (fun t a t' ht hs => ?_) ⟨hi, List.prefix_rfl⟩ hr
  exact ⟨step_inv hn ha t a t' ht.1 hs, ht.2.trans (step_history ht.1 hs)⟩

end

/-- Every replica in a snapshot that the head publishes or a stream of it
holds is registered at its worker under the address given, and every process
the worker started under its id was started for that deployment. -/
theorem routes_to_served (deployments : Dict ℕ DeploymentHandle) (he : NoReplicas deployments)
    (nodes : List (ℕ × String)) (hn : (nodes.map Prod.fst).Nodup)
    (ha : (nodes.map Prod.snd).Nodup) (as : List Act) (s : State)
    (hr : Runs.exec step as (initial deployments nodes) = some s) : Routed deployments s :=
  (reachable_inv he hn ha hr).routed

def twoNodes : List (ℕ × String) := [(1, "10.0.0.1"), (2, "10.0.0.2")]

def lostAttempt : List Act :=
  [.register 0 ⟨8, 1⟩, .register 1 ⟨8, 1⟩, .head (.subscribe 1), .head .takeQueued,
    .head .spawnCreation, .head .takeQueued, .head .spawnCreation, .head (.request 0),
    .head (.request 1), .attempt 0, .attempt 1, .attempt 0, .arrive 2 0 (some 7001),
    .arrive 1 1 (some 7001), .worker 0 (.registerReplica 0), .worker 0 (.resume 0), .answer 2 2,
    .worker 1 (.registerReplica 0), .report 0, .deliver 0 3, .worker 0 (.exit 0)]

theorem lostAttempt_runs : ∃ s, Runs.exec step lostAttempt (initial ownDeployments twoNodes) =
    some s ∧ ∃ p, s.head.feed.published = [p] := by
  have h : (Runs.exec step lostAttempt (initial ownDeployments twoNodes)).map
      (fun s => s.head.feed.published.length) = some 1 := by decide +kernel
  obtain ⟨s, hs, hl⟩ := Option.map_eq_some_iff.mp h
  exact ⟨s, hs, List.length_eq_one_iff.mp hl⟩

theorem routes_to_served_sample : ∃ s,
    Runs.exec step lostAttempt (initial ownDeployments twoNodes) = some s ∧
    Routed ownDeployments s := by
  obtain ⟨s, hs, -⟩ := lostAttempt_runs
  exact ⟨s, hs, routes_to_served ownDeployments ownDeployments_noReplicas twoNodes
    (by decide) (by decide) lostAttempt s hs⟩

/-- What is listed stays listed, in the same order: no report, no failed
attempt and no process that exits takes a replica out. -/
theorem listings_only_grow (deployments : Dict ℕ DeploymentHandle) (he : NoReplicas deployments)
    (nodes : List (ℕ × String)) (hn : (nodes.map Prod.fst).Nodup)
    (ha : (nodes.map Prod.snd).Nodup) (as bs : List Act) (s t : State)
    (hs : Runs.exec step as (initial deployments nodes) = some s)
    (ht : Runs.exec step bs s = some t) : Grows s t := by
  have hi := reachable_inv he hn ha hs
  obtain ⟨hit, hpre⟩ := run_history hn ha hi ht
  refine ⟨fun d dep hd => ?_, fun p hp q hq d info hd => ?_⟩
  · have hls := hi.head.tracks.lists d
    have hlt := hit.head.tracks.lists d
    rw [hd] at hls
    obtain ⟨dep₀, hd₀, he₀⟩ := Option.map_eq_some_iff.mp hls.symm
    rw [hd₀] at hlt
    obtain ⟨dep', hd', he'⟩ := Option.map_eq_some_iff.mp hlt
    obtain ⟨hname, hlive⟩ := Prod.mk.inj he₀
    obtain ⟨hname', hlive'⟩ := Prod.mk.inj he'
    refine ⟨dep', hd', hname'.trans hname, ?_⟩
    change dep'.replicas.map _ = _ at hlive'
    change dep.replicas.map _ <+: dep'.replicas.map _
    rw [hlive', ← hlive]
    exact hit.live_prefix hpre List.prefix_rfl d
  · obtain ⟨h, hh, hex⟩ := hi.listed p hp
    obtain ⟨dep, hdep, hname, hroutes⟩ := Exact.info hex hd
    have hexq := hit.head.exact q hq
    obtain ⟨info', hmem, hname'⟩ := hexq.entry hdep
    have hd' := Dict.get_eq_some.mpr hmem
    obtain ⟨dep', hdep', -, hroutes'⟩ := Exact.info hexq hd'
    refine ⟨info', hd', hname'.trans hname, ?_⟩
    rw [hroutes, hroutes']
    exact hit.live_prefix (hh.trans hpre) List.prefix_rfl d

def exitsAndReports : List Act :=
  [.worker 0 (.exit 0), .report 0, .deliver 1 4, .worker 0 (.healthUpdate false),
    .head (.subscribe 5)]

theorem listings_only_grow_sample : ∃ s t,
    Runs.exec step lostAttempt (initial ownDeployments twoNodes) = some s ∧
    Runs.exec step exitsAndReports s = some t ∧ Grows s t := by
  have h : ((Runs.exec step lostAttempt (initial ownDeployments twoNodes)).bind
      (Runs.exec step exitsAndReports)).isSome = true := by decide +kernel
  obtain ⟨t, h⟩ := Option.isSome_iff_exists.mp h
  obtain ⟨s, hs, ht⟩ := Option.bind_eq_some_iff.mp h
  exact ⟨s, t, hs, ht, listings_only_grow ownDeployments ownDeployments_noReplicas twoNodes
    (by decide) (by decide) lostAttempt exitsAndReports s t hs ht⟩

/-- Every proxy that applies a snapshot of the head has a handle for each
deployment, and the handles of all but one have no replica to pick, at any
time. -/
theorem only_one_served (deployments : Dict ℕ DeploymentHandle) (he : NoReplicas deployments)
    (hd : DistinctNames deployments) (nodes : List (ℕ × String))
    (hn : (nodes.map Prod.fst).Nodup) (ha : (nodes.map Prod.snd).Nodup) (as : List Act) (s : State)
    (hr : Runs.exec step as (initial deployments nodes) = some s)
    (p : RoutingUpdate) (hp : p ∈ RoutingFeed.snapshots s.head.feed)
    (entries : List (ℕ × DeploymentInfoMessage))
    (hperm : entries.Perm p.currentDeployments.entries) (heap : Proxy.Heap) (d : ℕ)
    (dep : DeploymentHandle) (hdep : deployments.get d = some dep) :
    ∃ h handle, (Proxy.applyRoutingUpdate heap entries).2.get dep.deploymentName = some h ∧
      (Proxy.applyRoutingUpdate heap entries).1[h]? = some handle ∧
      (d ≠ 2 → ∀ now, (handle.pickNextReplica now).1 = none) := by
  have hi := reachable_inv he hn ha hr
  obtain ⟨hist, hpre, hex⟩ := hi.listed p hp
  obtain ⟨h, handle, hget, hheap, hlive⟩ := (hex.applied hd hperm heap).replicas d dep hdep
  refine ⟨h, handle, hget, hheap, fun htwo now => Proxy.DeploymentHandle.pick_eq_none.mpr ?_⟩
  have hnone : handle.replicas = [] := by
    rw [← List.map_eq_nil_iff, hlive, live_additions (hi.added hpre), List.filterMap_eq_nil_iff]
    intro e hm
    obtain ⟨key, address, rfl⟩ := hi.added hpre e hm
    exact if_neg (Ne.symm htwo)
  intro r hmem
  rw [hnone] at hmem
  cases hmem

theorem only_one_served_sample : ∃ s p,
    Runs.exec step lostAttempt (initial ownDeployments twoNodes) = some s ∧
    s.head.feed.published = [p] ∧ ∀ d dep, ownDeployments.get d = some dep →
    ∃ h handle,
      (Proxy.applyRoutingUpdate [] p.currentDeployments.entries).2.get dep.deploymentName = some h ∧
      (Proxy.applyRoutingUpdate [] p.currentDeployments.entries).1[h]? = some handle ∧
      (d ≠ 2 → ∀ now, (handle.pickNextReplica now).1 = none) := by
  obtain ⟨s, hs, p, hp⟩ := lostAttempt_runs
  have hmem : p ∈ RoutingFeed.snapshots s.head.feed :=
    mem_snapshots.mpr (Or.inr (Or.inr (hp ▸ List.mem_singleton_self p)))
  exact ⟨s, p, hs, hp, only_one_served ownDeployments ownDeployments_noReplicas
    ownDeployments_distinct twoNodes (by decide) (by decide) lostAttempt s hs p hmem _
    (List.Perm.refl _) []⟩

end ServingSystem.Cluster
