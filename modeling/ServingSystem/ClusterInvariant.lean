import ServingSystem.Cluster

/-!
# The invariant of a cluster

Whatever attempts fail, are repeated or arrive late: an attempt is one that a
registered worker was asked for, the ids of two handlers differ, and what the
head lists is registered at its worker and was started for its deployment.
-/

set_option autoImplicit false

namespace ServingSystem.Cluster
open Protos (HealthStatusUpdate RoutingUpdate)
open Head DeploymentManager HeadController WorkerRegistry Positions

/-- The key and the address are those of an id that its worker has registered
and has started for this deployment only. -/
def Hosted (workers : List Scheduler.State) (d : ℕ) (name key address : String) : Prop :=
  ∃ w ∈ workers, ∃ id ∈ w.replicaRegistry.keys, key = replicaId w.workerId id ∧
    address = w.nodeAddress ++ ":" ++ Scheduler.replicaPort id ∧ Commands w id name d

def Asked (nodes : List (ℕ × String)) (g : Registry) (item : String × ℕ) : Prop :=
  item.2 = 2 ∧ ∃ node ∈ nodes, item.1 = endpoint node.2 ∧ node.1 ∈ g.nodeMap.keys

def Told (deployments : Dict ℕ DeploymentHandle) (l : CommandLine.Launch) : Prop :=
  ∃ dep, deployments.get 2 = some dep ∧
    l = ReplicaPorts.created l.replicaId dep.deploymentName 2

/-- What the head still knows of an attempt it made. -/
structure Issued (deployments : Dict ℕ DeploymentHandle) (nodes : List (ℕ × String))
    (head : HeadController.State) (a : Attempt) : Prop where
  asked : Asked nodes head.registry (a.address, a.deploymentId)
  named : (deployments.get a.deploymentId).map DeploymentHandle.deploymentName =
    some a.deploymentName
  task : head.creations[a.task]? = some .done ∨ ∃ c u,
    head.creations[a.task]? = some (.requesting a.address a.deploymentId c u)

/-- Until its task ends, the id that an attempt was given is not listed. -/
def Unlisted (head : HeadController.State) (task : ℕ) (key : String) : Prop :=
  head.creations[task]? ≠ some .done → ∀ d address, Event.added d key address ∉ head.history

def Handled (s : State) (a : Attempt) (j i : ℕ) : Prop :=
  ∃ w c, s.workers[j]? = some w ∧ w.calls[i]? = some c ∧
    w.workerId ∈ s.head.registry.nodeMap.keys ∧
    Commands w c.replicaId a.deploymentName a.deploymentId ∧
    Unlisted s.head a.task (replicaId w.workerId c.replicaId)

structure Inv (deployments : Dict ℕ DeploymentHandle) (nodes : List (ℕ × String)) (s : State) :
    Prop where
  head : HeadController.Inv deployments s.head
  known : RequestsKnown s.head
  worker : ∀ w ∈ s.workers, Scheduler.Inv w ∧ Origin w
  fixed : s.workers.map identity = nodes
  asked : ∀ item ∈ s.head.items, Asked nodes s.head.registry item
  issued : ∀ a ∈ s.attempts, Issued deployments nodes s.head a
  handled : ∀ a ∈ s.attempts, ∀ j i, a.handler = some (j, i) → Handled s a j i
  apart : ∀ (n m : ℕ) a b h, s.attempts[n]? = some a → s.attempts[m]? = some b →
    a.handler = some h → b.handler = some h → n = m
  launched : ∀ w ∈ s.workers, ∀ l ∈ ReplicaPorts.launches w, Told deployments l
  history : ∀ e ∈ s.head.history, ∃ d dep key address, e = .added d key address ∧ d = 2 ∧
    deployments.get d = some dep ∧ Hosted s.workers d dep.deploymentName key address
  reports : ∀ r ∈ s.reports, ∀ x ∈ r.replicaStates, x.status ≠ "DEAD"
  listed : ∀ p ∈ RoutingFeed.snapshots s.head.feed,
    ∃ h, h <+: s.head.history ∧ Exact deployments h p

section
variable {deployments : Dict ℕ DeploymentHandle} {nodes : List (ℕ × String)} {s s' : State}
  {head head' : HeadController.State}

theorem Asked.mono {g g' : Registry} {item : String × ℕ} (h : Asked nodes g item)
    (hg : ∀ w ∈ g.nodeMap.keys, w ∈ g'.nodeMap.keys) : Asked nodes g' item := by
  obtain ⟨hd, node, hn, he, hk⟩ := h
  exact ⟨hd, node, hn, he, hg _ hk⟩

theorem endpoint_inj {x y : String} (h : endpoint x = endpoint y) : x = y := by
  have hl := congrArg String.toList h
  simp only [endpoint, String.toList_append, List.append_assoc] at hl
  exact String.toList_inj.mp (List.append_cancel_right hl)

theorem same_worker (hn : (nodes.map Prod.fst).Nodup) (hf : s.workers.map identity = nodes)
    {j j' : ℕ} {w w' : Scheduler.State} (hw : s.workers[j]? = some w)
    (hw' : s.workers[j']? = some w') (h : w.workerId = w'.workerId) : j = j' := by
  have hids : s.workers.map Scheduler.State.workerId = nodes.map Prod.fst := by
    rw [← hf, List.map_map]
    rfl
  exact index_unique (hids ▸ hn) hw hw' h

theorem Asked.registered (ha : (nodes.map Prod.snd).Nodup) (hf : s.workers.map identity = nodes)
    {g : Registry} {item : String × ℕ} (h : Asked nodes g item) {w : Scheduler.State}
    (hw : w ∈ s.workers) (he : item.1 = endpoint w.nodeAddress) : w.workerId ∈ g.nodeMap.keys := by
  obtain ⟨-, node, hn, hnode, hk⟩ := h
  have hmem : identity w ∈ nodes := hf ▸ List.mem_map_of_mem hw
  have hsame : node = identity w :=
    List.inj_on_of_nodup_map ha hn hmem (endpoint_inj (hnode.symm.trans he))
  rw [hsame] at hk
  exact hk

theorem Inv.node (hi : Inv deployments nodes s) {j : ℕ} {w : Scheduler.State}
    (hw : s.workers[j]? = some w) : nodes[j]? = some (identity w) := by
  rw [← hi.fixed, List.getElem?_map, hw, Option.map_some]

theorem Hosted.mono {workers workers' : List Scheduler.State} {d : ℕ}
    {name key address : String} (h : Hosted workers d name key address)
    (hw : ∀ w ∈ workers, ∃ w' ∈ workers', Later w w' ∧
      ∀ id ∈ w.replicaRegistry.keys, Commands w id name d → Commands w' id name d) :
    Hosted workers' d name key address := by
  obtain ⟨w, hm, id, hid, hkey, haddr, hc⟩ := h
  obtain ⟨w', hm', hl, hcmd⟩ := hw w hm
  exact ⟨w', hm', id, hl.keys id hid, hl.workerId ▸ hkey, hl.nodeAddress ▸ haddr, hcmd id hid hc⟩

theorem Issued.onward {a : Attempt} (h : Issued deployments nodes head a)
    (hn : ∀ w ∈ head.registry.nodeMap.keys, w ∈ head'.registry.nodeMap.keys)
    (hc : ∀ (k : ℕ) x, head.creations[k]? = some x → (∀ address d c u, x ≠ .called address d c u) →
      head'.creations[k]? = some x ∨ head'.creations[k]? = some .done) :
    Issued deployments nodes head' a := by
  refine ⟨h.asked.mono hn, h.named, ?_⟩
  rcases h.task with ht | ⟨c, u, ht⟩
  · rcases hc _ _ ht (fun _ _ _ _ => (nomatch ·)) with h' | h' <;> exact Or.inl h'
  · rcases hc _ _ ht (fun _ _ _ _ => (nomatch ·)) with h' | h'
    · exact Or.inr ⟨c, u, h'⟩
    · exact Or.inl h'

theorem Inv.head_quiet (hi : Inv deployments nodes s) {a : HeadController.Act}
    (hs : HeadController.step s.head a = some head') (hc : Conforms s.head a)
    (hq : Quiet s.head head') (hitems : ∀ item ∈ head'.items, Asked nodes head'.registry item)
    (registrations : List ℕ) : Inv deployments nodes { s with head := head', registrations } where
  head := HeadController.step_inv s.head a head' hi.head hc hs
  known := step_known s.head a head' hi.known hs
  worker := hi.worker
  fixed := hi.fixed
  asked := hitems
  issued x hx := (hi.issued x hx).onward hq.nodes (fun _ _ hk hx => step_started hs hk hx)
  handled x hx j i hh := by
    obtain ⟨w, c, hw, hcall, hreg, hcmd, hun⟩ := hi.handled x hx j i hh
    refine ⟨w, c, hw, hcall, hq.nodes _ hreg, hcmd, fun hne d address => ?_⟩
    change Event.added d (replicaId w.workerId c.replicaId) address ∉ head'.history
    rw [hq.history]
    refine hun (fun hdone => hne ?_) d address
    rcases step_started hs hdone (fun _ _ _ _ => (nomatch ·)) with h | h <;> exact h
  apart := hi.apart
  launched := hi.launched
  history := by
    change ∀ e ∈ head'.history, _
    rw [hq.history]
    exact hi.history
  reports := hi.reports
  listed p hp := by
    change ∃ h, h <+: head'.history ∧ Exact deployments h p
    rw [hq.history]
    rcases hq.snapshots p hp with hp | ⟨t, rfl⟩
    · exact hi.listed p hp
    · exact ⟨_, List.prefix_rfl, hi.head.tracks.exact t⟩

/-- A worker goes on; what it is asked to create is a replica of deployment 2. -/
theorem Inv.worker_step (hi : Inv deployments nodes s) {j : ℕ} {w w' : Scheduler.State}
    (hw : s.workers[j]? = some w) {a : Scheduler.Act} (hs : Scheduler.step w a = some w')
    (hnew : ∀ name d launch, a = .createReplica name d launch → d = 2 ∧
      (deployments.get d).map DeploymentHandle.deploymentName = some name) :
    Inv deployments nodes { s with workers := s.workers.set j w' } := by
  obtain ⟨hinv, horigin⟩ := hi.worker w (List.mem_of_getElem? hw)
  have hlater := step_later hinv hs
  have hlt := (List.getElem?_eq_some_iff.mp hw).1
  refine { hi with
    worker := fun x hx => ?_, fixed := ?_, handled := fun x hx j' i hh => ?_
    launched := fun x hx l hl => ?_, history := fun e he => ?_ }
  · rcases mem_set hx with rfl | hx
    · exact ⟨Scheduler.step_inv w a _ hinv hs, step_origin hinv horigin hs⟩
    · exact hi.worker x hx
  · rw [← hi.fixed]
    refine map_set_eq hw ?_
    rw [identity, hlater.workerId, hlater.nodeAddress, identity]
  · obtain ⟨x, c, hx', hcall, hreg, hcmd, hun⟩ := hi.handled x hx j' i hh
    by_cases hj : j' = j
    · subst hj
      obtain rfl := Option.some.inj (hw.symm.trans hx')
      obtain ⟨c', hcall', hid, -⟩ := hlater.calls i c hcall
      refine ⟨w', c', List.getElem?_set_self hlt, hcall', ?_, ?_, ?_⟩
      · rw [hlater.workerId]
        exact hreg
      · rw [hid]
        exact commands_step hinv hs (call_le hinv (List.mem_of_getElem? hcall)) hcmd
      · rw [hlater.workerId, hid]
        exact hun
    · exact ⟨x, c, (List.getElem?_set_ne (Ne.symm hj)).trans hx', hcall, hreg, hcmd, hun⟩
  · rcases mem_set hx with rfl | hx
    · rcases ReplicaPorts.step_launches hinv hs with ⟨name, d, pid, ha, h⟩ | ⟨-, h⟩
      · rw [h] at hl
        rcases List.mem_append.mp hl with hl | hl
        · exact hi.launched w (List.mem_of_getElem? hw) l hl
        · obtain rfl := List.mem_singleton.mp hl
          obtain ⟨rfl, hname⟩ := hnew name d _ ha
          obtain ⟨dep, hd, rfl⟩ := Option.map_eq_some_iff.mp hname
          exact ⟨dep, hd, rfl⟩
      · exact hi.launched w (List.mem_of_getElem? hw) l ((h l).mp hl)
    · exact hi.launched x hx l hl
  · obtain ⟨d, dep, key, address, rfl, htwo, hd, hh⟩ := hi.history e he
    refine ⟨d, dep, key, address, rfl, htwo, hd, hh.mono (fun x hx => ?_)⟩
    obtain ⟨k, hk⟩ := List.getElem?_of_mem hx
    by_cases hkj : k = j
    · subst hkj
      obtain rfl := Option.some.inj (hw.symm.trans hk)
      exact ⟨w', List.mem_set hlt w', hlater, fun id hid =>
        commands_step hinv hs (hinv.allocated id hid)⟩
    · have hx' := (List.getElem?_set_ne (a := w') (Ne.symm hkj)).trans hk
      exact ⟨x, List.mem_of_getElem? hx', Later.refl x, fun _ _ h => h⟩

theorem register_inv (hi : Inv deployments nodes s) {j : ℕ} {resource : Protos.Resource}
    (hs : register j resource s = some s') : Inv deployments nodes s' := by
  obtain ⟨w, hw, rfl⟩ := Option.map_eq_some_iff.mp hs
  have hq := registerNode_quiet (registerRequest w resource) s.head
  refine hi.head_quiet (a := .registerNode _) rfl trivial hq (fun item hm => ?_) _
  rcases List.mem_cons.mp ((registerNode_items _ _).subset hm) with rfl | hm
  · refine ⟨rfl, identity w, ?_, rfl, Dict.mem_keys_set.mpr (Or.inl rfl)⟩
    exact hi.fixed ▸ List.mem_map_of_mem (List.mem_of_getElem? hw)
  · exact (hi.asked item hm).mono hq.nodes

theorem internal_inv (hi : Inv deployments nodes s) {a : HeadController.Act}
    (ha : internal a = true) (hs : HeadController.step s.head a = some head') :
    Inv deployments nodes { s with head := head' } := by
  have hq := internal_quiet ha hs
  have hc : Conforms s.head a := by
    cases a with
    | reply k response t => cases ha
    | sendHealthStatus request t => cases ha
    | _ => trivial
  refine hi.head_quiet hs hc hq (fun item hm => ?_) s.registrations
  exact (hi.asked item ((internal_items ha hs).subset hm)).mono hq.nodes

theorem giveUp_inv (hi : Inv deployments nodes s) {task : ℕ} (hs : giveUp task s = some s') :
    Inv deployments nodes s' := by
  obtain ⟨-, hs⟩ := Option.ite_none_right_eq_some.mp hs
  obtain ⟨h, hstep, rfl⟩ := Option.map_eq_some_iff.mp hs
  have hq := failed_quiet hstep
  refine hi.head_quiet hstep trivial hq (fun item hm => ?_) s.registrations
  obtain ⟨_, _, _, _, -, hitems⟩ := ended_items hstep (Or.inl rfl)
  exact (hi.asked item (hitems.subset (List.mem_cons_of_mem _ hm))).mono hq.nodes

theorem attempt_inv (hi : Inv deployments nodes s) {task : ℕ} (hs : attempt task s = some s') :
    Inv deployments nodes s' := by
  obtain ⟨address, d, c, u, dep, hk, -, hd, rfl⟩ := attempt_step hs
  have hnew : ∀ (n : ℕ) (x : Attempt) h,
      (s.attempts ++ [⟨task, address, d, dep.deploymentName, none⟩])[n]? = some x →
      x.handler = some h → s.attempts[n]? = some x := by
    intro n x h hx hh
    rcases getElem?_snoc.mp hx with hx | ⟨-, rfl⟩
    · exact hx
    · cases hh
  refine { hi with
    issued := fun x hx => ?_, handled := fun x hx j i hh => ?_
    apart := fun n m x y h hx hy hxh hyh =>
      hi.apart n m x y h (hnew n x h hx hxh) (hnew m y h hy hyh) hxh hyh }
  · rcases List.mem_append.mp hx with hx | hx
    · exact hi.issued x hx
    · obtain rfl := List.mem_singleton.mp hx
      refine ⟨hi.asked _ ?_, ?_, Or.inr ⟨c, u, hk⟩⟩
      · exact mem_items.mpr (Or.inr (Or.inr
          (List.mem_filterMap.mpr ⟨_, List.mem_of_getElem? hk, rfl⟩)))
      · have hlist := hi.head.tracks.lists d
        rw [hd] at hlist
        obtain ⟨dep', hd', he⟩ := Option.map_eq_some_iff.mp hlist.symm
        rw [hd', Option.map_some]
        exact congrArg some (Prod.mk.inj he).1
  · obtain ⟨n, hn⟩ := List.getElem?_of_mem hx
    exact hi.handled x (List.mem_of_getElem? (hnew n x _ hn hh)) j i hh

theorem Inv.unlisted (hi : Inv deployments nodes s) (hn : (nodes.map Prod.fst).Nodup) {j : ℕ}
    {w : Scheduler.State} (hw : s.workers[j]? = some w) {id : ℕ} (hid : w.replicaNum < id)
    (d : ℕ) (address : String) :
    Event.added d (replicaId w.workerId id) address ∉ s.head.history := by
  intro he
  obtain ⟨_, _, _, _, heq, -, -, x, hx, id', hid', hkey, -⟩ := hi.history _ he
  obtain ⟨-, rfl, -⟩ := Event.added.inj heq
  obtain ⟨hwid, rfl⟩ := replicaId_inj.mp hkey
  obtain ⟨k, hk⟩ := List.getElem?_of_mem hx
  obtain rfl := same_worker hn hi.fixed hw hk hwid
  obtain rfl := Option.some.inj (hw.symm.trans hk)
  exact absurd ((hi.worker w hx).1.allocated id hid') hid.not_ge

theorem arrive_inv (hn : (nodes.map Prod.fst).Nodup) (ha : (nodes.map Prod.snd).Nodup)
    (hi : Inv deployments nodes s) {n j : ℕ} {launch : Option ℕ}
    (hs : arrive n j launch s = some s') : Inv deployments nodes s' := by
  obtain ⟨a, w, w', hatt, hw, hnone, haddr, hstep, rfl⟩ := arrive_step hs
  have hmem := List.mem_of_getElem? hatt
  have hlt := (List.getElem?_eq_some_iff.mp hw).1
  obtain ⟨hinv, -⟩ := hi.worker w (List.mem_of_getElem? hw)
  obtain ⟨c, hcall, hid, -⟩ := create_call hinv hstep
  have hcmd := create_commands hinv hstep
  have hlater := step_later hinv hstep
  have hwork := hi.worker_step hw hstep (fun name d l he => by
    obtain ⟨rfl, rfl, -⟩ := Scheduler.Act.createReplica.inj he
    exact ⟨(hi.issued a hmem).asked.1, (hi.issued a hmem).named⟩)
  -- The new handler is none of the earlier ones: its call did not exist before.
  have hfresh : ∀ x ∈ s.attempts, x.handler ≠ some (j, w.calls.length) := by
    intro x hx hh
    obtain ⟨w₀, c₀, hw₀, hc₀, -⟩ := hi.handled x hx j _ hh
    obtain rfl := Option.some.inj (hw.symm.trans hw₀)
    exact absurd (List.getElem?_eq_some_iff.mp hc₀).1 (lt_irrefl _)
  refine { hwork with
    issued := fun x hx => ?_, handled := fun x hx j' i hh => ?_
    apart := fun m m' x y h hx hy hxh hyh => ?_ }
  · rcases mem_set hx with rfl | hx
    · exact ⟨(hi.issued a hmem).asked, (hi.issued a hmem).named, (hi.issued a hmem).task⟩
    · exact hi.issued x hx
  · rcases mem_set hx with rfl | hx
    · obtain ⟨rfl, rfl⟩ := Prod.mk.inj (Option.some.inj hh)
      refine ⟨w', c, List.getElem?_set_self hlt, hcall, ?_, hid ▸ hcmd, fun _ d address => ?_⟩
      · rw [hlater.workerId]
        exact (hi.issued a hmem).asked.registered ha hi.fixed (List.mem_of_getElem? hw) haddr
      · rw [hlater.workerId, hid]
        exact hi.unlisted hn hw (Nat.lt_succ_self _) d address
    · exact hwork.handled x hx j' i hh
  · rcases getElem?_set_cases hx with ⟨rfl, rfl⟩ | ⟨-, hx₀⟩ <;>
      rcases getElem?_set_cases hy with ⟨rfl, rfl⟩ | ⟨-, hy₀⟩
    · rfl
    · exact absurd (hyh.trans hxh.symm) (hfresh y (List.mem_of_getElem? hy₀))
    · exact absurd (hxh.trans hyh.symm) (hfresh x (List.mem_of_getElem? hx₀))
    · exact hi.apart m m' x y h hx₀ hy₀ hxh hyh

theorem answered_task (hi : Inv deployments nodes s) {a : Attempt} (ha : a ∈ s.attempts)
    {response : Protos.ReplicaCreationReply} {t : ℕ}
    (hs : HeadController.step s.head (.reply a.task response t) = some head') :
    ∃ c u, s.head.creations[a.task]? = some (.requesting a.address a.deploymentId c u) ∧
      head' = replied a.deploymentId c u response t { s.head with
        creations := s.head.creations.set a.task .done
        history := s.head.history ++ answered a.deploymentId response } := by
  obtain ⟨address, d, c, u, hk, rfl⟩ := step_reply hs
  rcases (hi.issued a ha).task with h | ⟨c', u', h⟩
  · cases hk.symm.trans h
  · obtain ⟨-, rfl, rfl, rfl⟩ := Creation.requesting.inj (Option.some.inj (hk.symm.trans h))
    exact ⟨c, u, h, rfl⟩

theorem refused_answer (hi : Inv deployments nodes s) {a : Attempt} (ha : a ∈ s.attempts)
    {response : Protos.ReplicaCreationReply} {t : ℕ} (hr : ¬ response.created)
    (hs : HeadController.step s.head (.reply a.task response t) = some head') :
    head' = { s.head with creations := s.head.creations.set a.task .done } := by
  obtain ⟨c, u, -, he⟩ := answered_task hi ha hs
  exact he.trans (replied_refused
    (s := { s.head with creations := s.head.creations.set a.task .done }) hr)

theorem refused_inv (hi : Inv deployments nodes s) {a : Attempt} (ha : a ∈ s.attempts)
    {response : Protos.ReplicaCreationReply} {t : ℕ} (hr : ¬ response.created)
    (hs : HeadController.step s.head (.reply a.task response t) = some head') :
    Inv deployments nodes { s with head := head' } := by
  obtain ⟨_, _, _, _, -, hitems⟩ := ended_items hs (Or.inr ⟨response, t, rfl⟩)
  obtain rfl := refused_answer hi ha hr hs
  exact hi.head_quiet hs (fun h => absurd h hr) (Quiet.tasks s.head _ _ _ _)
    (fun item hm => hi.asked item (hitems.subset (List.mem_cons_of_mem _ hm))) s.registrations

/-- The handlers of two attempts have ids of different keys. -/
theorem keys_apart (hn : (nodes.map Prod.fst).Nodup) (hi : Inv deployments nodes s)
    {n m : ℕ} {a b : Attempt} (ha : s.attempts[n]? = some a) (hb : s.attempts[m]? = some b)
    {j i j' i' : ℕ} (hah : a.handler = some (j, i)) (hbh : b.handler = some (j', i'))
    {w w' : Scheduler.State} {c c' : Scheduler.Call} (hw : s.workers[j]? = some w)
    (hw' : s.workers[j']? = some w') (hc : w.calls[i]? = some c) (hc' : w'.calls[i']? = some c')
    (hkey : replicaId w.workerId c.replicaId = replicaId w'.workerId c'.replicaId) : n = m := by
  obtain ⟨hwid, hcid⟩ := replicaId_inj.mp hkey
  obtain rfl := same_worker hn hi.fixed hw hw' hwid
  obtain rfl := Option.some.inj (hw.symm.trans hw')
  obtain rfl := (hi.worker w (List.mem_of_getElem? hw)).1.one_call hc hc' hcid
  exact hi.apart n m a b (j, i) ha hb hah hbh

theorem created_answer (hi : Inv deployments nodes s) {a : Attempt} (ha : a ∈ s.attempts)
    {j i : ℕ} (hh : a.handler = some (j, i)) {w : Scheduler.State} {c : Scheduler.Call}
    (hw : s.workers[j]? = some w) (hc : w.calls[i]? = some c)
    {response : Protos.ReplicaCreationReply} (hp : c.progress = .returned response)
    (hcr : response.created) {t : ℕ}
    (hs : HeadController.step s.head (.reply a.task response t) = some head') :
    ∃ cpus gpus, Conforms s.head (.reply a.task response t) ∧
      c.replicaId ∈ w.replicaRegistry.keys ∧ head' = { s.head with
        creations := s.head.creations.set a.task .done
        history := s.head.history ++ [Event.added a.deploymentId
          (replicaId w.workerId c.replicaId)
          (w.nodeAddress ++ ":" ++ Scheduler.replicaPort c.replicaId)] }.listedReplica
          a.deploymentId cpus gpus w.workerId
          ⟨c.replicaId, Scheduler.replicaPort c.replicaId⟩ w.nodeAddress t := by
  obtain ⟨cpus, gpus, hk, he⟩ := answered_task hi ha hs
  obtain ⟨w', c', hw', hc', hreg, -, hun⟩ := hi.handled a ha j i hh
  obtain rfl := Option.some.inj (hw.symm.trans hw')
  obtain rfl := Option.some.inj (hc.symm.trans hc')
  have hset := (hi.worker w (List.mem_of_getElem? hw)).1.settled c (List.mem_of_getElem? hc)
  unfold Scheduler.Settled at hset
  rw [hp] at hset
  obtain ⟨rfl, hkey⟩ := hset hcr
  refine ⟨cpus, gpus, fun _ => ⟨_, rfl, hun ?_, Dict.mem_keys.mp hreg⟩, hkey, he.trans ?_⟩
  · rw [hk]
    exact fun h => nomatch Option.some.inj h
  · exact replied_one (hi.known _ _ _ _ _ hk) hreg

theorem created_inv (hn : (nodes.map Prod.fst).Nodup) (hi : Inv deployments nodes s) {n : ℕ}
    {a : Attempt} (hatt : s.attempts[n]? = some a) {j i : ℕ} (hh : a.handler = some (j, i))
    {w : Scheduler.State} {c : Scheduler.Call} (hw : s.workers[j]? = some w)
    (hc : w.calls[i]? = some c) {response : Protos.ReplicaCreationReply}
    (hp : c.progress = .returned response) (hcr : response.created) {t : ℕ}
    (hs : HeadController.step s.head (.reply a.task response t) = some head') :
    Inv deployments nodes { s with head := head' } := by
  have ha := List.mem_of_getElem? hatt
  obtain ⟨cpus, gpus, hconf, hkey, he⟩ := created_answer hi ha hh hw hc hp hcr hs
  obtain ⟨w', c', hw', hc', hreg, hcmd, hun⟩ := hi.handled a ha j i hh
  obtain rfl := Option.some.inj (hw.symm.trans hw')
  obtain rfl := Option.some.inj (hc.symm.trans hc')
  have hhead := HeadController.step_inv s.head _ head' hi.head hconf hs
  have hhist : head'.history = s.head.history ++ [.added a.deploymentId
      (replicaId w.workerId c.replicaId)
      (w.nodeAddress ++ ":" ++ Scheduler.replicaPort c.replicaId)] := by
    rw [he]
    rfl
  have hnodes : ∀ x ∈ s.head.registry.nodeMap.keys, x ∈ head'.registry.nodeMap.keys := by
    intro x hx
    rw [he]
    change x ∈ (s.head.registry.nodeMap.modify _ _).keys
    rw [Dict.keys_modify]
    exact hx
  have hdone : head'.creations[a.task]? = some .done := by
    obtain ⟨_, _, hk, -⟩ := answered_task hi ha hs
    rw [he]
    exact List.getElem?_set_self (List.getElem?_eq_some_iff.mp hk).1
  refine { hi with
    head := hhead, known := step_known s.head _ head' hi.known hs
    asked := fun item hm => ?_
    issued := fun x hx => (hi.issued x hx).onward hnodes (fun _ _ hk hx => step_started hs hk hx)
    handled := fun x hx j' i' hxh => ?_, history := fun e hm => ?_, listed := fun p hm => ?_ }
  · obtain ⟨_, _, _, _, -, hitems⟩ := ended_items hs (Or.inr ⟨response, t, rfl⟩)
    exact (hi.asked item (hitems.subset (List.mem_cons_of_mem _ hm))).mono hnodes
  · obtain ⟨w', c', hw', hc', hreg', hcmd', hun'⟩ := hi.handled x hx j' i' hxh
    refine ⟨w', c', hw', hc', hnodes _ hreg', hcmd', fun hne d address hm => ?_⟩
    change _ ∈ head'.history at hm
    rw [hhist] at hm
    rcases List.mem_append.mp hm with hm | hm
    · refine hun' (fun hd => hne ?_) d address hm
      rcases step_started hs hd (fun _ _ _ _ => (nomatch ·)) with h | h <;> exact h
    · obtain ⟨m, hx'⟩ := List.getElem?_of_mem hx
      obtain ⟨-, hkey', -⟩ := Event.added.inj (List.mem_singleton.mp hm)
      obtain rfl := keys_apart hn hi hx' hatt hxh hh hw' hw hc' hc hkey'
      obtain rfl := Option.some.inj (hx'.symm.trans hatt)
      exact hne hdone
  · change e ∈ head'.history at hm
    rw [hhist] at hm
    rcases List.mem_append.mp hm with hm | hm
    · exact hi.history e hm
    · obtain ⟨dep, hdep, hname⟩ := Option.map_eq_some_iff.mp (hi.issued a ha).named
      exact ⟨_, dep, _, _, List.mem_singleton.mp hm, (hi.issued a ha).asked.1, hdep, w,
        List.mem_of_getElem? hw, _, hkey, rfl, rfl, hname ▸ hcmd⟩
  · change ∃ h, h <+: head'.history ∧ _
    have hmem : p ∈ RoutingFeed.snapshots s.head.feed ∨
        p = getCurrentRoutingTable head'.registry t := by
      rw [he] at hm ⊢
      exact published_snapshots s.head.feed _ p hm
    rcases hmem with hm | rfl
    · obtain ⟨h, hpre, hex⟩ := hi.listed p hm
      exact ⟨h, hhist ▸ hpre.trans (List.prefix_append _ _), hex⟩
    · exact ⟨_, List.prefix_rfl, hhead.tracks.exact t⟩

theorem answer_inv (hn : (nodes.map Prod.fst).Nodup) (hi : Inv deployments nodes s) {n t : ℕ}
    (hs : answer n t s = some s') : Inv deployments nodes s' := by
  obtain ⟨a, j, i, w, c, response, h, ha, hh, hw, hc, hp, hstep, rfl⟩ := answer_step hs
  by_cases hcr : response.created
  · exact created_inv hn hi ha hh hw hc hp hcr hstep
  · exact refused_inv hi (List.mem_of_getElem? ha) hcr hstep

/-- The scheduler writes no DEAD into a report. -/
theorem report_inv (hi : Inv deployments nodes s) {w : Scheduler.State} (hw : w ∈ s.workers) :
    Inv deployments nodes { s with reports := s.reports ++ [healthStatusUpdate w] } := by
  refine { hi with reports := fun r hr x hx => ?_ }
  rcases List.mem_append.mp hr with hr | hr
  · exact hi.reports r hr x hx
  · obtain rfl := List.mem_singleton.mp hr
    obtain ⟨e, he, rfl⟩ := List.mem_map.mp hx
    have hidle := (hi.worker w hw).1.idle e.1 e.2 (Dict.get_eq_some.mpr he)
    change e.2.status ≠ "DEAD"
    rw [hidle]
    decide

theorem Inv.delivered (hi : Inv deployments nodes s) {i t : ℕ} (hs : deliver i t s = some s') :
    s' = s := by
  obtain ⟨r, h, hr, hstep, rfl⟩ := deliver_step hs
  have hnone : ∀ x ∈ r.replicaStates, ¬ decide (x.status = "DEAD") :=
    fun x hx => by simpa using hi.reports r (List.mem_of_getElem? hr) x hx
  have hdeaths : deaths r.workerId r.replicaStates = [] := by
    rw [deaths, List.map_eq_nil_iff, List.filter_eq_nil_iff]
    exact hnone
  have hreported : reported r = [] := by
    rw [reported, List.map_eq_nil_iff, List.filter_eq_nil_iff]
    exact hnone
  rw [HeadController.step, sent_nothing hreported t, hdeaths, List.append_nil] at hstep
  obtain rfl := Option.some.inj hstep
  rfl

theorem step_inv (hn : (nodes.map Prod.fst).Nodup) (ha : (nodes.map Prod.snd).Nodup) (s : State)
    (a : Act) (s' : State) (hi : Inv deployments nodes s) (hs : step s a = some s') :
    Inv deployments nodes s' := by
  cases a with
  | register j resource => exact register_inv hi hs
  | attempt task => exact attempt_inv hi hs
  | arrive n j launch => exact arrive_inv hn ha hi hs
  | answer n t => exact answer_inv hn hi hs
  | giveUp task => exact giveUp_inv hi hs
  | report j =>
    obtain ⟨w, hw, rfl⟩ := Option.map_eq_some_iff.mp hs
    exact report_inv hi (List.mem_of_getElem? hw)
  | deliver i t =>
    exact hi.delivered hs ▸ hi
  | worker j a =>
    obtain ⟨hcreates, hs⟩ := Option.ite_none_left_eq_some.mp hs
    obtain ⟨w, hw, hs⟩ := Option.bind_eq_some_iff.mp hs
    obtain ⟨w', hw', rfl⟩ := Option.map_eq_some_iff.mp hs
    refine hi.worker_step hw hw' (fun name d launch he => ?_)
    exact absurd (he ▸ rfl : creates a = true) hcreates
  | head a =>
    obtain ⟨hint, hs⟩ := Option.ite_none_right_eq_some.mp hs
    obtain ⟨h, hstep, rfl⟩ := Option.map_eq_some_iff.mp hs
    exact internal_inv hi hint hstep

end

theorem initial_inv {deployments : Dict ℕ DeploymentHandle} (he : NoReplicas deployments)
    (nodes : List (ℕ × String)) : Inv deployments nodes (initial deployments nodes) where
  head := HeadController.initial_inv he
  known _ _ _ _ _ hk := by cases hk
  worker w hw := by
    obtain ⟨n, -, rfl⟩ := List.mem_map.mp hw
    exact ⟨Scheduler.initial_inv n.1 n.2, initial_origin n.1 n.2⟩
  fixed := by
    rw [initial, List.map_map]
    exact List.map_id nodes
  asked _ hm := by cases hm
  issued _ hx := by cases hx
  handled _ hx := by cases hx
  apart _ _ _ _ _ hx := by cases hx
  launched w hw l hl := by
    obtain ⟨n, -, rfl⟩ := List.mem_map.mp hw
    cases hl
  history _ hm := by cases hm
  reports _ hm := by cases hm
  listed _ hm := by cases hm

theorem reachable_inv {deployments : Dict ℕ DeploymentHandle} {nodes : List (ℕ × String)}
    (he : NoReplicas deployments) (hn : (nodes.map Prod.fst).Nodup)
    (ha : (nodes.map Prod.snd).Nodup) {as : List Act} {s : State}
    (hr : Runs.exec step as (initial deployments nodes) = some s) : Inv deployments nodes s :=
  Runs.exec_invariant (step_inv hn ha) (initial_inv he nodes) hr

end ServingSystem.Cluster
