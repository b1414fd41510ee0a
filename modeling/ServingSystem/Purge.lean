import ServingSystem.Coherence
import Mathlib.Tactic.Abel

/-!
# Removal of a set of ids

What removing replicas is for: the registry without the ids of a set, with
each node given back what was recorded for its replicas among them. One
after the other two sets are removed as their union. A call of
`remove_replica_from_deployment` that names the replica's own deployment,
its worker registered, removes the set of its id.
-/

set_option autoImplicit false

namespace ServingSystem.Head
open DeploymentManager StateExcept

attribute [ext] Registry

def Registry.share (g : Registry) (count : Replica → ℕ) (dead : String → Bool) (w : ℕ) : ℤ :=
  g.autoScaleMap.total (fun key replica =>
    if dead key && belongs w key then (count replica : ℤ) else 0)

def Registry.purge (g : Registry) (dead : String → Bool) : Registry :=
  { g with
    deployments := g.deployments.mapVal (fun _ dep =>
      { dep with replicas := dep.replicas.filter (fun r => !dead r.replicaNum) })
    replicaMap := g.replicaMap.filter (fun key _ => !dead key)
    autoScaleMap := g.autoScaleMap.filter (fun key _ => !dead key)
    nodeMap := g.nodeMap.mapVal (fun w =>
      NodeInfo.Node.use (-g.share Replica.numCpus dead w) (-g.share Replica.numGpus dead w)) }

section
variable (g : Registry) (dead : String → Bool)

theorem purge_deployments : (g.purge dead).deployments = g.deployments.mapVal (fun _ dep =>
    { dep with replicas := dep.replicas.filter (fun r => !dead r.replicaNum) }) := rfl

theorem purge_replicaMap :
    (g.purge dead).replicaMap = g.replicaMap.filter (fun key _ => !dead key) := rfl

theorem purge_autoScaleMap :
    (g.purge dead).autoScaleMap = g.autoScaleMap.filter (fun key _ => !dead key) := rfl

theorem purge_nodeMap : (g.purge dead).nodeMap = g.nodeMap.mapVal (fun w =>
    NodeInfo.Node.use (-g.share Replica.numCpus dead w) (-g.share Replica.numGpus dead w)) := rfl

end

theorem use_use (a b c d : ℤ) (node : Node) : NodeInfo.Node.use c d (NodeInfo.Node.use a b node) =
    NodeInfo.Node.use (a+c) (b+d) node := by
  simp [NodeInfo.Node.use, add_assoc]

theorem use_zero (node : Node) : NodeInfo.Node.use 0 0 node = node := by
  simp [NodeInfo.Node.use]

theorem share_purge (g : Registry) (count : Replica → ℕ) (s t : String → Bool) (w : ℕ) :
    g.share count s w+(g.purge s).share count t w =
      g.share count (fun key => s key || t key) w := by
  rw [Registry.share, Registry.share, purge_autoScaleMap, Dict.total_filter, ← Dict.total_add]
  apply Dict.total_congr
  intro key replica _
  cases hs : s key <;> cases ht : t key <;> simp [hs, ht]

theorem purge_purge (g : Registry) (s t : String → Bool) :
    (g.purge s).purge t = g.purge (fun key => s key || t key) := by
  apply Registry.ext
  · simp [purge_deployments, Dict.mapVal_mapVal, List.filter_filter, Bool.and_comm]
  · simp [purge_replicaMap, Dict.filter_filter]
  · simp [purge_autoScaleMap, Dict.filter_filter]
  · rw [purge_nodeMap, purge_nodeMap, purge_nodeMap, Dict.mapVal_mapVal]
    simp only [use_use, ← share_purge, neg_add]
  · rfl

theorem purge_comm (g : Registry) (s t : String → Bool) :
    (g.purge s).purge t = (g.purge t).purge s := by
  simp only [purge_purge, Bool.or_comm]

theorem purge_idem (g : Registry) (s : String → Bool) : (g.purge s).purge s = g.purge s := by
  simp only [purge_purge, Bool.or_self]

theorem purge_none {g : Registry} (hg : Coherent g) {dead : String → Bool}
    (h : ∀ key ∈ g.replicaMap.keys, dead key = false) : g.purge dead = g := by
  have hscaled : ∀ key replica, g.autoScaleMap.get key = some replica → dead key = false :=
    fun key replica hk => h key ((hg.scaled key).mp (Dict.mem_keys.mpr ⟨replica, hk⟩))
  have hshare : ∀ count w, g.share count dead w = 0 := by
    intro count w
    rw [Registry.share, Dict.total_congr (g := fun _ _ => 0)]
    · simp [Dict.total]
    · intro key replica hk
      simp [hscaled key replica hk]
  apply Registry.ext
  · rw [purge_deployments]
    apply Dict.mapVal_eq_self
    intro d dep hd
    have hall : ∀ r ∈ dep.replicas, (!dead r.replicaNum) = true := by
      intro r hr
      rw [h r.replicaNum (hg.mem_keys.mpr ⟨d, r, ⟨dep, hd, hr⟩, rfl⟩)]
      rfl
    rw [List.filter_eq_self.mpr hall]
  · rw [purge_replicaMap]
    apply Dict.filter_eq_self
    intro key r hk
    rw [h key (Dict.mem_keys.mpr ⟨r, hk⟩)]
    rfl
  · rw [purge_autoScaleMap]
    apply Dict.filter_eq_self
    intro key replica hk
    rw [hscaled key replica hk]
    rfl
  · rw [purge_nodeMap]
    apply Dict.mapVal_eq_self
    intro w node _
    simp only [hshare, neg_zero, use_zero]
  · rfl

theorem has_purged {g : Registry} {dead : String → Bool} {d : ℕ} {r : ReplicaInfo} :
    HasReplica (g.purge dead) d r ↔ HasReplica g d r ∧ dead r.replicaNum = false := by
  unfold HasReplica
  rw [purge_deployments, Dict.get_mapVal]
  cases g.deployments.get d with
  | none => simp
  | some dep => simp

theorem purge_coherent {g : Registry} (hg : Coherent g) (dead : String → Bool) :
    Coherent (g.purge dead) where
  listed := by
    intro key r
    simp only [has_purged]
    rw [purge_replicaMap, Dict.get_filter, Option.filter_eq_some_iff, hg.listed]
    constructor
    · rintro ⟨⟨rfl, d, hr⟩, hdead⟩
      exact ⟨rfl, d, hr, by simpa using hdead⟩
    · rintro ⟨rfl, d, hr, hdead⟩
      exact ⟨⟨rfl, d, hr⟩, by simp [hdead]⟩
  ids_nodup := by
    intro d dep hd
    rw [purge_deployments, Dict.get_mapVal] at hd
    obtain ⟨dep', hd', rfl⟩ := Option.map_eq_some_iff.mp hd
    exact (hg.ids_nodup d dep' hd').sublist (List.filter_sublist.map _)
  own := by
    intro d d' r h h'
    exact hg.own d d' r (has_purged.mp h).1 (has_purged.mp h').1
  scaled := by
    intro key
    rw [purge_autoScaleMap, purge_replicaMap, Dict.mem_keys_filter, Dict.mem_keys_filter,
      hg.scaled]

theorem names_purged {g : Registry} (hg : Coherent g) {d n w : ℕ} (h : NamesOwn g d n w)
    (dead : String → Bool) : NamesOwn (g.purge dead) d n w := by
  intro r hr
  rw [purge_replicaMap, Dict.get_filter, Option.filter_eq_some_iff] at hr
  have hnum := ((hg.listed _ r).mp hr.1).1
  rw [has_purged, hnum]
  exact ⟨h r hr.1, by simpa using hr.2⟩

theorem mem_purged_nodes {g : Registry} {dead : String → Bool} {w : ℕ} :
    w ∈ (g.purge dead).nodeMap.keys ↔ w ∈ g.nodeMap.keys := by
  rw [purge_nodeMap, Dict.keys_mapVal]

def only (key : String) : String → Bool := fun k => k = key

theorem not_only (key k : String) : (!only key k) = decide (k ≠ key) := by
  simp [only]

section
variable {g : Registry} {w n d : ℕ} {rep : Replica}

theorem share_only (ha : g.autoScaleMap.get (replicaId w n) = some rep) (count : Replica → ℕ)
    (w' : ℕ) : g.share count (only (replicaId w n)) w' = if w' = w then (count rep : ℤ) else 0 := by
  rw [Registry.share, Dict.total_single ha]
  · by_cases h : w' = w
    · subst h
      simp [only, belongs_replicaId.mpr rfl]
    · have hb : belongs w' (replicaId w n) = false :=
        Bool.eq_false_iff.mpr (fun hc => h (belongs_replicaId.mp hc))
      simp [hb, h]
  · intro j x hj
    simp [only, hj]

theorem removed_purge (hg : Coherent g) {r : ReplicaInfo} (hnum : r.replicaNum = replicaId w n)
    (hr : HasReplica g d r) (ha : g.autoScaleMap.get (replicaId w n) = some rep) :
    (g.removed d (replicaId w n)).charged w (-rep.numCpus) (-rep.numGpus) =
      g.purge (only (replicaId w n)) := by
  have hdeps : ((g.removed d (replicaId w n)).charged w (-rep.numCpus) (-rep.numGpus)).deployments =
      g.deployments.modify d (fun dep => { dep with
        replicas := dep.replicas.filter (fun r => r.replicaNum ≠ replicaId w n) }) := rfl
  have hnodes : ((g.removed d (replicaId w n)).charged w (-rep.numCpus) (-rep.numGpus)).nodeMap =
      g.nodeMap.modify w (NodeInfo.Node.use (-rep.numCpus) (-rep.numGpus)) := rfl
  apply Registry.ext
  · rw [hdeps, purge_deployments, Dict.modify_eq_mapVal]
    apply Dict.mapVal_congr
    intro d' dep hd
    by_cases h : d' = d
    · simp [h, only]
    · have hall : ∀ x ∈ dep.replicas, (!only (replicaId w n) x.replicaNum) = true := by
        intro x hx
        have hne : x.replicaNum ≠ replicaId w n := fun hc =>
          h (hg.unique ⟨dep, hd, hx⟩ hr (hc.trans hnum.symm)).1
        simp [only, hne]
      rw [if_neg h, List.filter_eq_self.mpr hall]
  · rw [purge_replicaMap]
    simp only [not_only]
    exact Dict.erase_eq_filter _ _
  · rw [purge_autoScaleMap]
    simp only [not_only]
    exact Dict.erase_eq_filter _ _
  · rw [hnodes, purge_nodeMap, Dict.modify_eq_mapVal]
    apply Dict.mapVal_congr
    intro w' node _
    simp only [share_only ha]
    by_cases h : w' = w
    · simp [h]
    · simp [h, use_zero]
  · rfl

/-- A removal that names its own deployment removes the set of its id; it
returns whether the id was known. -/
theorem remove_purges (hg : Coherent g) (ho : NamesOwn g d n w)
    (hw : replicaId w n ∈ g.replicaMap.keys → w ∈ g.nodeMap.keys) :
    removeReplicaFromDeployment d n w g =
      .ok (g.replicaMap.get (replicaId w n)).isSome (g.purge (only (replicaId w n))) := by
  rcases remove_cases hg ho with ⟨hk, h⟩ | ⟨r, rep, hnum, hr, ha, h⟩
  · rw [h, hk, purge_none hg]
    · rfl
    · intro key hkey
      have hne : key ≠ replicaId w n := by
        rintro rfl
        exact Dict.get_eq_none.mp hk hkey
      simp [only, hne]
  · have hk : g.replicaMap.get (replicaId w n) = some r := (hg.listed _ r).mpr ⟨hnum, d, hr⟩
    obtain ⟨node, hnode⟩ := Dict.mem_keys.mp (hw (Dict.mem_keys.mpr ⟨r, hk⟩))
    rw [h, hnode, hk, ← removed_purge hg hnum hr ha]
    rfl

end

def Hosted (g : Registry) : Prop :=
  ∀ key ∈ g.replicaMap.keys, ∃ w n, key = replicaId w n ∧ w ∈ g.nodeMap.keys

theorem Hosted.worker {g : Registry} (h : Hosted g) {w n : ℕ}
    (hk : replicaId w n ∈ g.replicaMap.keys) : w ∈ g.nodeMap.keys := by
  obtain ⟨w', n', he, hw⟩ := h _ hk
  rwa [(replicaId_inj.mp he).1]

theorem purge_hosted {g : Registry} (h : Hosted g) (dead : String → Bool) :
    Hosted (g.purge dead) := by
  intro key hk
  rw [purge_replicaMap, Dict.mem_keys_filter] at hk
  obtain ⟨w, n, he, hw⟩ := h key hk.1
  exact ⟨w, n, he, mem_purged_nodes.mpr hw⟩

structure Removal where
  deploymentId : ℕ
  replicaNum : ℕ
  workerId : ℕ
  deriving DecidableEq, Repr

def Removal.key (c : Removal) : String := replicaId c.workerId c.replicaNum

def removeEach : List Removal → Py Unit
  | [] => pure ()
  | c::calls => do
    let _ ← removeReplicaFromDeployment c.deploymentId c.replicaNum c.workerId
    removeEach calls

def named (calls : List Removal) : String → Bool := fun key => calls.any (fun c => key = c.key)

theorem named_iff {calls : List Removal} {key : String} :
    named calls key = true ↔ key ∈ calls.map Removal.key := by
  rw [named, List.any_eq_true, List.mem_map]
  refine exists_congr (fun c => and_congr_right (fun _ => ?_))
  rw [decide_eq_true_eq, eq_comm]

theorem purge_named_nil {g : Registry} (hg : Coherent g) : g.purge (named []) = g :=
  purge_none hg (fun _ _ => rfl)

/-- Calls that name each replica's own deployment, the workers of the known
ones registered, do not raise and remove the set of the ids they name,
whatever their order. -/
theorem removeEach_purges (calls : List Removal) {g : Registry} (hg : Coherent g)
    (ho : ∀ c ∈ calls, NamesOwn g c.deploymentId c.replicaNum c.workerId)
    (hw : ∀ c ∈ calls, c.key ∈ g.replicaMap.keys → c.workerId ∈ g.nodeMap.keys) :
    removeEach calls g = .ok () (g.purge (named calls)) := by
  induction calls generalizing g with
  | nil =>
    rw [purge_named_nil hg]
    rfl
  | cons c calls ih =>
    have hc : removeReplicaFromDeployment c.deploymentId c.replicaNum c.workerId g =
        .ok (g.replicaMap.get c.key).isSome (g.purge (only c.key)) :=
      remove_purges hg (ho c List.mem_cons_self) (hw c List.mem_cons_self)
    have hrest := ih (purge_coherent hg (only c.key))
      (fun c' hc' => names_purged hg (ho c' (List.mem_cons_of_mem _ hc')) _)
      (fun c' hc' hk => mem_purged_nodes.mpr
        (hw c' (List.mem_cons_of_mem _ hc') (Dict.mem_keys_filter.mp hk).1))
    rw [removeEach, bind_ok hc, hrest, purge_purge]
    rfl

def twoDeployments : Dict ℕ DeploymentHandle :=
  sampleDeployments.set 3 ⟨"/v1/chat/phi2", "1.0", 2, 1, []⟩

theorem twoDeployments_noReplicas : NoReplicas twoDeployments := by
  intro d dep hd
  rw [twoDeployments, Dict.get_set] at hd
  split at hd
  next => exact (Option.some.inj hd) ▸ rfl
  next => exact sampleDeployments_noReplicas d dep hd

def registered : Registry :=
  after (NodeInfo.addNode sampleNode) (Registry.idle twoDeployments)

def hosting : Registry :=
  after (addReplicaToDeployment 2 1 [⟨1, "50101"⟩] 2 1 "10.0.0.1") registered

theorem registered_coherent : Coherent registered :=
  have h := idle_coherent twoDeployments_noReplicas
  ⟨h.listed, h.ids_nodup, h.own, h.scaled⟩

theorem registered_deployment :
    registered.deployments.get 2 = some ⟨"/v1/chat/tinyllama", "1.0", 2, 1, []⟩ := rfl

theorem hosting_eq : hosting =
    (registered.placed 2 1 2 1 "10.0.0.1" ⟨1, "50101"⟩).charged 1 2 1 :=
  after_add registered_deployment 1 2 1 "10.0.0.1" ⟨1, "50101"⟩

theorem hosting_coherent : Coherent hosting := by
  rw [hosting_eq]
  exact coherent_charged (placed_coherent registered_coherent registered_deployment rfl) 1 2 1

theorem hosting_hosted : Hosted hosting := by
  intro key hk
  rw [hosting_eq, Registry.charged, Registry.placed, Dict.mem_keys_set] at hk
  rcases hk with rfl | hk
  · exact ⟨1, 1, rfl, by decide +kernel⟩
  · cases hk

end ServingSystem.Head
