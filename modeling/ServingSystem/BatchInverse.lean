import ServingSystem.Purge
import Mathlib.Tactic.Ring

/-!
# A batch added and removed again

`add_replica_to_deployment` records the resources of the request for each
replica of the batch and charges the worker once; the removals credit the
worker once for each. What is left of a batch that is removed is the
difference.
-/

set_option autoImplicit false

namespace ServingSystem.Head
open Protos (ReplicaContent)
open DeploymentManager StateExcept

structure Fresh (g : Registry) (w : ℕ) (rs : List ReplicaContent) : Prop where
  nodup : (rs.map ReplicaContent.replicaId).Nodup
  absent : ∀ p ∈ rs, g.replicaMap.get (replicaId w p.replicaId) = none

section
variable {g : Registry} {d w c u : ℕ} {a : String} {p : ReplicaContent} {rs : List ReplicaContent}

theorem Fresh.head (h : Fresh g w (p::rs)) :
    g.replicaMap.get (replicaId w p.replicaId) = none := h.absent p List.mem_cons_self

theorem Fresh.tail (h : Fresh g w (p::rs)) : Fresh (g.placed d w c u a p) w rs := by
  obtain ⟨hp, hrs⟩ := List.nodup_cons.mp h.nodup
  refine ⟨hrs, fun q hq => ?_⟩
  have hne : replicaId w q.replicaId ≠ replicaId w p.replicaId := fun hc =>
    hp ((replicaId_inj.mp hc).2 ▸ List.mem_map_of_mem hq)
  rw [Registry.placed, Dict.get_set_ne _ _ hne]
  exact h.absent q (List.mem_cons_of_mem _ hq)

theorem placed_deployment {dep : DeploymentHandle} (hd : g.deployments.get d = some dep) :
    ∃ dep', (g.placed d w c u a p).deployments.get d = some dep' := by
  rw [Registry.placed, Dict.get_modify_self, hd]
  exact ⟨_, rfl⟩

theorem placedAll_coherent (rs : List ReplicaContent) {g : Registry} {dep : DeploymentHandle}
    (hg : Coherent g) (hd : g.deployments.get d = some dep) (hf : Fresh g w rs) :
    Coherent (g.placedAll d w c u a rs) := by
  induction rs generalizing g dep with
  | nil => exact hg
  | cons p rs ih =>
    obtain ⟨dep', hd'⟩ := placed_deployment hd
    exact ih (placed_coherent hg hd hf.head) hd' hf.tail

theorem names_placed {dep : DeploymentHandle} (hd : g.deployments.get d = some dep) {n : ℕ}
    (h : NamesOwn g d n w) : NamesOwn (g.placed d w c u a p) d n w := by
  intro r hr
  rw [Registry.placed, Dict.get_set] at hr
  rw [has_placed hd]
  split at hr
  next => exact Or.inr ⟨rfl, (Option.some.inj hr).symm⟩
  next => exact Or.inl (h r hr)

theorem names_placedAll (rs : List ReplicaContent) {g : Registry} {dep : DeploymentHandle}
    (hd : g.deployments.get d = some dep) {n : ℕ} (h : NamesOwn g d n w) :
    NamesOwn (g.placedAll d w c u a rs) d n w := by
  induction rs generalizing g dep with
  | nil => exact h
  | cons p rs ih =>
    obtain ⟨dep', hd'⟩ := placed_deployment hd
    exact ih hd' (names_placed hd h)

theorem charged_charged (g : Registry) (w : ℕ) (a b x y : ℤ) :
    (g.charged w a b).charged w x y = g.charged w (a+x) (b+y) := by
  simp only [Registry.charged, Dict.modify_modify, use_use]

theorem charged_zero (g : Registry) (w : ℕ) : g.charged w 0 0 = g := by
  simp only [Registry.charged, Dict.modify_eq_mapVal, use_zero, ite_self]
  rw [Dict.mapVal_eq_self (fun _ _ _ => rfl)]

theorem purge_charged (g : Registry) (w : ℕ) (x y : ℤ) (dead : String → Bool) :
    (g.charged w x y).purge dead = (g.purge dead).charged w x y := by
  have hshare : ∀ count, (g.charged w x y).share count dead = g.share count dead := fun _ => rfl
  apply Registry.ext
  · rfl
  · rfl
  · rfl
  · rw [purge_nodeMap, hshare, hshare]
    refine Dict.mapVal_modify _ _ _ (fun node => ?_)
    rw [use_use, use_use, add_comm x, add_comm y]
  · rfl

theorem share_placed (ha : g.autoScaleMap.get (replicaId w p.replicaId) = none)
    {dead : String → Bool} (hdead : dead (replicaId w p.replicaId) = true)
    (count : Replica → ℕ) (w' : ℕ) : (g.placed d w c u a p).share count dead w' =
      g.share count dead w'+(if w' = w then (count ⟨0, 0, c, u⟩ : ℤ) else 0) := by
  rw [Registry.share, Registry.placed, Dict.total_set_absent _ _ _ _ ha]
  simp only [hdead, Bool.true_and, belongs_replicaId]
  rfl

/-- Of a fresh replica that is removed with the set only its credit is left. -/
theorem purge_placed (hg : Coherent g) (hk : g.replicaMap.get (replicaId w p.replicaId) = none)
    {dead : String → Bool} (hdead : dead (replicaId w p.replicaId) = true) :
    (g.placed d w c u a p).purge dead =
      { (g.purge dead).charged w (-c) (-u) with objects := g.objects+1 } := by
  have ha : g.autoScaleMap.get (replicaId w p.replicaId) = none := by
    rw [Dict.get_eq_none, hg.scaled]
    exact Dict.get_eq_none.mp hk
  have hgone : (!dead (replicaId w p.replicaId)) = false := by rw [hdead, Bool.not_true]
  apply Registry.ext
  · show ((g.placed d w c u a p).purge dead).deployments = (g.purge dead).deployments
    rw [purge_deployments, purge_deployments, Registry.placed, Dict.modify_eq_mapVal,
      Dict.mapVal_mapVal]
    apply Dict.mapVal_congr
    intro d' dep _
    by_cases h : d' = d
    · simp [h, newReplica, hdead]
    · simp [h]
  · show ((g.placed d w c u a p).purge dead).replicaMap = (g.purge dead).replicaMap
    exact Dict.filter_set_absent (p := fun key _ => !dead key) hk hgone
  · show ((g.placed d w c u a p).purge dead).autoScaleMap = (g.purge dead).autoScaleMap
    exact Dict.filter_set_absent (p := fun key _ => !dead key) ha hgone
  · show ((g.placed d w c u a p).purge dead).nodeMap =
      (g.purge dead).nodeMap.modify w (NodeInfo.Node.use (-c) (-u))
    rw [purge_nodeMap, purge_nodeMap, Dict.modify_eq_mapVal, Dict.mapVal_mapVal]
    apply Dict.mapVal_congr
    intro w' node _
    rw [share_placed ha hdead, share_placed ha hdead]
    by_cases h : w' = w
    · subst h
      rw [if_pos rfl, if_pos rfl, if_pos rfl, use_use, neg_add, neg_add]
    · simp [h]
  · rfl

theorem purge_placedAll (rs : List ReplicaContent) {g : Registry} {dep : DeploymentHandle}
    (hg : Coherent g) (hd : g.deployments.get d = some dep) (hf : Fresh g w rs)
    {dead : String → Bool} (hdead : ∀ p ∈ rs, dead (replicaId w p.replicaId) = true) :
    (g.placedAll d w c u a rs).purge dead =
      { (g.purge dead).charged w (-(rs.length*c)) (-(rs.length*u)) with
        objects := g.objects+rs.length } := by
  induction rs generalizing g dep with
  | nil =>
    simp only [List.length_nil, Nat.cast_zero, zero_mul, neg_zero, charged_zero]
    rfl
  | cons p rs ih =>
    obtain ⟨dep', hd'⟩ := placed_deployment hd
    rw [Registry.placedAll, ih (placed_coherent hg hd hf.head) hd' hf.tail
      (fun q hq => hdead q (List.mem_cons_of_mem _ hq)),
      purge_placed hg hf.head (hdead p List.mem_cons_self)]
    have hsum := charged_charged (g.purge dead) w (-c) (-u) (-(rs.length*c)) (-(rs.length*u))
    have hcount : ∀ x : ℕ, -(x : ℤ)+-(rs.length*x) = -((rs.length+1 : ℕ)*x) := by
      intro x
      push_cast
      ring
    rw [hcount, hcount] at hsum
    apply Registry.ext
    · rfl
    · rfl
    · rfl
    · have hnodes := congrArg Registry.nodeMap hsum
      exact hnodes
    · show g.objects+1+rs.length = g.objects+(rs.length+1)
      omega

end

def removals (d w : ℕ) (ns : List ℕ) : List Removal := ns.map (fun n => ⟨d, n, w⟩)

/-- The batch is added and each of its replicas removed, in the given order,
without an error, and everything is as it was. -/
def Restores (g : Registry) (d w c u : ℕ) (a : String) (rs : List ReplicaContent)
    (ns : List ℕ) : Prop :=
  ∃ g₁ g₂, addReplicaToDeployment d w rs c u a g = .ok true g₁ ∧
    removeEach (removals d w ns) g₁ = .ok () g₂ ∧ Same g g₂

section
variable {g : Registry} {d w c u : ℕ} {a : String} {rs : List ReplicaContent} {ns : List ℕ}

theorem named_removals (hperm : ns.Perm (rs.map ReplicaContent.replicaId)) {key : String} :
    named (removals d w ns) key = true ↔ ∃ p ∈ rs, replicaId w p.replicaId = key := by
  rw [named_iff, removals, List.map_map, (hperm.map _).mem_iff, List.map_map, List.mem_map]
  rfl

/-- Neither call raises, and the worker keeps the difference of one charge
and a credit for each replica. -/
theorem batch_roundtrip {dep : DeploymentHandle} (hg : Coherent g)
    (hd : g.deployments.get d = some dep) (hw : w ∈ g.nodeMap.keys) (hf : Fresh g w rs)
    (hperm : ns.Perm (rs.map ReplicaContent.replicaId)) :
    ∃ g₁, addReplicaToDeployment d w rs c u a g = .ok true g₁ ∧
      removeEach (removals d w ns) g₁ = .ok ()
        { g.charged w (-(rs.length*c)+c) (-(rs.length*u)+u) with
          objects := g.objects+rs.length } := by
  obtain ⟨node, hnode⟩ := Dict.mem_keys.mp hw
  refine ⟨(g.placedAll d w c u a rs).charged w c u, ?_, ?_⟩
  · rw [add_batch hd, hnode]
  have hmem : ∀ key ∈ g.replicaMap.keys, named (removals d w ns) key = false := by
    intro key hk
    rw [Bool.eq_false_iff, ne_eq, named_removals hperm]
    rintro ⟨p, hp, rfl⟩
    exact Dict.get_eq_none.mp (hf.absent p hp) hk
  have hown : ∀ n ∈ ns, NamesOwn g d n w := by
    intro n hn r hr
    obtain ⟨p, hp, rfl⟩ := List.mem_map.mp (hperm.mem_iff.mp hn)
    rw [hf.absent p hp] at hr
    cases hr
  have hnodes : w ∈ ((g.placedAll d w c u a rs).charged w c u).nodeMap.keys := by
    rw [Registry.charged, Dict.keys_modify, placedAll_nodes]
    exact hw
  have hpurged : ((g.placedAll d w c u a rs).charged w c u).purge (named (removals d w ns)) =
      { g.charged w (-(rs.length*c)+c) (-(rs.length*u)+u) with
        objects := g.objects+rs.length } := by
    rw [purge_charged, purge_placedAll rs hg hd hf (fun p hp =>
      (named_removals hperm).mpr ⟨p, hp, rfl⟩), purge_none hg hmem]
    have hsum := charged_charged g w (-(rs.length*c)) (-(rs.length*u)) c u
    rw [← hsum]
    rfl
  rw [← hpurged]
  refine removeEach_purges _ (coherent_charged (placedAll_coherent rs hg hd hf) w c u)
    (fun x hx => ?_) (fun x hx _ => ?_)
  · obtain ⟨n, hn, rfl⟩ := List.mem_map.mp hx
    exact names_placedAll rs hd (hown n hn)
  · obtain ⟨n, hn, rfl⟩ := List.mem_map.mp hx
    exact hnodes

theorem charged_same (hw : w ∈ g.nodeMap.keys) (x y : ℤ) (k : ℕ) :
    Same g { g.charged w x y with objects := k } ↔ x = 0 ∧ y = 0 := by
  obtain ⟨node, hnode⟩ := Dict.mem_keys.mp hw
  have hget : ({ g.charged w x y with objects := k } : Registry).nodeMap.get w =
      some (NodeInfo.Node.use x y node) := by
    show (g.nodeMap.modify w _).get w = _
    rw [Dict.get_modify_self, hnode]
    rfl
  constructor
  · intro h
    have hused := h.used w
    rw [hget, hnode, Option.map_some, Option.map_some, Option.some.injEq] at hused
    have hx := congrArg UsedResources.numCpus hused
    have hy := congrArg UsedResources.numGpus hused
    simp only [NodeInfo.Node.use, add_eq_left] at hx hy
    exact ⟨hx, hy⟩
  · rintro ⟨rfl, rfl⟩
    rw [charged_zero]
    exact ⟨rfl, rfl, rfl, fun _ => rfl⟩

end

/-- The batch has one replica, or its replicas need no resources. -/
theorem batch_inverse_iff (g : Registry) (hg : Coherent g) (d w c u : ℕ) (a : String)
    (hd : d ∈ g.deployments.keys) (hw : w ∈ g.nodeMap.keys) (rs : List ReplicaContent)
    (hf : Fresh g w rs) (ns : List ℕ) (hperm : ns.Perm (rs.map ReplicaContent.replicaId)) :
    Restores g d w c u a rs ns ↔ rs.length = 1 ∨ (c = 0 ∧ u = 0) := by
  obtain ⟨dep, hdep⟩ := Dict.mem_keys.mp hd
  obtain ⟨g₁, hadd, hrem⟩ := batch_roundtrip (c := c) (u := u) (a := a) hg hdep hw hf hperm
  -- Both calls are functions, so the states they reach are the ones computed.
  have hsame : Restores g d w c u a rs ns ↔
      Same g { g.charged w (-(rs.length*c)+c) (-(rs.length*u)+u) with
        objects := g.objects+rs.length } := by
    constructor
    · rintro ⟨g₁', g₂, hadd', hrem', h⟩
      rw [hadd] at hadd'
      cases hadd'
      rw [hrem] at hrem'
      cases hrem'
      exact h
    · exact fun h => ⟨g₁, _, hadd, hrem, h⟩
  have hzero : ∀ x : ℕ, (-(rs.length*x)+x : ℤ) = 0 ↔ rs.length = 1 ∨ x = 0 := by
    intro x
    have h : (-(rs.length*x)+x : ℤ) = (1-rs.length)*x := by ring
    rw [h, mul_eq_zero, sub_eq_zero, Nat.cast_eq_zero, eq_comm, Nat.cast_eq_one]
  rw [hsame, charged_same hw, hzero, hzero, or_and_left]

def pair : List ReplicaContent := [⟨2, "50102"⟩, ⟨3, "50103"⟩]

theorem pair_fresh : Fresh hosting 1 pair := ⟨by decide, by decide +kernel⟩

theorem batch_inverse_iff_sample : Restores hosting 2 1 2 1 "10.0.0.1" pair [3, 2] ↔
    pair.length = 1 ∨ (2 = 0 ∧ 1 = 0) :=
  batch_inverse_iff hosting hosting_coherent 2 1 2 1 "10.0.0.1" (by decide +kernel)
    (by decide +kernel) pair pair_fresh [3, 2] (by decide)

/-- The node is charged two CPUs for the pair and credited four, so that the
replica it still runs counts for none. -/
theorem pair_credited_twice : Coherent hosting ∧ Fresh hosting 1 pair ∧ (∃ g₁ g₂,
      addReplicaToDeployment 2 1 pair 2 1 "10.0.0.1" hosting = .ok true g₁ ∧
      removeEach (removals 2 1 [2, 3]) g₁ = .ok () g₂ ∧
      (hosting.nodeMap.get 1).map Node.usedResources = some ⟨2, 1⟩ ∧
      (g₂.nodeMap.get 1).map Node.usedResources = some ⟨0, 0⟩) ∧
    ¬ Restores hosting 2 1 2 1 "10.0.0.1" pair [2, 3] := by
  refine ⟨hosting_coherent, pair_fresh, ⟨_, _, rfl, rfl, by decide +kernel, by decide +kernel⟩, ?_⟩
  rintro ⟨g₁, g₂, h₁, h₂, h⟩
  cases h₁
  cases h₂
  exact absurd (h.used 1) (by decide +kernel)

end ServingSystem.Head
