import ServingSystem.FailedUpdates

/-!
# Removal of a deployment

`remove_deployment` takes the deployment out and then reads a field that its
records do not have. The reference is the removal of its replicas one by one,
which removes the set of their ids and leaves the deployment empty.
-/

set_option autoImplicit false

namespace ServingSystem.Head
open DeploymentManager StateExcept

structure Covers (d : ℕ) (dep : DeploymentHandle) (calls : List Removal) : Prop where
  own : ∀ c ∈ calls, c.deploymentId = d
  ids : (calls.map Removal.key).Perm (dep.replicas.map ReplicaInfo.replicaNum)

def Registry.withoutDeployment (g : Registry) (d : ℕ) : Registry :=
  { g with deployments := g.deployments.erase d }

section
variable {g : Registry} {d : ℕ} {dep : DeploymentHandle} {calls : List Removal}

theorem Covers.mem (hc : Covers d dep calls) {key : String} :
    named calls key = true ↔ ∃ r ∈ dep.replicas, r.replicaNum = key := by
  rw [named_iff, hc.ids.mem_iff, List.mem_map]

theorem Covers.namesOwn (hg : Coherent g) (hd : g.deployments.get d = some dep)
    (hc : Covers d dep calls) :
    ∀ c ∈ calls, NamesOwn g c.deploymentId c.replicaNum c.workerId := by
  intro c hm r hr
  have hkey : c.key ∈ dep.replicas.map ReplicaInfo.replicaNum :=
    hc.ids.mem_iff.mp (List.mem_map_of_mem hm)
  obtain ⟨x, hx, hnum⟩ := List.mem_map.mp hkey
  obtain ⟨hrnum, d', hr'⟩ := (hg.listed _ r).mp hr
  have hx' : HasReplica g d x := ⟨dep, hd, hx⟩
  rw [hc.own c hm, (hg.unique hr' hx' (hrnum.trans hnum.symm)).2]
  exact hx'

theorem exists_removals (hh : Hosted g) (d : ℕ) {keys : List String}
    (hk : ∀ key ∈ keys, key ∈ g.replicaMap.keys) : ∃ calls : List Removal,
      (∀ c ∈ calls, c.deploymentId = d) ∧ calls.map Removal.key = keys := by
  induction keys with
  | nil => exact ⟨[], nofun, rfl⟩
  | cons key keys ih =>
    obtain ⟨calls, hown, hids⟩ := ih (fun k h => hk k (List.mem_cons_of_mem key h))
    obtain ⟨w, n, rfl, -⟩ := hh key (hk key List.mem_cons_self)
    refine ⟨⟨d, n, w⟩::calls, List.forall_mem_cons.mpr ⟨rfl, hown⟩, ?_⟩
    rw [List.map_cons, hids]
    rfl

/-- In a registry whose workers are registered there are such calls. -/
theorem exists_covers (hg : Coherent g) (hh : Hosted g) (hd : g.deployments.get d = some dep) :
    ∃ calls, Covers d dep calls := by
  have hk : ∀ key ∈ dep.replicas.map ReplicaInfo.replicaNum, key ∈ g.replicaMap.keys := by
    intro key hkey
    obtain ⟨r, hr, rfl⟩ := List.mem_map.mp hkey
    exact hg.mem_keys.mpr ⟨d, r, ⟨dep, hd, hr⟩, rfl⟩
  obtain ⟨calls, hown, hids⟩ := exists_removals hh d hk
  exact ⟨calls, hown, hids ▸ List.Perm.refl _⟩

/-- One by one, the replicas of a deployment go without an error; the
deployment is then empty, and the others list what they listed. -/
theorem one_by_one_empties (hg : Coherent g) (hh : Hosted g)
    (hd : g.deployments.get d = some dep) (hc : Covers d dep calls) :
    removeEach calls g = .ok () (g.purge (named calls)) ∧
    (g.purge (named calls)).deployments.get d = some { dep with replicas := [] } ∧
    ∀ d' ≠ d, (g.purge (named calls)).deployments.get d' = g.deployments.get d' := by
  refine ⟨removeEach_purges calls hg (hc.namesOwn hg hd) (fun _ _ hk => hh.worker hk), ?_,
    fun d' hne => ?_⟩
  · have hall : dep.replicas.filter (fun r => !named calls r.replicaNum) = [] := by
      refine List.filter_eq_nil_iff.mpr (fun r hr => ?_)
      rw [hc.mem.mpr ⟨r, hr, rfl⟩]
      simp
    rw [purge_deployments, Dict.get_mapVal, hd, Option.map_some, hall]
  · rw [purge_deployments, Dict.get_mapVal]
    cases hd' : g.deployments.get d' with
    | none => rfl
    | some dep' =>
      have hall : ∀ r ∈ dep'.replicas, (!named calls r.replicaNum) = true := by
        intro r hr
        rw [Bool.not_eq_true', Bool.eq_false_iff]
        intro hn
        obtain ⟨x, hx, hnum⟩ := hc.mem.mp hn
        exact hne (hg.unique ⟨dep', hd', hr⟩ ⟨dep, hd, hx⟩ hnum.symm).1
      rw [Option.map_some, List.filter_eq_self.mpr hall]

theorem bulk_absent (hd : g.deployments.get d = none) : removeDeployment d g = .ok false g := by
  have he : g.withoutDeployment d = g := by
    rw [Registry.withoutDeployment, Dict.erase_absent hd]
  simp only [removeDeployment, get_bind, modify_bind, hd]
  exact congrArg (EStateM.Result.ok false) he

theorem bulk_empty (hd : g.deployments.get d = some dep) (he : dep.replicas = []) :
    removeDeployment d g = .ok true (g.withoutDeployment d) := by
  simp only [removeDeployment, get_bind, modify_bind, hd, he]
  rfl

theorem bulk_raises (hd : g.deployments.get d = some dep) (he : dep.replicas ≠ []) :
    removeDeployment d g = .error .attributeError (g.withoutDeployment d) := by
  obtain ⟨r, rs, hrs⟩ := List.exists_cons_of_ne_nil he
  simp only [removeDeployment, get_bind, modify_bind, hd, hrs]
  rfl

/-- After the error the ids of the deployment are in both maps, and no
removal of one of them succeeds. -/
theorem bulk_strands (hg : Coherent g) (hd : g.deployments.get d = some dep)
    {r : ReplicaInfo} (hr : r ∈ dep.replicas) :
    r.replicaNum ∈ (g.withoutDeployment d).replicaMap.keys ∧
    r.replicaNum ∈ (g.withoutDeployment d).autoScaleMap.keys ∧
    ∀ d' n w, replicaId w n = r.replicaNum →
      Fails (removeReplicaFromDeployment d' n w) (g.withoutDeployment d) := by
  have hown : HasReplica g d r := ⟨dep, hd, hr⟩
  have hk : r.replicaNum ∈ g.replicaMap.keys := hg.mem_keys.mpr ⟨d, r, hown, rfl⟩
  refine ⟨hk, (hg.scaled _).mpr hk, fun d' n w hkey => ?_⟩
  by_contra hok
  obtain ⟨x, dep', hx, hd', hany⟩ := (remove_succeeds.mp hok).listed
  obtain ⟨y, hy, hyx⟩ := List.any_eq_true.mp hany
  have hgone : (g.withoutDeployment d).deployments.get d' =
      if d' = d then none else g.deployments.get d' := Dict.get_erase _ _ _
  rw [hgone] at hd'
  split at hd'
  next => cases hd'
  -- Another deployment would have to list the id too.
  next hne =>
    have hxnum : x.replicaNum = r.replicaNum := ((hg.listed _ x).mp hx).1.trans hkey
    have hynum : y.replicaNum = x.replicaNum := by
      simp only [ReplicaInfo.eq, decide_eq_true_eq] at hyx
      exact hyx.1
    exact hne (hg.unique ⟨dep', hd', hy⟩ hown (hynum.trans hxnum)).1

end

/-- The bulk removal does what the removals one by one and the deletion of
the empty deployment do. -/
def RemovesWhole (g : Registry) (d : ℕ) : Prop :=
  match g.deployments.get d with
  | none => removeDeployment d g = .ok false g
  | some dep => ∃ g', removeDeployment d g = .ok true g' ∧
      (∀ calls, Covers d dep calls → ∃ g₁, removeEach calls g = .ok () g₁ ∧
        Same (g₁.withoutDeployment d) g') ∧
      ∀ d' ≠ d, g'.deployments.get d' = g.deployments.get d'

/-- The deployment is unknown or lists no replica. -/
theorem whole_removal_iff (g : Registry) (d : ℕ) : RemovesWhole g d ↔
    ∀ dep, g.deployments.get d = some dep → dep.replicas = [] := by
  unfold RemovesWhole
  cases hd : g.deployments.get d with
  | none => exact ⟨fun _ _ h => (by cases h), fun _ => bulk_absent hd⟩
  | some dep =>
    constructor
    · rintro ⟨g', hok, -⟩ dep' hdep
      obtain rfl := Option.some.inj hdep
      by_contra he
      rw [bulk_raises hd he] at hok
      cases hok
    · intro h
      have he := h dep rfl
      refine ⟨g.withoutDeployment d, bulk_empty hd he, fun calls hc => ?_, fun d' hne => ?_⟩
      · have hnil : calls = [] := by
          have hids := hc.ids
          rw [he, List.map_nil, List.perm_nil, List.map_eq_nil_iff] at hids
          exact hids
        subst hnil
        exact ⟨g, rfl, Same.refl _⟩
      · exact Dict.get_erase_ne _ hne

/-- One replica: the deployment is gone, and the replica is in the map. -/
theorem populated_removal_raises : Coherent hosting ∧ Hosted hosting ∧ (∃ g',
      removeDeployment 2 hosting = .error .attributeError g' ∧
      g'.deployments.get 2 = none ∧ g'.replicaMap.keys = ["1#1"]) ∧
    ¬ RemovesWhole hosting 2 := by
  refine ⟨hosting_coherent, hosting_hosted, ⟨_, rfl, rfl, by decide +kernel⟩, ?_⟩
  rintro ⟨g', hok, -⟩
  cases hok

end ServingSystem.Head
