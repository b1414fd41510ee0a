import ServingSystem.Registry

/-!
# Coherence of the registry

The deployments' lists, the replica map and the autoscaler's map hold the
same replica ids, each once. One addition of a fresh id and one removal that
names the replica's own deployment keep this; their effects are stated here
once, and no later proof looks into the operations.
-/

set_option autoImplicit false

namespace ServingSystem.Head
open Protos (ReplicaContent)
open DeploymentManager StateExcept

def HasReplica (g : Registry) (d : ℕ) (r : ReplicaInfo) : Prop :=
  ∃ dep, g.deployments.get d = some dep ∧ r ∈ dep.replicas

structure Coherent (g : Registry) : Prop where
  listed : ∀ k r, g.replicaMap.get k = some r ↔ r.replicaNum = k ∧ ∃ d, HasReplica g d r
  ids_nodup : ∀ d dep, g.deployments.get d = some dep →
    (dep.replicas.map ReplicaInfo.replicaNum).Nodup
  own : ∀ d d' r, HasReplica g d r → HasReplica g d' r → d = d'
  scaled : ∀ k, k ∈ g.autoScaleMap.keys ↔ k ∈ g.replicaMap.keys

/-- A removal of a present replica names its own deployment. -/
def NamesOwn (g : Registry) (deploymentId replicaNum workerId : ℕ) : Prop :=
  ∀ r, g.replicaMap.get (replicaId workerId replicaNum) = some r → HasReplica g deploymentId r

instance (g : Registry) (d n w : ℕ) : Decidable (NamesOwn g d n w) :=
  match hr : g.replicaMap.get (replicaId w n), hd : g.deployments.get d with
  | none, _ => isTrue (by simp [NamesOwn, hr])
  | some _, none => isFalse (by simp [NamesOwn, HasReplica, hr, hd])
  | some r, some dep => decidable_of_iff (r ∈ dep.replicas) (by simp [NamesOwn, HasReplica, hr, hd])

def Registry.placed (g : Registry) (deploymentId workerId numCpus numGpus : ℕ)
    (workerAddress : String) (replica : ReplicaContent) : Registry :=
  { g with
    deployments := g.deployments.modify deploymentId (fun dep =>
      { dep with replicas := dep.replicas ++ [newReplica g workerId workerAddress replica] })
    replicaMap := g.replicaMap.set (replicaId workerId replica.replicaId)
      (newReplica g workerId workerAddress replica)
    autoScaleMap := g.autoScaleMap.set (replicaId workerId replica.replicaId)
      ⟨0, 0, numCpus, numGpus⟩
    objects := g.objects+1 }

def Registry.placedAll (g : Registry) (d w c u : ℕ) (a : String) : List ReplicaContent → Registry
  | [] => g
  | p::rs => (g.placed d w c u a p).placedAll d w c u a rs

def Registry.removed (g : Registry) (deploymentId : ℕ) (key : String) : Registry :=
  { g with
    deployments := g.deployments.modify deploymentId (fun dep =>
      { dep with replicas := dep.replicas.filter (fun r => r.replicaNum ≠ key) })
    replicaMap := g.replicaMap.erase key
    autoScaleMap := g.autoScaleMap.erase key }

def Registry.charged (g : Registry) (workerId : ℕ) (numCpus numGpus : ℤ) : Registry :=
  { g with nodeMap := g.nodeMap.modify workerId (NodeInfo.Node.use numCpus numGpus) }

theorem add_missing {g : Registry} {d : ℕ} (hd : g.deployments.get d = none) (w c u : ℕ)
    (rs : List ReplicaContent) (a : String) :
    addReplicaToDeployment d w rs c u a g = .ok false g := by
  rw [addReplicaToDeployment, get_bind, hd]
  rfl

theorem addReplicas_eq (d w c u : ℕ) (a : String) (rs : List ReplicaContent) (g : Registry) :
    addReplicas d w c u a rs g = .ok () (g.placedAll d w c u a rs) := by
  induction rs generalizing g with
  | nil => rfl
  | cons p rs ih => exact ih (g.placed d w c u a p)

theorem placedAll_nodes {d w c u : ℕ} {a : String} (rs : List ReplicaContent) (g : Registry) :
    (g.placedAll d w c u a rs).nodeMap = g.nodeMap := by
  induction rs generalizing g with
  | nil => rfl
  | cons p rs ih => exact ih (g.placed d w c u a p)

theorem placedAll_objects {d w c u : ℕ} {a : String} (rs : List ReplicaContent) (g : Registry) :
    (g.placedAll d w c u a rs).objects = g.objects+rs.length := by
  induction rs generalizing g with
  | nil => rfl
  | cons p rs ih =>
    have hone : (g.placed d w c u a p).objects = g.objects+1 := rfl
    rw [Registry.placedAll, ih, hone, List.length_cons]
    omega

theorem add_batch {g : Registry} {d : ℕ} {dep : DeploymentHandle}
    (hd : g.deployments.get d = some dep) (w c u : ℕ) (a : String) (rs : List ReplicaContent) :
    addReplicaToDeployment d w rs c u a g =
      match g.nodeMap.get w with
      | none => .error .keyError (g.placedAll d w c u a rs)
      | some _ => .ok true ((g.placedAll d w c u a rs).charged w c u) := by
  have hl := addReplicas_eq d w c u a rs g
  have hu : NodeInfo.updateResources w c u true (g.placedAll d w c u a rs) =
      match (g.placedAll d w c u a rs).nodeMap.get w with
      | none => .error .keyError (g.placedAll d w c u a rs)
      | some _ => .ok () ((g.placedAll d w c u a rs).charged w c u) := rfl
  rw [placedAll_nodes] at hu
  simp only [addReplicaToDeployment, get_bind, hd, bind_ok hl]
  cases hw : g.nodeMap.get w with
  | none =>
    rw [hw] at hu
    exact bind_error hu
  | some node =>
    rw [hw] at hu
    exact bind_ok hu

theorem add_one {g : Registry} {d : ℕ} {dep : DeploymentHandle}
    (hd : g.deployments.get d = some dep) (w c u : ℕ) (a : String) (r : ReplicaContent) :
    addReplicaToDeployment d w [r] c u a g =
      match g.nodeMap.get w with
      | none => .error .keyError (g.placed d w c u a r)
      | some _ => .ok true ((g.placed d w c u a r).charged w c u) :=
  add_batch hd w c u a [r]

theorem after_add_missing {g : Registry} {d : ℕ} (hd : g.deployments.get d = none)
    (w c u : ℕ) (a : String) (p : ReplicaContent) :
    after (addReplicaToDeployment d w [p] c u a) g = g := by
  rw [after, add_missing hd]
  rfl

/-- The node is charged if the head knows it, and otherwise the call raises. -/
theorem after_add {g : Registry} {d : ℕ} {dep : DeploymentHandle}
    (hd : g.deployments.get d = some dep) (w c u : ℕ) (a : String) (p : ReplicaContent) :
    after (addReplicaToDeployment d w [p] c u a) g = (g.placed d w c u a p).charged w c u := by
  rw [after, add_one hd]
  cases hw : g.nodeMap.get w with
  | none =>
    have hm : (g.placed d w c u a p).nodeMap.get w = none := hw
    rw [Registry.charged, Dict.modify_absent hm]
    rfl
  | some node => rfl

/-- With distinct ids, `list.remove` drops the one record of that id. -/
theorem eraseP_eq_filter {l : List ReplicaInfo} (hn : (l.map ReplicaInfo.replicaNum).Nodup)
    {r : ReplicaInfo} (hr : r ∈ l) :
    l.eraseP (fun x => x.eq r) = l.filter (fun x => x.replicaNum ≠ r.replicaNum) := by
  induction l with
  | nil => cases hr
  | cons x l ih =>
    obtain ⟨hx, hl⟩ := List.nodup_cons.mp hn
    rcases List.mem_cons.mp hr with rfl | hm
    · have hall : ∀ y ∈ l, y.replicaNum ≠ r.replicaNum := fun y hy hc =>
        hx (List.mem_map.mpr ⟨y, hy, hc⟩)
      rw [List.eraseP_cons_of_pos (by simp [ReplicaInfo.eq]), List.filter_cons_of_neg (by simp),
        List.filter_eq_self.mpr (fun y hy => by simpa using hall y hy)]
    · have hne : x.replicaNum ≠ r.replicaNum := fun hc => hx (List.mem_map.mpr ⟨r, hm, hc.symm⟩)
      rw [List.eraseP_cons_of_neg (by simp [ReplicaInfo.eq, hne]),
        List.filter_cons_of_pos (by simpa using hne), ih hl hm]

theorem remove_unknown {g : Registry} {w n : ℕ} (hk : g.replicaMap.get (replicaId w n) = none)
    (d : ℕ) : removeReplicaFromDeployment d n w g = .ok false g := by
  have he : { g with replicaMap := g.replicaMap.erase (replicaId w n) } = g := by
    rw [Dict.erase_absent hk]
  rw [removeReplicaFromDeployment, get_bind, modify_bind, get_bind, hk, he]
  rfl

theorem Coherent.mem_keys {g : Registry} (hg : Coherent g) {k : String} :
    k ∈ g.replicaMap.keys ↔ ∃ d r, HasReplica g d r ∧ r.replicaNum = k := by
  simp only [Dict.mem_keys, hg.listed]
  constructor
  · rintro ⟨r, hk, d, hl⟩
    exact ⟨d, r, hl, hk⟩
  · rintro ⟨d, r, hl, hk⟩
    exact ⟨r, hk, d, hl⟩

/-- Two records of one id are the same, and in the same list. -/
theorem Coherent.unique {g : Registry} (hg : Coherent g) {d d' : ℕ} {r r' : ReplicaInfo}
    (h : HasReplica g d r) (h' : HasReplica g d' r') (hr : r.replicaNum = r'.replicaNum) :
    d = d' ∧ r = r' := by
  have hm := (hg.listed r.replicaNum r).mpr ⟨rfl, d, h⟩
  have hm' := (hg.listed r.replicaNum r').mpr ⟨hr.symm, d', h'⟩
  obtain rfl := Option.some.inj (hm.symm.trans hm')
  exact ⟨hg.own d d' r h h', rfl⟩

/-- The registry after a removal has taken out the map's entry, the listed
record and the autoscaler's entry. -/
def Registry.unlisted (g : Registry) (d : ℕ) (r : ReplicaInfo) (key : String) : Registry :=
  { g with
    deployments := g.deployments.modify d (fun dep =>
      { dep with replicas := dep.replicas.eraseP (fun x => x.eq r) })
    replicaMap := g.replicaMap.erase key
    autoScaleMap := g.autoScaleMap.erase key }

theorem remove_unlisted {g : Registry} {d n w : ℕ}
    (h : ∀ r dep, g.replicaMap.get (replicaId w n) = some r → g.deployments.get d = some dep →
      dep.replicas.any (fun x => x.eq r) = false) :
    removeReplicaFromDeployment d n w g =
      .ok false { g with replicaMap := g.replicaMap.erase (replicaId w n) } := by
  simp only [removeReplicaFromDeployment, get_bind, modify_bind]
  cases hr : g.replicaMap.get (replicaId w n) with
  | none => rfl
  | some r =>
    cases hd : g.deployments.get d with
    | none => rfl
    | some dep =>
      simp only [h r dep hr hd]
      rfl

/-- A removal that finds it raises where the autoscaler or the nodes lack
their entry, after what comes before. -/
theorem remove_listed {g : Registry} {d n w : ℕ} {r : ReplicaInfo} {dep : DeploymentHandle}
    (hr : g.replicaMap.get (replicaId w n) = some r) (hd : g.deployments.get d = some dep)
    (hany : dep.replicas.any (fun x => x.eq r) = true) :
    removeReplicaFromDeployment d n w g =
      match g.autoScaleMap.get (replicaId w n) with
      | none => .error .keyError
          { g.unlisted d r (replicaId w n) with autoScaleMap := g.autoScaleMap }
      | some rep =>
        match g.nodeMap.get w with
        | none => .error .keyError (g.unlisted d r (replicaId w n))
        | some _ => .ok true ((g.unlisted d r (replicaId w n)).charged w
            (-rep.numCpus) (-rep.numGpus)) := by
  have hscale : AutoScaleManager.removeReplica w n
      { g.unlisted d r (replicaId w n) with autoScaleMap := g.autoScaleMap } =
      match g.autoScaleMap.get (replicaId w n) with
      | none => .error .keyError
          { g.unlisted d r (replicaId w n) with autoScaleMap := g.autoScaleMap }
      | some rep => .ok (rep.numCpus, rep.numGpus) (g.unlisted d r (replicaId w n)) := rfl
  have hcredit : ∀ c u : ℕ, NodeInfo.updateResources w c u false
      (g.unlisted d r (replicaId w n)) =
      match g.nodeMap.get w with
      | none => .error .keyError (g.unlisted d r (replicaId w n))
      | some _ => .ok () ((g.unlisted d r (replicaId w n)).charged w (-c) (-u)) :=
    fun _ _ => rfl
  simp only [removeReplicaFromDeployment, get_bind, modify_bind, hr, hd, hany, if_true]
  cases ha : g.autoScaleMap.get (replicaId w n) with
  | none =>
    rw [ha] at hscale
    exact bind_error hscale
  | some rep =>
    rw [ha] at hscale
    refine (bind_ok hscale).trans ?_
    cases hw : g.nodeMap.get w with
    | none =>
      simp only [hw] at hcredit
      exact bind_error (hcredit _ _)
    | some node =>
      simp only [hw] at hcredit
      exact bind_ok (hcredit _ _)

theorem unlisted_own {g : Registry} (hg : Coherent g) {d : ℕ} {r : ReplicaInfo}
    (hown : HasReplica g d r) : g.unlisted d r r.replicaNum = g.removed d r.replicaNum := by
  obtain ⟨dep, hd, hr⟩ := hown
  have hdeps : g.deployments.modify d (fun dep =>
        { dep with replicas := dep.replicas.eraseP (fun x => x.eq r) }) =
      g.deployments.modify d (fun dep =>
        { dep with replicas := dep.replicas.filter (fun x => x.replicaNum ≠ r.replicaNum) }) := by
    refine Dict.modify_congr hd ?_
    rw [eraseP_eq_filter (hg.ids_nodup d dep hd) hr]
  rw [Registry.unlisted, hdeps, Registry.removed]

theorem remove_own {g : Registry} (hg : Coherent g) {w n d : ℕ} {r : ReplicaInfo}
    {rep : Replica} (hk : g.replicaMap.get (replicaId w n) = some r) (hown : HasReplica g d r)
    (ha : g.autoScaleMap.get (replicaId w n) = some rep) :
    removeReplicaFromDeployment d n w g =
      match g.nodeMap.get w with
      | none => .error .keyError (g.removed d (replicaId w n))
      | some _ => .ok true ((g.removed d (replicaId w n)).charged w
          (-rep.numCpus) (-rep.numGpus)) := by
  have hnum : r.replicaNum = replicaId w n := ((hg.listed _ r).mp hk).1
  have hremoved := unlisted_own hg hown
  obtain ⟨dep, hd, hr⟩ := hown
  have hany : dep.replicas.any (fun x => x.eq r) = true :=
    List.any_eq_true.mpr ⟨r, hr, by simp [ReplicaInfo.eq]⟩
  rw [remove_listed hk hd hany, ha, ← hnum, ← hremoved]

theorem after_remove_own {g : Registry} (hg : Coherent g) {w n d : ℕ} {r : ReplicaInfo}
    {rep : Replica} (hk : g.replicaMap.get (replicaId w n) = some r) (hown : HasReplica g d r)
    (ha : g.autoScaleMap.get (replicaId w n) = some rep) :
    after (removeReplicaFromDeployment d n w) g =
      (g.removed d (replicaId w n)).charged w (-rep.numCpus) (-rep.numGpus) := by
  rw [after, remove_own hg hk hown ha]
  cases hw : g.nodeMap.get w with
  | none =>
    have hm : (g.removed d (replicaId w n)).nodeMap.get w = none := hw
    rw [Registry.charged, Dict.modify_absent hm]
    rfl
  | some node => rfl

/-- Everything a removal that names its own deployment can do. -/
theorem remove_cases {g : Registry} (hg : Coherent g) {d n w : ℕ} (ho : NamesOwn g d n w) :
    (g.replicaMap.get (replicaId w n) = none ∧
      removeReplicaFromDeployment d n w g = .ok false g) ∨
    ∃ r rep, r.replicaNum = replicaId w n ∧ HasReplica g d r ∧
      g.autoScaleMap.get (replicaId w n) = some rep ∧
      removeReplicaFromDeployment d n w g =
        match g.nodeMap.get w with
        | none => .error .keyError (g.removed d (replicaId w n))
        | some _ => .ok true ((g.removed d (replicaId w n)).charged w
            (-rep.numCpus) (-rep.numGpus)) := by
  cases hk : g.replicaMap.get (replicaId w n) with
  | none => exact Or.inl ⟨rfl, remove_unknown hk d⟩
  | some r =>
    obtain ⟨rep, hrep⟩ := Dict.mem_keys.mp ((hg.scaled _).mpr (Dict.mem_keys.mpr ⟨r, hk⟩))
    exact Or.inr ⟨r, rep, ((hg.listed _ r).mp hk).1, ho r hk, hrep,
      remove_own hg hk (ho r hk) hrep⟩

/-- An addition to a known deployment makes a record for each replica, also
where it raises. -/
theorem add_known {g : Registry} {d : ℕ} (hd : d ∈ g.deployments.keys) (w c u : ℕ) (a : String)
    (rs : List ReplicaContent) : ∃ g', g'.objects = g.objects+rs.length ∧
      addReplicaToDeployment d w rs c u a g =
        match g.nodeMap.get w with
        | none => .error .keyError g'
        | some _ => .ok true g' := by
  obtain ⟨dep, hdep⟩ := Dict.mem_keys.mp hd
  rw [add_batch hdep]
  cases hw : g.nodeMap.get w with
  | none => exact ⟨g.placedAll d w c u a rs, placedAll_objects rs g, rfl⟩
  | some node => exact ⟨(g.placedAll d w c u a rs).charged w c u, placedAll_objects rs g, rfl⟩

def Registry.ids (g : Registry) : List ℕ := g.deployments.keys

theorem addReplicas_keeps_ids (d w c u : ℕ) (a : String) (rs : List ReplicaContent) :
    Keeps Registry.ids (addReplicas d w c u a rs) := by
  induction rs with
  | nil => exact keeps_pure ()
  | cons r rs ih =>
    have happend : Keeps Registry.ids (appendReplica d w a r) :=
      keeps_modify (fun g => Dict.keys_modify _ _ _)
    exact keeps_bind happend (fun _ => keeps_bind (keeps_modify (fun g => rfl)) (fun _ => ih))

theorem updateResources_keeps_ids (w c u : ℕ) (add : Bool) :
    Keeps Registry.ids (NodeInfo.updateResources w c u add) := by
  intro g
  unfold NodeInfo.updateResources
  cases g.nodeMap.get w <;> rfl

theorem add_keeps_ids (d w c u : ℕ) (a : String) (rs : List ReplicaContent) :
    Keeps Registry.ids (addReplicaToDeployment d w rs c u a) := by
  refine keeps_bind keeps_get (fun g => ?_)
  cases g.deployments.get d with
  | none => exact keeps_pure false
  | some dep =>
    exact keeps_bind (addReplicas_keeps_ids d w c u a rs) (fun _ =>
      keeps_bind (updateResources_keeps_ids w c u true) (fun _ => keeps_pure true))

theorem scaleRemove_keeps_ids (w n : ℕ) :
    Keeps Registry.ids (AutoScaleManager.removeReplica w n) := by
  intro g
  unfold AutoScaleManager.removeReplica
  cases g.autoScaleMap.get (replicaId w n) <;> rfl

theorem remove_keeps_ids (d n w : ℕ) :
    Keeps Registry.ids (removeReplicaFromDeployment d n w) := by
  refine keeps_bind keeps_get (fun g₀ => keeps_bind (keeps_modify (fun g => rfl)) (fun _ =>
    keeps_bind keeps_get (fun g => ?_)))
  cases g₀.replicaMap.get (replicaId w n) with
  | none => exact keeps_pure false
  | some r =>
    cases g.deployments.get d with
    | none => exact keeps_pure false
    | some dep =>
      dsimp only
      split
      · exact keeps_bind (keeps_modify (fun g => Dict.keys_modify _ _ _)) (fun _ =>
          keeps_bind (scaleRemove_keeps_ids w n) (fun used =>
            keeps_bind (updateResources_keeps_ids w _ _ false) (fun _ => keeps_pure true)))
      · exact keeps_pure false

theorem coherent_charged {g : Registry} (hg : Coherent g) (w : ℕ) (c u : ℤ) :
    Coherent (g.charged w c u) :=
  ⟨hg.listed, hg.ids_nodup, hg.own, hg.scaled⟩

section
variable {g : Registry} {d : ℕ} {dep : DeploymentHandle} {w c u : ℕ} {a : String}
  {p : ReplicaContent}

theorem has_placed (hd : g.deployments.get d = some dep) {d' : ℕ} {x : ReplicaInfo} :
    HasReplica (g.placed d w c u a p) d' x ↔
      HasReplica g d' x ∨ (d' = d ∧ x = newReplica g w a p) := by
  unfold HasReplica Registry.placed
  simp only [Dict.get_modify]
  by_cases h : d' = d
  · subst h
    simp [hd]
  · simp [h]

theorem placed_coherent (hg : Coherent g) (hd : g.deployments.get d = some dep)
    (hk : g.replicaMap.get (replicaId w p.replicaId) = none) :
    Coherent (g.placed d w c u a p) := by
  have hfresh : ∀ d' x, HasReplica g d' x → x.replicaNum ≠ replicaId w p.replicaId := by
    intro d' x hx hc
    rw [(hg.listed _ x).mpr ⟨hc, d', hx⟩] at hk
    cases hk
  have hnum : (newReplica g w a p).replicaNum = replicaId w p.replicaId := rfl
  refine ⟨fun k r => ?_, fun d' dep' hd' => ?_, fun d₁ d₂ r h₁ h₂ => ?_, fun k => ?_⟩
  · simp only [has_placed hd]
    rw [Registry.placed, Dict.get_set]
    by_cases h : k = replicaId w p.replicaId
    · subst h
      simp only [if_true, Option.some.injEq]
      constructor
      · rintro rfl
        exact ⟨hnum, d, Or.inr ⟨rfl, rfl⟩⟩
      · rintro ⟨hr, d', hl | ⟨-, rfl⟩⟩
        · exact absurd hr (hfresh d' r hl)
        · rfl
    · rw [if_neg h, hg.listed]
      refine and_congr_right (fun hr => exists_congr (fun d' => ?_))
      refine ⟨Or.inl, fun hl => hl.resolve_right ?_⟩
      rintro ⟨-, rfl⟩
      exact h (hr.symm.trans hnum)
  · rw [Registry.placed, Dict.get_modify] at hd'
    split at hd'
    next h =>
      subst h
      rw [hd] at hd'
      obtain rfl := Option.some.inj hd'
      rw [List.map_append, List.map_singleton, ← List.concat_eq_append, List.nodup_concat]
      refine ⟨?_, hg.ids_nodup d' dep hd⟩
      intro hm
      obtain ⟨x, hx, hxn⟩ := List.mem_map.mp hm
      exact hfresh d' x ⟨dep, hd, hx⟩ hxn
    next => exact hg.ids_nodup d' dep' hd'
  · rcases (has_placed hd).mp h₁ with l₁ | ⟨e₁, rfl⟩ <;>
      rcases (has_placed hd).mp h₂ with l₂ | ⟨e₂, e⟩
    · exact hg.own d₁ d₂ r l₁ l₂
    · exact absurd (e ▸ hnum) (hfresh d₁ r l₁)
    · exact absurd hnum (hfresh d₂ _ l₂)
    · exact e₁.trans e₂.symm
  · rw [Registry.placed, Dict.mem_keys_set, Dict.mem_keys_set, hg.scaled]

theorem has_removed {key : String} {d' : ℕ} {x : ReplicaInfo} :
    HasReplica (g.removed d key) d' x ↔ HasReplica g d' x ∧ (d' = d → x.replicaNum ≠ key) := by
  unfold HasReplica Registry.removed
  simp only [Dict.get_modify]
  by_cases h : d' = d
  · subst h
    cases g.deployments.get d' with
    | none => simp
    | some dep => simp
  · simp [h]

theorem has_removed_own (hg : Coherent g) {r : ReplicaInfo} (hr : HasReplica g d r) {d' : ℕ}
    {x : ReplicaInfo} : HasReplica (g.removed d r.replicaNum) d' x ↔
      HasReplica g d' x ∧ x.replicaNum ≠ r.replicaNum := by
  rw [has_removed]
  refine and_congr_right (fun hx => ⟨fun h hc => ?_, fun h _ => h⟩)
  exact h (hg.unique hx hr hc).1 hc

theorem removed_coherent (hg : Coherent g) {r : ReplicaInfo} (hr : HasReplica g d r) :
    Coherent (g.removed d r.replicaNum) := by
  refine ⟨fun k x => ?_, fun d' dep' hd' => ?_, fun d₁ d₂ x h₁ h₂ => ?_, fun k => ?_⟩
  · simp only [has_removed_own hg hr]
    rw [Registry.removed, Dict.get_erase]
    by_cases h : k = r.replicaNum
    · simp only [if_pos h, reduceCtorEq, false_iff]
      rintro ⟨rfl, d', -, hne⟩
      exact hne h
    · rw [if_neg h, hg.listed]
      refine and_congr_right (fun hx => exists_congr (fun d' => ?_))
      exact ⟨fun hl => ⟨hl, fun hc => h (hx.symm.trans hc)⟩, fun hl => hl.1⟩
  · rw [Registry.removed, Dict.get_modify] at hd'
    split at hd'
    next h =>
      obtain ⟨dep, hd, rfl⟩ := Option.map_eq_some_iff.mp hd'
      exact (hg.ids_nodup d' dep hd).sublist (List.filter_sublist.map _)
    next => exact hg.ids_nodup d' dep' hd'
  · exact hg.own d₁ d₂ x ((has_removed_own hg hr).mp h₁).1 ((has_removed_own hg hr).mp h₂).1
  · rw [Registry.removed, Dict.mem_keys_erase, Dict.mem_keys_erase, hg.scaled]

end

def Registry.idle (deployments : Dict ℕ DeploymentHandle) : Registry :=
  ⟨deployments, Dict.empty, Dict.empty, Dict.empty, 0⟩

def NoReplicas (deployments : Dict ℕ DeploymentHandle) : Prop :=
  ∀ d dep, deployments.get d = some dep → dep.replicas = []

theorem idle_coherent {deployments : Dict ℕ DeploymentHandle} (he : NoReplicas deployments) :
    Coherent (Registry.idle deployments) := by
  have hl : ∀ d r, ¬ HasReplica (Registry.idle deployments) d r := by
    rintro d r ⟨dep, hd, hr⟩
    rw [he d dep hd] at hr
    cases hr
  refine ⟨fun k r => ?_, fun d dep hd => ?_, fun d d' r h => absurd h (hl d r), fun k => Iff.rfl⟩
  · simp only [hl, exists_false, and_false, iff_false]
    exact Option.some_ne_none r ∘ Eq.symm
  · rw [he d dep hd]
    exact List.nodup_nil

def sampleDeployments : Dict ℕ DeploymentHandle :=
  Dict.empty.set 2 ⟨"/v1/chat/tinyllama", "1.0", 2, 1, []⟩

theorem sampleDeployments_noReplicas : NoReplicas sampleDeployments := by
  intro d dep hd
  rw [sampleDeployments, Dict.get_set] at hd
  split at hd
  next => exact (Option.some.inj hd) ▸ rfl
  next => cases hd

def sampleNode : Protos.RegisterRequest := ⟨1, "10.0.0.1", "50051", ⟨8, 4⟩⟩

end ServingSystem.Head
