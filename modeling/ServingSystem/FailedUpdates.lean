import ServingSystem.HeadController
import ServingSystem.Purge

/-!
# Additions and removals that fail

`remove_replica_from_deployment` takes the replica out of the map before it
checks anything, and `add_replica_to_deployment` charges the worker after it
has listed the batch. From any registry the conditions are given under which
a call that does not return True leaves no trace.
-/

set_option autoImplicit false

namespace ServingSystem.Head
open Protos (ReplicaContent ReplicaCreationReply)
open DeploymentManager HeadController

/-- The call does not return True: it returns False or raises. -/
def Fails (call : Py Bool) (g : Registry) : Prop := ∀ g', call g ≠ .ok true g'

section
variable {g : Registry} {d n w : ℕ}

structure Removable (g : Registry) (d n w : ℕ) : Prop where
  listed : ∃ r dep, g.replicaMap.get (replicaId w n) = some r ∧
    g.deployments.get d = some dep ∧ dep.replicas.any (fun x => x.eq r) = true
  scaled : replicaId w n ∈ g.autoScaleMap.keys
  worker : w ∈ g.nodeMap.keys

/-- Whatever the removal returns or raises, the map's entry is gone. -/
theorem after_remove_map (g : Registry) (d n w : ℕ) :
    (after (removeReplicaFromDeployment d n w) g).replicaMap =
      g.replicaMap.erase (replicaId w n) := by
  by_cases h : ∀ r dep, g.replicaMap.get (replicaId w n) = some r →
      g.deployments.get d = some dep → dep.replicas.any (fun x => x.eq r) = false
  · rw [after, remove_unlisted h]
    rfl
  · simp only [not_forall, Bool.not_eq_false] at h
    obtain ⟨r, dep, hr, hd, hany⟩ := h
    rw [after, remove_listed hr hd hany]
    cases g.autoScaleMap.get (replicaId w n) with
    | none => rfl
    | some rep => cases g.nodeMap.get w <;> rfl

theorem remove_succeeds : ¬ Fails (removeReplicaFromDeployment d n w) g ↔ Removable g d n w := by
  by_cases h : ∀ r dep, g.replicaMap.get (replicaId w n) = some r →
      g.deployments.get d = some dep → dep.replicas.any (fun x => x.eq r) = false
  · constructor
    · intro hok
      refine absurd (fun g' hc => ?_) hok
      rw [remove_unlisted h] at hc
      cases hc
    · rintro ⟨⟨r, dep, hr, hd, hany⟩, _, _⟩
      exact absurd (h r dep hr hd) (by simp [hany])
  · simp only [not_forall, Bool.not_eq_false] at h
    obtain ⟨r, dep, hr, hd, hany⟩ := h
    have hlisted : Removable g d n w ↔
        replicaId w n ∈ g.autoScaleMap.keys ∧ w ∈ g.nodeMap.keys :=
      ⟨fun h => ⟨h.scaled, h.worker⟩, fun h => ⟨⟨r, dep, hr, hd, hany⟩, h.1, h.2⟩⟩
    simp only [hlisted, Fails, not_forall, not_not, remove_listed hr hd hany, Dict.mem_keys]
    cases g.autoScaleMap.get (replicaId w n) with
    | none => simp
    | some rep => cases g.nodeMap.get w <;> simp

/-- A removal that fails leaves everything as it was, and a later one under
another deployment succeeds where it would have succeeded before. -/
def FailsClean (g : Registry) (d n w : ℕ) : Prop :=
  Fails (removeReplicaFromDeployment d n w) g →
    Same g (after (removeReplicaFromDeployment d n w) g) ∧
    ∀ d', ¬ Fails (removeReplicaFromDeployment d' n w) g →
      ¬ Fails (removeReplicaFromDeployment d' n w) (after (removeReplicaFromDeployment d n w) g)

end

/-- The map has no such replica, or every structure has its entry. -/
theorem removal_fails_clean_iff (g : Registry) (d n w : ℕ) :
    FailsClean g d n w ↔ replicaId w n ∉ g.replicaMap.keys ∨ Removable g d n w := by
  constructor
  · intro h
    by_contra hc
    obtain ⟨hk, hr⟩ := not_or.mp hc
    obtain ⟨r, hr'⟩ := Dict.mem_keys.mp (not_not.mp hk)
    have hfails : Fails (removeReplicaFromDeployment d n w) g :=
      not_not.mp (mt remove_succeeds.mp hr)
    have hmap := (h hfails).1.replicaMap
    rw [after_remove_map] at hmap
    have hgone := congrArg (fun m => m.get (replicaId w n)) hmap
    rw [Dict.get_erase_self, hr'] at hgone
    cases hgone
  · rintro (hk | hr)
    · have hafter : after (removeReplicaFromDeployment d n w) g = g := by
        rw [after, remove_unknown (Dict.get_eq_none.mpr hk)]
        rfl
      intro _
      rw [hafter]
      exact ⟨Same.refl g, fun _ h => h⟩
    · exact fun hfails => absurd hfails (remove_succeeds.mpr hr)

/-- A report under deployment 3 returns False and unmaps the replica, and the
report under its own deployment then finds nothing. -/
theorem misreported_replica_unmapped : (∃ g' g'',
      removeReplicaFromDeployment 3 1 1 hosting = .ok false g' ∧
      removeReplicaFromDeployment 2 1 1 g' = .ok false g'' ∧
      (g''.deployments.get 2).map (fun dep => dep.replicas.length) = some 1) ∧
    ¬ FailsClean hosting 3 1 1 := by
  refine ⟨⟨_, _, rfl, rfl, rfl⟩, fun h => ?_⟩
  have hfails : Fails (removeReplicaFromDeployment 3 1 1) hosting := fun g' hc => by cases hc
  have hmap := congrArg Dict.keys (h hfails).1.replicaMap
  exact absurd hmap (by decide +kernel)

section
variable {g : Registry} {d w c u : ℕ} {a : String} {rs : List ReplicaContent}

theorem placedAll_grows (rs : List ReplicaContent) {g : Registry} {dep : DeploymentHandle}
    (hd : g.deployments.get d = some dep) : ∃ dep',
      (g.placedAll d w c u a rs).deployments.get d = some dep' ∧
        dep'.replicas.length = dep.replicas.length+rs.length := by
  induction rs generalizing g dep with
  | nil => exact ⟨dep, hd, rfl⟩
  | cons r rs ih =>
    have hplaced : (g.placed d w c u a r).deployments.get d =
        some { dep with replicas := dep.replicas ++ [newReplica g w a r] } := by
      rw [Registry.placed, Dict.get_modify_self, hd]
      rfl
    obtain ⟨dep', hd', hlen⟩ := ih hplaced
    refine ⟨dep', hd', ?_⟩
    rw [hlen, List.length_append, List.length_singleton, List.length_cons]
    omega

/-- Where the deployment is unknown, the worker known or the batch empty, the
call does not raise or has done nothing. -/
theorem add_succeeds_or (hc : d ∉ g.deployments.keys ∨ w ∈ g.nodeMap.keys ∨ rs = []) :
    addReplicaToDeployment d w rs c u a g = .ok false g ∨
    (∃ g', addReplicaToDeployment d w rs c u a g = .ok true g') ∨
    (rs = [] ∧ addReplicaToDeployment d w rs c u a g = .error .keyError g) := by
  cases hd : g.deployments.get d with
  | none => exact Or.inl (add_missing hd w c u rs a)
  | some dep =>
    have h := add_batch hd w c u a rs
    cases hw : g.nodeMap.get w with
    | some node =>
      rw [hw] at h
      exact Or.inr (Or.inl ⟨_, h⟩)
    | none =>
      rw [hw] at h
      have hk : d ∈ g.deployments.keys := Dict.mem_keys.mpr ⟨dep, hd⟩
      have hrs : rs = [] :=
        (hc.resolve_left (not_not_intro hk)).resolve_left (Dict.get_eq_none.mp hw)
      subst hrs
      exact Or.inr (Or.inr ⟨rfl, h⟩)

end

def Routes (p : Protos.RoutingUpdate) (key : String) : Prop :=
  ∃ d info, p.currentDeployments.get d = some info ∧ ∃ r ∈ info.replicas, r.replicaId = key

/-- An addition of the reply that fails leaves everything as it was, and no
snapshot has a replica of a reply that was kept for retry. -/
structure LeavesNone (s : State) (d c u : ℕ) (response : ReplicaCreationReply) (t : ℕ) :
    Prop where
  unchanged : Fails (addReplicaToDeployment d response.workerId response.replicas c u
      response.workerAddress) s.registry →
    Same s.registry (after (addReplicaToDeployment d response.workerId response.replicas c u
      response.workerAddress) s.registry)
  unrouted : (replied d c u response t s).pendingReplicas ≠ s.pendingReplicas →
    ∀ p ∈ response.replicas, ∀ t', ¬ Routes
      (getCurrentRoutingTable (replied d c u response t s).registry t')
      (replicaId response.workerId p.replicaId)

theorem replied_ok {s : State} {d c u t : ℕ} {response : ReplicaCreationReply} {b : Bool}
    {g : Registry} (h : addReplicaToDeployment d response.workerId response.replicas c u
      response.workerAddress s.registry = .ok b g) :
    (replied d c u response t s).pendingReplicas = s.pendingReplicas := by
  unfold replied State.run
  rw [h]
  cases response.created <;> cases b <;> rfl

/-- The deployment is unknown, the worker is known or the batch is empty. -/
theorem addition_fails_clean_iff (s : State) (d c u : ℕ) (response : ReplicaCreationReply)
    (t : ℕ) : LeavesNone s d c u response t ↔ d ∉ s.registry.deployments.keys ∨
      response.workerId ∈ s.registry.nodeMap.keys ∨ response.replicas = [] := by
  constructor
  · intro h
    by_contra hc
    simp only [not_or, not_not] at hc
    obtain ⟨hd, hw, hrs⟩ := hc
    obtain ⟨dep, hdep⟩ := Dict.mem_keys.mp hd
    have hadd := add_batch hdep response.workerId c u response.workerAddress response.replicas
    rw [Dict.get_eq_none.mpr hw] at hadd
    have hsame := h.unchanged (fun g'' hok => by rw [hadd] at hok; cases hok)
    rw [after, hadd] at hsame
    have hdeps : (s.registry.placedAll d response.workerId c u response.workerAddress
        response.replicas).deployments = s.registry.deployments := hsame.deployments
    obtain ⟨dep', hdep', hlen⟩ := placedAll_grows (w := response.workerId) (c := c) (u := u)
      (a := response.workerAddress) response.replicas hdep
    rw [hdeps, hdep] at hdep'
    obtain rfl := Option.some.inj hdep'
    have hpos := List.length_pos_iff.mpr hrs
    omega
  · intro hc
    rcases add_succeeds_or (c := c) (u := u) (a := response.workerAddress) hc with
      h | ⟨g', h⟩ | ⟨hrs, h⟩
    · refine ⟨fun _ => ?_, fun hp => absurd (replied_ok h) hp⟩
      rw [after, h]
      exact Same.refl _
    · exact ⟨fun hfails => absurd h (hfails g'), fun hp => absurd (replied_ok h) hp⟩
    · refine ⟨fun _ => ?_, fun _ p hp => ?_⟩
      · rw [after, h]
        exact Same.refl _
      · rw [hrs] at hp
        cases hp

/-- A worker the head does not know creates a replica: the addition raises
after the replica was listed, and the creation is kept for retry. -/
theorem unknown_worker_listed : (∃ s,
      replied 2 0 0 ⟨7, [⟨1, "50101"⟩], "10.0.0.7", true⟩ 5 (initial ownDeployments) = s ∧
      s.raised = [.keyError] ∧ s.pendingReplicas = [2] ∧
      (s.registry.deployments.get 2).map (fun dep => dep.replicas.length) = some 1) ∧
    ¬ LeavesNone (initial ownDeployments) 2 0 0 ⟨7, [⟨1, "50101"⟩], "10.0.0.7", true⟩ 5 := by
  refine ⟨⟨_, rfl, rfl, rfl, rfl⟩, fun h => ?_⟩
  have hdeps := congrArg (fun deps => (deps.get 2).map (fun dep => dep.replicas.length))
    (h.unchanged (fun g hok => by cases hok)).deployments
  exact absurd hdeps (by decide +kernel)

end ServingSystem.Head
