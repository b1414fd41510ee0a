import ServingSystem.Coherence
import ServingSystem.Runs
import Mathlib.Algebra.Order.BigOperators.Group.List

/-!
# Accounting of node resources

Registrations, additions of one replica with a fresh id and removals that
name the replica's own deployment, in any order. A call that raises leaves
the changes made before. The used totals of a node are compared with the
counts the autoscaler recorded for the replicas still present.
-/

set_option autoImplicit false

namespace ServingSystem.Head.NodeAccounting
open Protos (ReplicaContent RegisterRequest)
open DeploymentManager

inductive Act where
  | addNode (request : RegisterRequest)
  | addReplica (deploymentId workerId : ℕ) (replica : ReplicaContent) (numCpus numGpus : ℕ)
      (workerAddress : String)
  | removeReplica (deploymentId replicaNum workerId : ℕ)

/-- The added id is not present; a present replica is removed from its own
deployment. -/
def Admissible (g : Registry) : Act → Prop
  | .addNode _ => True
  | .addReplica _ w p _ _ _ => g.replicaMap.get (replicaId w p.replicaId) = none
  | .removeReplica d n w => NamesOwn g d n w

instance (g : Registry) : DecidablePred (Admissible g) := fun a =>
  match a with
  | .addNode _ => inferInstanceAs (Decidable True)
  | .addReplica _ w p _ _ _ =>
    inferInstanceAs (Decidable (g.replicaMap.get (replicaId w p.replicaId) = none))
  | .removeReplica d n w => inferInstanceAs (Decidable (NamesOwn g d n w))

def apply (g : Registry) : Act → Registry
  | .addNode request => after (NodeInfo.addNode request) g
  | .addReplica d w p c u a => after (addReplicaToDeployment d w [p] c u a) g
  | .removeReplica d n w => after (removeReplicaFromDeployment d n w) g

def step (g : Registry) (a : Act) : Option Registry :=
  if Admissible g a then some (apply g a) else none

def recorded (count : Replica → ℕ) (g : Registry) (workerId : ℕ) : ℤ :=
  g.autoScaleMap.total (fun key replica => if belongs workerId key then count replica else 0)

structure Balanced (g : Registry) (workerId : ℕ) (used : UsedResources) : Prop where
  cpus : used.numCpus = recorded Replica.numCpus g workerId
  gpus : used.numGpus = recorded Replica.numGpus g workerId
  cpus_nonneg : 0 ≤ used.numCpus
  gpus_nonneg : 0 ≤ used.numGpus

def Accounted (g : Registry) : Prop :=
  ∀ w node, g.nodeMap.get w = some node → Balanced g w node.usedResources

/-- A node registers when its present replicas were recorded with no
resources, in particular when it has none. -/
def RegistersIdle (g : Registry) : Act → Prop
  | .addNode request => recorded Replica.numCpus g request.nodeId = 0 ∧
      recorded Replica.numGpus g request.nodeId = 0
  | _ => True

theorem recorded_nonneg (count : Replica → ℕ) (g : Registry) (w : ℕ) :
    0 ≤ recorded count g w := by
  unfold recorded Dict.total
  refine List.sum_nonneg (fun x hx => ?_)
  obtain ⟨⟨key, replica⟩, -, rfl⟩ := List.mem_map.mp hx
  by_cases h : belongs w key = true <;> simp [h]

theorem balanced_iff {g : Registry} {w : ℕ} {used : UsedResources} :
    Balanced g w used ↔ used.numCpus = recorded Replica.numCpus g w ∧
      used.numGpus = recorded Replica.numGpus g w := by
  constructor
  · exact fun h => ⟨h.cpus, h.gpus⟩
  · rintro ⟨hc, hg⟩
    exact ⟨hc, hg, hc ▸ recorded_nonneg _ g w, hg ▸ recorded_nonneg _ g w⟩

section
variable {g : Registry} {d w c u n : ℕ} {dep : DeploymentHandle} {a : String} {p : ReplicaContent}

theorem recorded_placed (hg : Coherent g)
    (hk : g.replicaMap.get (replicaId w p.replicaId) = none) (count : Replica → ℕ) (w' : ℕ) :
    recorded count (g.placed d w c u a p) w' =
      recorded count g w'+(if w' = w then (count ⟨0, 0, c, u⟩ : ℤ) else 0) := by
  have ha : g.autoScaleMap.get (replicaId w p.replicaId) = none := by
    rw [Dict.get_eq_none, hg.scaled]
    exact Dict.get_eq_none.mp hk
  rw [recorded, Registry.placed, Dict.total_set_absent _ _ _ _ ha]
  simp only [belongs_replicaId]
  rfl

theorem recorded_removed {rep : Replica} (ha : g.autoScaleMap.get (replicaId w n) = some rep)
    (count : Replica → ℕ) (w' : ℕ) :
    recorded count (g.removed d (replicaId w n)) w' =
      recorded count g w'-(if w' = w then (count rep : ℤ) else 0) := by
  rw [recorded, Registry.removed, Dict.total_erase _ _ _ _ ha]
  simp only [belongs_replicaId]
  rfl

end

/-- Everything an admissible call does to a coherent registry. -/
theorem apply_cases {g : Registry} (hg : Coherent g) {a : Act} (ha : Admissible g a) :
    (∃ request, a = .addNode request ∧
      apply g a = { g with nodeMap := g.nodeMap.set request.nodeId ⟨request.nodeId,
        request.nodeAddress ++ ":" ++ request.port, request.resource, ⟨0, 0⟩⟩ }) ∨
    (apply g a = g ∧ ∀ request, a ≠ .addNode request) ∨
    (∃ d w p c u addr dep, a = .addReplica d w p c u addr ∧ g.deployments.get d = some dep ∧
      g.replicaMap.get (replicaId w p.replicaId) = none ∧
      apply g a = (g.placed d w c u addr p).charged w c u) ∨
    ∃ d n w r rep, a = .removeReplica d n w ∧ r.replicaNum = replicaId w n ∧ HasReplica g d r ∧
      g.autoScaleMap.get (replicaId w n) = some rep ∧
      apply g a = (g.removed d (replicaId w n)).charged w (-rep.numCpus) (-rep.numGpus) := by
  cases a with
  | addNode request => exact Or.inl ⟨request, rfl, rfl⟩
  | addReplica d w p c u addr =>
    cases hd : g.deployments.get d with
    | none => exact Or.inr (Or.inl ⟨after_add_missing hd w c u addr p, by simp⟩)
    | some dep =>
      exact Or.inr (Or.inr (Or.inl ⟨d, w, p, c, u, addr, dep, rfl, hd, ha,
        after_add hd w c u addr p⟩))
  | removeReplica d n w =>
    rcases remove_cases hg ha with ⟨-, h⟩ | ⟨r, rep, hnum, hr, hrep, -⟩
    · exact Or.inr (Or.inl ⟨by simp only [apply, after, h, StateExcept.finalState], by simp⟩)
    · have hk := (hg.listed _ r).mpr ⟨hnum, d, hr⟩
      exact Or.inr (Or.inr (Or.inr ⟨d, n, w, r, rep, rfl, hnum, hr, hrep,
        after_remove_own hg hk hr hrep⟩))

theorem step_coherent (g : Registry) (a : Act) (g' : Registry) (hg : Coherent g)
    (hs : step g a = some g') : Coherent g' := by
  obtain ⟨ha, rfl⟩ := Option.ite_some_none_eq_some.mp hs
  rcases apply_cases hg ha with ⟨request, -, h⟩ | ⟨h, -⟩ |
    ⟨d, w, p, c, u, addr, dep, -, hd, hk, h⟩ | ⟨d, n, w, r, rep, -, hnum, hr, -, h⟩ <;> rw [h]
  · exact ⟨hg.listed, hg.ids_nodup, hg.own, hg.scaled⟩
  · exact hg
  · exact coherent_charged (placed_coherent hg hd hk) w c u
  · exact coherent_charged (hnum ▸ removed_coherent hg hr) w _ _

theorem accounted_charged {g g' : Registry} {w : ℕ} {c u : ℤ} (hg : Accounted g)
    (hn : g'.nodeMap = g.nodeMap)
    (hc : ∀ w', recorded Replica.numCpus g' w' =
      recorded Replica.numCpus g w'+(if w' = w then c else 0))
    (hu : ∀ w', recorded Replica.numGpus g' w' =
      recorded Replica.numGpus g w'+(if w' = w then u else 0)) :
    Accounted (g'.charged w c u) := by
  intro w' node hw'
  rw [Registry.charged, hn, Dict.get_modify] at hw'
  rw [balanced_iff]
  change node.usedResources.numCpus = recorded _ g' w' ∧
    node.usedResources.numGpus = recorded _ g' w'
  rw [hc, hu]
  split at hw'
  next h =>
    obtain ⟨old, hold, rfl⟩ := Option.map_eq_some_iff.mp hw'
    have hb := hg w' old hold
    simp [NodeInfo.Node.use, h, hb.cpus, hb.gpus]
  next h =>
    have hb := hg w' node hw'
    simp [h, hb.cpus, hb.gpus]

theorem accounted_step (g : Registry) (a : Act) (g' : Registry) (hg : Coherent g)
    (hb : Accounted g) (hs : step g a = some g') : Accounted g' ↔ RegistersIdle g a := by
  obtain ⟨ha, rfl⟩ := Option.ite_some_none_eq_some.mp hs
  rcases apply_cases hg ha with ⟨request, rfl, h⟩ | ⟨h, hne⟩ |
    ⟨d, w, p, c, u, addr, dep, rfl, hd, hk, h⟩ | ⟨d, n, w, r, rep, rfl, hnum, hr, hrep, h⟩ <;>
    rw [h]
  · constructor
    · intro hacc
      have hb' := hacc request.nodeId _ (Dict.get_set_self _ _ _)
      exact ⟨hb'.cpus.symm, hb'.gpus.symm⟩
    · rintro ⟨hc, hu⟩ w node hw
      simp only [Dict.get_set] at hw
      rw [balanced_iff]
      split at hw
      next hw' =>
        obtain rfl := Option.some.inj hw
        rw [hw']
        exact ⟨hc.symm, hu.symm⟩
      next => exact ⟨(hb w node hw).cpus, (hb w node hw).gpus⟩
  · refine iff_of_true hb ?_
    cases a with
    | addNode request => exact absurd rfl (hne request)
    | _ => trivial
  · refine iff_of_true (accounted_charged hb rfl (fun w' => ?_) (fun w' => ?_)) trivial
    · exact recorded_placed hg hk Replica.numCpus w'
    · exact recorded_placed hg hk Replica.numGpus w'
  · refine iff_of_true (accounted_charged hb rfl (fun w' => ?_) (fun w' => ?_)) trivial
    · rw [recorded_removed hrep]
      split <;> rfl
    · rw [recorded_removed hrep]
      split <;> rfl

/-- The used totals equal the recorded sums in every state of a run exactly
when no node registers again over replicas recorded with resources. -/
theorem accounted_iff_registers_idle (deployments : Dict ℕ DeploymentHandle)
    (he : NoReplicas deployments) (as : List Act) (g : Registry)
    (hr : Runs.exec step as (Registry.idle deployments) = some g) :
    (∀ n u, Runs.exec step (as.take n) (Registry.idle deployments) = some u → Accounted u) ↔
      Runs.Along step RegistersIdle as (Registry.idle deployments) := by
  have hb : Accounted (Registry.idle deployments) := by
    intro w node hw
    cases hw
  exact Runs.always_iff_along step_coherent accounted_step (idle_coherent he) hb hr

def registersAgain : List Act :=
  [.addNode sampleNode, .addReplica 2 1 ⟨1, "50101"⟩ 2 1 "10.0.0.1", .addNode sampleNode]

theorem accounted_iff_registers_idle_sample : ∃ g,
    Runs.exec step registersAgain (Registry.idle sampleDeployments) = some g ∧
    ((∀ n u, Runs.exec step (registersAgain.take n) (Registry.idle sampleDeployments) = some u →
        Accounted u) ↔
      Runs.Along step RegistersIdle registersAgain (Registry.idle sampleDeployments)) :=
  ⟨_, rfl, accounted_iff_registers_idle sampleDeployments sampleDeployments_noReplicas
    registersAgain _ rfl⟩

/-- The second registration starts again from zero while the replica is
still present, and its removal then leaves minus two CPUs in use. -/
theorem registration_forgets_replica : ∃ g,
    Runs.exec step (registersAgain ++ [.removeReplica 2 1 1])
      (Registry.idle sampleDeployments) = some g ∧ ¬ Accounted g := by
  refine ⟨_, rfl, fun h => ?_⟩
  exact absurd (h 1 _ rfl).cpus_nonneg (by decide)

end ServingSystem.Head.NodeAccounting
