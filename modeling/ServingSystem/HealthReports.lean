import ServingSystem.HeadController
import ServingSystem.Purge

/-!
# Health reports

The scheduler repeats a report until it is acknowledged. A report whose
entries name the replicas' own deployments removes the set of the replicas it
gives as DEAD, so a repetition changes nothing and the order of two reports
does not matter.
-/

set_option autoImplicit false

namespace ServingSystem.Head.HeadController
open Protos (HealthStatusUpdate ReplicaState)
open DeploymentManager StateExcept

def reported (request : HealthStatusUpdate) : List Removal :=
  (request.replicaStates.filter (fun r => r.status = "DEAD")).map
    (fun r => ⟨r.deploymentId, r.replicaId, request.workerId⟩)

/-- Every entry about a known replica names that replica's own deployment. -/
def NamesOwnReplicas (g : Registry) (request : HealthStatusUpdate) : Prop :=
  ∀ r ∈ request.replicaStates, NamesOwn g r.deploymentId r.replicaId request.workerId

instance NamesOwnReplicas.decidable (g : Registry) (request : HealthStatusUpdate) :
    Decidable (NamesOwnReplicas g request) :=
  inferInstanceAs (Decidable (∀ r ∈ request.replicaStates,
    NamesOwn g r.deploymentId r.replicaId request.workerId))

theorem removeDead_eq (w : ℕ) (states : List ReplicaState) (a : String) :
    removeDead w states = removeEach (reported ⟨w, a, states⟩) := by
  induction states with
  | nil => rfl
  | cons r states ih =>
    rw [removeDead, ih]
    by_cases h : r.status = "DEAD"
    · simp only [h, if_true, reported, List.filter_cons_of_pos, decide_true]
      rfl
    · rw [reported, reported, List.filter_cons_of_neg (by simpa using h)]
      simp only [h, if_false]

section
variable {g : Registry} {s : State} {h : HealthStatusUpdate}

theorem removals_own (ho : NamesOwnReplicas g h) :
    ∀ c ∈ reported h, NamesOwn g c.deploymentId c.replicaNum c.workerId := by
  intro c hc
  obtain ⟨r, hr, rfl⟩ := List.mem_map.mp hc
  exact ho r (List.mem_of_mem_filter hr)

theorem names_after (hg : Coherent g) (ho : NamesOwnReplicas g h) (dead : String → Bool) :
    NamesOwnReplicas (g.purge dead) h :=
  fun r hr => names_purged hg (ho r hr) dead

theorem any_dead (h : HealthStatusUpdate) :
    h.replicaStates.any (fun r => r.status = "DEAD") = true ↔ reported h ≠ [] := by
  rw [reported, ne_eq, List.map_eq_nil_iff, List.filter_eq_nil_iff, List.any_eq_true]
  simp only [not_forall, not_not, exists_prop]

theorem sent_nothing (hn : reported h = []) (t : ℕ) (s : State) :
    sendHealthStatus h t s = s := by
  have hcall : removeDead h.workerId h.replicaStates s.registry = .ok () s.registry := by
    rw [removeDead_eq h.workerId h.replicaStates h.workerAddress, hn]
    rfl
  have hany : h.replicaStates.any (fun r => r.status = "DEAD") = false := by
    rw [Bool.eq_false_iff, ne_eq, any_dead]
    exact fun hc => hc hn
  rw [sendHealthStatus, State.run, hcall]
  simp only [hany]
  rfl

/-- A report with a DEAD entry removes the set of the ids it gives as DEAD and
publishes the table that is left. -/
theorem sent_purges (hg : Coherent s.registry) (hh : Hosted s.registry)
    (ho : NamesOwnReplicas s.registry h) (hn : reported h ≠ []) (t : ℕ) :
    sendHealthStatus h t s = onDeploymentChange t { s with
      registry := s.registry.purge (named (reported h)) } := by
  have hcall : removeDead h.workerId h.replicaStates s.registry =
      .ok () (s.registry.purge (named (reported h))) := by
    rw [removeDead_eq h.workerId h.replicaStates h.workerAddress]
    exact removeEach_purges _ hg (removals_own ho) (fun _ _ hk => hh.worker hk)
  rw [sendHealthStatus, State.run, hcall]
  simp only [(any_dead h).mpr hn]
  rfl

end

/-- A registry from which the report is handled without an error. -/
structure Ready (g : Registry) (h : HealthStatusUpdate) : Prop where
  coherent : Coherent g
  hosted : Hosted g
  names : NamesOwnReplicas g h

def State.routed (s : State) : Option (Dict ℕ Protos.DeploymentInfoMessage) :=
  s.feed.latestRoutingSnapshot.map Protos.RoutingUpdate.currentDeployments

def table (g : Registry) : Dict ℕ Protos.DeploymentInfoMessage :=
  g.deployments.mapVal deploymentMessage

section
variable {s : State} {h k : HealthStatusUpdate}

theorem sent_registry (hr : Ready s.registry h) (t : ℕ) :
    (sendHealthStatus h t s).registry = s.registry.purge (named (reported h)) := by
  by_cases hn : reported h = []
  · rw [sent_nothing hn, hn]
    exact (purge_named_nil hr.coherent).symm
  · rw [sent_purges hr.coherent hr.hosted hr.names hn]
    rfl

theorem sent_raised (hr : Ready s.registry h) (t : ℕ) :
    (sendHealthStatus h t s).raised = s.raised := by
  by_cases hn : reported h = []
  · rw [sent_nothing hn]
  · rw [sent_purges hr.coherent hr.hosted hr.names hn]
    rfl

/-- A report with a DEAD entry publishes the table it leaves. -/
theorem sent_routed (hr : Ready s.registry h) (t : ℕ) : (sendHealthStatus h t s).routed =
    if reported h = [] then s.routed
    else some (table (s.registry.purge (named (reported h)))) := by
  split
  next hn => rw [sent_nothing hn]
  next hn =>
    rw [sent_purges hr.coherent hr.hosted hr.names hn]
    rfl

theorem sent_ready (hr : Ready s.registry h) (hk : Ready s.registry k) (t : ℕ) :
    Ready (sendHealthStatus h t s).registry k := by
  rw [sent_registry hr]
  exact ⟨purge_coherent hk.coherent _, purge_hosted hk.hosted _,
    names_after hk.coherent hk.names _⟩

end

structure Agree (s s' : State) : Prop where
  registry : s'.registry = s.registry
  raised : s'.raised = s.raised
  routed : s'.routed = s.routed

section
variable {s : State} {h k : HealthStatusUpdate}

theorem sent_twice (hr : Ready s.registry h) (t₁ t₂ t₃ : ℕ) :
    Agree (sendHealthStatus h t₁ s) (sendHealthStatus h t₃ (sendHealthStatus h t₂ s)) := by
  have hr' := sent_ready hr hr t₂
  refine ⟨?_, ?_, ?_⟩
  · rw [sent_registry hr', sent_registry hr, sent_registry hr, purge_idem]
  · rw [sent_raised hr', sent_raised hr, sent_raised hr]
  · rw [sent_routed hr', sent_routed hr, sent_routed hr, sent_registry hr, purge_idem]
    split <;> rfl

theorem sent_swapped (hr : Ready s.registry h) (hk : Ready s.registry k) (t₁ t₂ t₃ t₄ : ℕ) :
    Agree (sendHealthStatus k t₂ (sendHealthStatus h t₁ s))
      (sendHealthStatus h t₄ (sendHealthStatus k t₃ s)) := by
  have hk' := sent_ready hr hk t₁
  have hr' := sent_ready hk hr t₃
  refine ⟨?_, ?_, ?_⟩
  · rw [sent_registry hr', sent_registry hk', sent_registry hr, sent_registry hk, purge_comm]
  · rw [sent_raised hr', sent_raised hk', sent_raised hr, sent_raised hk]
  · rw [sent_routed hr', sent_routed hk', sent_routed hr, sent_routed hk, sent_registry hr,
      sent_registry hk, purge_comm]
    by_cases hn : reported h = [] <;> by_cases hm : reported k = []
    · simp only [hn, hm, if_true]
    · simp only [hn, hm, if_true, if_false, purge_named_nil hr.coherent]
    · simp only [hn, hm, if_true, if_false, purge_named_nil (purge_coherent hr.coherent _)]
    · simp only [hn, hm, if_false]

end

/-- From a coherent registry whose workers are registered, repeating a report
changes nothing, two reports may come in either order, and none raises. -/
theorem health_reports_commute (s : State) (hg : Coherent s.registry) (hh : Hosted s.registry)
    (h₁ h₂ : HealthStatusUpdate) (ho₁ : NamesOwnReplicas s.registry h₁)
    (ho₂ : NamesOwnReplicas s.registry h₂) (t₁ t₂ t₃ t₄ : ℕ) :
    Agree (sendHealthStatus h₁ t₁ s) (sendHealthStatus h₁ t₃ (sendHealthStatus h₁ t₂ s)) ∧
    Agree (sendHealthStatus h₂ t₂ (sendHealthStatus h₁ t₁ s))
      (sendHealthStatus h₁ t₄ (sendHealthStatus h₂ t₃ s)) ∧
    (sendHealthStatus h₁ t₁ s).raised = s.raised ∧
    (sendHealthStatus h₂ t₂ (sendHealthStatus h₁ t₁ s)).raised = s.raised := by
  have hr : Ready s.registry h₁ := ⟨hg, hh, ho₁⟩
  have hk : Ready s.registry h₂ := ⟨hg, hh, ho₂⟩
  refine ⟨sent_twice hr t₁ t₂ t₃, sent_swapped hr hk t₁ t₂ t₃ t₄, sent_raised hr t₁, ?_⟩
  rw [sent_raised (sent_ready hr hk t₁), sent_raised hr]

def deadReport : HealthStatusUpdate := ⟨1, "10.0.0.1", [⟨1, 2, "DEAD"⟩]⟩

def overlapping : HealthStatusUpdate := ⟨1, "10.0.0.1", [⟨4, 2, "DEAD"⟩, ⟨1, 2, "DEAD"⟩]⟩

def hostingHead : State := { initial twoDeployments with registry := hosting }

theorem health_reports_commute_sample :
    Agree (sendHealthStatus overlapping 5 (sendHealthStatus deadReport 4 hostingHead))
      (sendHealthStatus deadReport 7 (sendHealthStatus overlapping 6 hostingHead)) :=
  (health_reports_commute hostingHead hosting_coherent hosting_hosted deadReport overlapping
    (by decide +kernel) (by decide +kernel) 4 5 6 7).2.1

end ServingSystem.Head.HeadController
