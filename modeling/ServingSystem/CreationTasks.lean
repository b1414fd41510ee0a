import ServingSystem.HeadController
import ServingSystem.Positions

/-!
# The creation tasks of the head

What a handler of the head does to the `create_replica` tasks and to the set
of deployments. A task that waits for its RPC keeps waiting until its own
answer, and its deployment exists.
-/

set_option autoImplicit false

namespace ServingSystem.Head.HeadController
open Protos (ReplicaCreationReply)
open DeploymentManager Positions

theorem removeDead_keeps_ids (w : ℕ) (rs : List Protos.ReplicaState) :
    StateExcept.Keeps Registry.ids (removeDead w rs) := by
  induction rs with
  | nil => exact StateExcept.keeps_pure ()
  | cons r rs ih =>
    unfold removeDead
    split
    · exact StateExcept.keeps_bind (remove_keeps_ids _ _ _) (fun _ => ih)
    · exact ih

theorem run_ids {α : Type} {call : Py α} (h : StateExcept.Keeps Registry.ids call) (s : State)
    {returned : α → State → State} {failed : State → State}
    (hr : ∀ x t, (returned x t).registry = t.registry)
    (hf : ∀ t, (failed t).registry = t.registry) :
    (s.run call returned failed).registry.ids = s.registry.ids := by
  have hk := h s.registry
  unfold State.run
  cases hc : call s.registry with
  | ok x g =>
    rw [hc] at hk
    exact (congrArg Registry.ids (hr x _)).trans hk
  | error e g =>
    rw [hc] at hk
    exact (congrArg Registry.ids (hf _)).trans hk

theorem replied_ids (d c u t : ℕ) (response : ReplicaCreationReply) (s : State) :
    (replied d c u response t s).registry.ids = s.registry.ids := by
  unfold replied
  split
  next =>
    exact run_ids (add_keeps_ids _ _ _ _ _ _) s (fun _ _ => rfl) (fun _ => rfl)
  next => rfl

theorem step_ids (s : State) (a : Act) (s' : State) (hs : step s a = some s') :
    s'.registry.ids = s.registry.ids := by
  cases a with
  | registerNode request =>
    obtain rfl := Option.some.inj hs
    rfl
  | takeQueued =>
    obtain ⟨_, _, -, -, rfl⟩ := step_takeQueued hs
    rfl
  | spawnCreation =>
    obtain ⟨item, -, rfl⟩ := Option.map_eq_some_iff.mp hs
    rfl
  | createReplica address d c u => exact Option.some.inj hs ▸ rfl
  | request k =>
    obtain ⟨_, _, _, _, -, rfl⟩ := step_request hs
    rfl
  | reply k response t =>
    obtain ⟨_, _, _, _, -, rfl⟩ := step_reply hs
    exact replied_ids _ _ _ t response _
  | failed k =>
    obtain ⟨_, _, _, _, -, rfl⟩ := step_failed hs
    rfl
  | sendHealthStatus request t =>
    obtain rfl := Option.some.inj hs
    refine run_ids (removeDead_keeps_ids request.workerId request.replicaStates) _ (fun _ s => ?_)
      (fun _ => rfl)
    split <;> rfl
  | recordMetrics w n avg sent =>
    obtain rfl := Option.some.inj hs
    rfl
  | subscribe t => exact Option.some.inj hs ▸ rfl
  | resume k =>
    obtain ⟨f, -, rfl⟩ := Option.map_eq_some_iff.mp hs
    rfl
  | cancel k =>
    obtain ⟨f, -, rfl⟩ := Option.map_eq_some_iff.mp hs
    rfl

/-- A registry operation within a handler leaves the rest of the state alone. -/
theorem run_frame {α : Type} {β : Type*} (f : State → β)
    (hf : ∀ s g e, f { s with registry := g, raised := e } = f s) {call : Py α} (s : State)
    {returned : α → State → State} {failed : State → State}
    (hr : ∀ x t, f (returned x t) = f t) (hfail : ∀ t, f (failed t) = f t) :
    f (s.run call returned failed) = f s := by
  unfold State.run
  cases call s.registry with
  | ok x g => exact (hr x _).trans (hf s g s.raised)
  | error e g => exact (hfail _).trans (hf s g _)

theorem replied_frame {β : Type*} (f : State → β)
    (hf : ∀ s g e fd p, f { s with
      registry := g, raised := e, feed := fd, pendingReplicas := p } = f s)
    (d c u t : ℕ) (response : ReplicaCreationReply) (s : State) :
    f (replied d c u response t s) = f s := by
  unfold replied
  split
  next =>
    exact run_frame f (fun s g e => hf s g e s.feed s.pendingReplicas) s
      (fun _ s => hf s s.registry s.raised _ s.pendingReplicas)
      (fun s => hf s s.registry s.raised s.feed _)
  next => rfl

theorem sendHealthStatus_frame {β : Type*} (f : State → β)
    (hf : ∀ s g e fd, f { s with registry := g, raised := e, feed := fd } = f s)
    (request : Protos.HealthStatusUpdate) (t : ℕ) (s : State) :
    f (sendHealthStatus request t s) = f s := by
  refine run_frame f (fun s g e => hf s g e s.feed) s (fun _ s => ?_) (fun _ => rfl)
  split
  · exact hf s s.registry s.raised _
  · rfl

/-- What the reply to a task records: the new replica records, and the
deployment once more when the node is unknown. -/
theorem replied_records (d c u t : ℕ) (response : ReplicaCreationReply) {s : State}
    (hd : d ∈ s.registry.ids) :
    (replied d c u response t s).registry.objects =
      s.registry.objects+(if response.created then response.replicas.length else 0) ∧
    (replied d c u response t s).pendingReplicas = s.pendingReplicas ++
      (if response.created ∧ response.workerId ∉ s.registry.nodeMap.keys then [d] else []) := by
  unfold replied
  by_cases hc : response.created
  · obtain ⟨g', hobj, hadd⟩ := add_known hd response.workerId c u response.workerAddress
      response.replicas
    cases hw : s.registry.nodeMap.get response.workerId with
    | none =>
      rw [hw] at hadd
      simp only [State.run, hadd, hc, if_true, hobj, Dict.get_eq_none.mp hw, not_false_eq_true,
        and_self]
    | some node =>
      have hk : response.workerId ∈ s.registry.nodeMap.keys := Dict.mem_keys.mpr ⟨node, hw⟩
      rw [hw] at hadd
      simp [State.run, hadd, hc, hk, onDeploymentChange, hobj]
  · simp [hc]

/-- Everything a handler can do to the tasks. -/
theorem step_creations (s : State) (a : Act) (s' : State) (hs : step s a = some s') :
    s'.creations = s.creations ∨
    (∃ address d c u, s'.creations = s.creations ++ [.called address d c u]) ∨
    (∃ k address d c u, a = .request k ∧ s.creations[k]? = some (.called address d c u) ∧
      s'.creations = s.creations.set k
        (if (s.registry.deployments.get d).isSome then .requesting address d c u else .done)) ∨
    ∃ k, (a = .failed k ∨ ∃ response t, a = .reply k response t) ∧
      s'.creations = s.creations.set k .done := by
  cases a with
  | registerNode request =>
    obtain rfl := Option.some.inj hs
    exact Or.inl rfl
  | takeQueued =>
    obtain ⟨_, _, -, -, rfl⟩ := step_takeQueued hs
    exact Or.inl rfl
  | spawnCreation =>
    obtain ⟨item, -, rfl⟩ := Option.map_eq_some_iff.mp hs
    exact Or.inr (Or.inl ⟨_, _, _, _, rfl⟩)
  | createReplica address d c u =>
    obtain rfl := Option.some.inj hs
    exact Or.inr (Or.inl ⟨address, d, c, u, rfl⟩)
  | request k =>
    obtain ⟨address, d, c, u, hk, rfl⟩ := step_request hs
    exact Or.inr (Or.inr (Or.inl ⟨k, address, d, c, u, rfl, hk, rfl⟩))
  | reply k response t =>
    obtain ⟨_, _, _, _, -, rfl⟩ := step_reply hs
    exact Or.inr (Or.inr (Or.inr ⟨k, Or.inr ⟨response, t, rfl⟩,
      replied_frame State.creations (fun _ _ _ _ _ => rfl) _ _ _ t response _⟩))
  | failed k =>
    obtain ⟨_, _, _, _, -, rfl⟩ := step_failed hs
    exact Or.inr (Or.inr (Or.inr ⟨k, Or.inl rfl, rfl⟩))
  | sendHealthStatus request t =>
    obtain rfl := Option.some.inj hs
    exact Or.inl (sendHealthStatus_frame State.creations (fun _ _ _ _ => rfl) request t _)
  | recordMetrics w n avg sent =>
    obtain rfl := Option.some.inj hs
    exact Or.inl rfl
  | subscribe t => exact Or.inl (Option.some.inj hs ▸ rfl)
  | resume k =>
    obtain ⟨f, -, rfl⟩ := Option.map_eq_some_iff.mp hs
    exact Or.inl rfl
  | cancel k =>
    obtain ⟨f, -, rfl⟩ := Option.map_eq_some_iff.mp hs
    exact Or.inl rfl

/-- A task at its RPC stays there until its own answer. -/
theorem requesting_stays {s s' : State} {a : Act} {k : ℕ} {address : String} {d c u : ℕ}
    (hk : s.creations[k]? = some (.requesting address d c u)) (hs : step s a = some s')
    (hreply : ∀ response t, a ≠ .reply k response t) (hfail : a ≠ .failed k) :
    s'.creations[k]? = some (.requesting address d c u) := by
  rcases step_creations s a s' hs with h | ⟨_, _, _, _, h⟩ | ⟨j, _, _, _, _, -, hj, h⟩ |
    ⟨j, ha, h⟩
  · rw [h, hk]
  · rw [h, List.getElem?_append_left (List.getElem?_eq_some_iff.mp hk).1, hk]
  · have hne : j ≠ k := by
      rintro rfl
      exact nomatch hj.symm.trans hk
    rw [h, List.getElem?_set_ne hne, hk]
  · have hne : j ≠ k := by
      rintro rfl
      rcases ha with rfl | ⟨response, t, rfl⟩
      · exact hfail rfl
      · exact hreply response t rfl
    rw [h, List.getElem?_set_ne hne, hk]

def RequestsKnown (s : State) : Prop :=
  ∀ (k : ℕ) address d c u, s.creations[k]? = some (.requesting address d c u) →
    d ∈ s.registry.ids

theorem step_known (s : State) (a : Act) (s' : State) (hi : RequestsKnown s)
    (hs : step s a = some s') : RequestsKnown s' := by
  intro k address d c u hk
  rw [step_ids s a s' hs]
  rcases step_creations s a s' hs with h | ⟨_, _, _, _, h⟩ | ⟨j, _, d', _, _, -, -, h⟩ |
    ⟨j, -, h⟩
  · exact hi k address d c u (h ▸ hk)
  · rw [h] at hk
    rcases getElem?_snoc.mp hk with hk | ⟨-, he⟩
    · exact hi k address d c u hk
    · cases he
  · rw [h] at hk
    rcases getElem?_set_cases hk with ⟨-, he⟩ | ⟨-, hk⟩
    · split at he
      next hd =>
        obtain ⟨-, rfl, -⟩ := Creation.requesting.inj he
        exact Dict.mem_keys.mpr (Option.isSome_iff_exists.mp hd)
      next => cases he
    · exact hi k address d c u hk
  · rw [h] at hk
    rcases getElem?_set_cases hk with ⟨-, he⟩ | ⟨-, hk⟩
    · cases he
    · exact hi k address d c u hk

theorem reachable_known {deployments : Dict ℕ DeploymentHandle} {as : List Act} {s : State}
    (hr : Runs.exec step as (initial deployments) = some s) : RequestsKnown s := by
  refine Runs.exec_invariant step_known ?_ hr
  intro k address d c u hk
  cases hk

end ServingSystem.Head.HeadController
