import ServingSystem.DeploymentHandle
import ServingSystem.Runs

/-!
# Replica selection against its history

Picks, failure marks and releases on one handle, each atomic, under a clock
that never runs backwards. The history records what was picked, marked and
released; it is read by no operation of the handle. The invariant relates
the lazily kept flag, timestamp and counter to the whole history.
-/

set_option autoImplicit false

namespace ServingSystem.Proxy.ReplicaSelection
open DeploymentHandle

inductive Event where
  | picked (t : ℤ) (info : Option ℕ)
  | marked (replicaId : String) (t : ℤ)
  | released (info : ℕ)
  deriving DecidableEq, Repr

inductive Act where
  | pick (t : ℤ)
  | mark (replicaId : String) (t : ℤ)
  | release (info : ℕ)
  deriving DecidableEq, Repr

structure State where
  handle : DeploymentHandle
  history : List Event
  clock : ℤ

def picks (history : List Event) (i : ℕ) : ℕ :=
  history.countP (fun e => match e with | .picked _ c => c = some i | _ => false)

def releases (history : List Event) (i : ℕ) : ℕ := history.count (.released i)

def unreleased (history : List Event) (i : ℕ) : ℤ := picks history i-releases history i

/-- The code releases from the destructor of a pick's releaser; no run needs
that pick to be open. -/
def step (s : State) : Act → Option State
  | .pick t =>
    if s.clock ≤ t then
      let out := s.handle.pickNextReplica t
      some ⟨out.2, s.history ++ [.picked t (out.1.map ReplicaConnection.info)], t⟩
    else none
  | .mark id t =>
    if s.clock ≤ t then
      some ⟨s.handle.markReplicaUnhealthy id t, s.history ++ [.marked id t], t⟩
    else none
  | .release i => some ⟨s.handle.releaseReplica i, s.history ++ [.released i], s.clock⟩

def fresh (h : DeploymentHandle) (t : ℤ) : State := ⟨h, [], t⟩

/-- No failure of the replica was reported in the fifteen seconds up to `t`. -/
def Unmarked (history : List Event) (t : ℤ) (id : String) : Prop :=
  ∀ m, .marked id m ∈ history → t-m > seconds 15

/-- The selection a pick at time `t` has to make, stated on the history. -/
structure MeetsHistory (s : State) (t : ℤ) : Prop where
  refuses : (s.handle.pickNextReplica t).1 = none ↔
    ∀ r ∈ s.handle.replicas, ∃ m, .marked r.replicaId m ∈ s.history ∧ t-m ≤ seconds 15
  returns : ∀ c, (s.handle.pickNextReplica t).1 = some c →
    ∃ r, s.handle.replicas[c.info]? = some r ∧ c.replicaId = r.replicaId ∧
      Unmarked s.history t r.replicaId ∧
      ∀ j r', s.handle.replicas[j]? = some r' → Unmarked s.history t r'.replicaId →
        unreleased s.history c.info ≤ unreleased s.history j ∧
        (j < c.info → unreleased s.history c.info < unreleased s.history j)
  counts : ∀ (j : ℕ) (r : ReplicaInfo), s.handle.replicas[j]? = some r →
    r.activeRequests = unreleased s.history j ∧
    (s.handle.pickNextReplica t).2.replicas[j]?.map ReplicaInfo.activeRequests = some
      (if (s.handle.pickNextReplica t).1.map ReplicaConnection.info = some j
       then r.activeRequests+1 else r.activeRequests)

structure Inv (ids : List String) (s : State) : Prop where
  ids_eq : s.handle.ids = ids
  load : ∀ (j : ℕ) (r : ReplicaInfo), s.handle.replicas[j]? = some r →
    r.activeRequests = unreleased s.history j
  past : ∀ id m, .marked id m ∈ s.history → m ≤ s.clock
  healthy : ∀ r ∈ s.handle.replicas, r.healthStatus = .healthy →
    Unmarked s.history s.clock r.replicaId
  unhealthy : ∀ r ∈ s.handle.replicas, r.healthStatus = .unhealthy →
    .marked r.replicaId r.lastFailureTime ∈ s.history ∧
    ∀ m, .marked r.replicaId m ∈ s.history → m ≤ r.lastFailureTime

theorem unreleased_picked (history : List Event) (t : ℤ) (c : Option ℕ) (i : ℕ) :
    unreleased (history ++ [.picked t c]) i =
      unreleased history i+(if c = some i then 1 else 0) := by
  by_cases h : c = some i <;>
    simp [unreleased, picks, releases, List.countP_append, List.count_append, h]
  omega

theorem unreleased_marked (history : List Event) (id : String) (t : ℤ) (i : ℕ) :
    unreleased (history ++ [.marked id t]) i = unreleased history i := by
  simp [unreleased, picks, releases, List.countP_append, List.count_append]

theorem unreleased_released (history : List Event) (k i : ℕ) :
    unreleased (history ++ [.released k]) i =
      unreleased history i-(if k = i then 1 else 0) := by
  by_cases h : k = i <;>
    simp [unreleased, picks, releases, List.countP_append, List.count_append, h]
  omega

theorem unmarked_mono {history : List Event} {t u : ℤ} {id : String} (htu : t ≤ u)
    (h : Unmarked history t id) : Unmarked history u id := by
  intro m hm
  have := h m hm
  omega

/-- The flag and the timestamp decide exactly the recent marks. -/
theorem Inv.eligible_iff {ids : List String} {s : State} (hi : Inv ids s) {t : ℤ}
    (ht : s.clock ≤ t) {r : ReplicaInfo} (hr : r ∈ s.handle.replicas) :
    Eligible t r ↔ Unmarked s.history t r.replicaId := by
  rw [DeploymentHandle.eligible_iff]
  cases h : r.healthStatus with
  | healthy => simpa using unmarked_mono ht (hi.healthy r hr h)
  | unhealthy =>
    obtain ⟨hm, hl⟩ := hi.unhealthy r hr h
    constructor
    · intro he m hmem
      have := hl m hmem
      have := he.resolve_left (by simp)
      omega
    · intro hu
      exact Or.inr (hu _ hm)

theorem unmarked_of_ne {history : List Event} {t u : ℤ} {id id' : String} (h : id' ≠ id)
    (hu : Unmarked history t id') : Unmarked (history ++ [.marked id u]) t id' := by
  intro m hm
  rcases List.mem_append.mp hm with hm | hm
  · exact hu m hm
  · simp only [List.mem_singleton, Event.marked.injEq] at hm
    exact absurd hm.1 h

theorem fresh_inv (info : Protos.DeploymentInfoMessage) (t : ℤ) :
    Inv (info.replicas.map Protos.ReplicaInfo.replicaId) (fresh (ofInfo info) t) where
  ids_eq := ofInfo_ids info
  load j r hr := by
    simp only [fresh, ofInfo_replicas, List.getElem?_map, Option.map_eq_some_iff] at hr
    obtain ⟨p, -, rfl⟩ := hr
    rfl
  past id m hm := by simp [fresh] at hm
  healthy r _ _ m hm := by simp [fresh] at hm
  unhealthy r hr hu := by
    simp only [fresh, ofInfo_replicas, List.mem_map] at hr
    obtain ⟨p, -, rfl⟩ := hr
    simp [ReplicaInfo.ofProto] at hu

theorem pick_inv {ids : List String} {s : State} {t : ℤ} (hi : Inv ids s) (ht : s.clock ≤ t) :
    Inv ids ⟨(s.handle.pickNextReplica t).2, s.history ++
      [.picked t ((s.handle.pickNextReplica t).1.map ReplicaConnection.info)], t⟩ := by
  have hmem : ∀ id m, .marked id m ∈ s.history ++
      [.picked t ((s.handle.pickNextReplica t).1.map ReplicaConnection.info)] ↔
      .marked id m ∈ s.history := by simp
  have hback : ∀ r' ∈ (s.handle.pickNextReplica t).2.replicas, ∃ r ∈ s.handle.replicas,
      r'.replicaId = r.replicaId ∧ r'.healthStatus = (recover t r).healthStatus ∧
      r'.lastFailureTime = r.lastFailureTime := by
    intro r' hr'
    obtain ⟨j, hj⟩ := List.getElem?_of_mem hr'
    rw [pick_getElem?, Option.map_eq_some_iff] at hj
    obtain ⟨r, hr, rfl⟩ := hj
    refine ⟨r, List.mem_of_getElem? hr, ?_⟩
    split <;> simp [acquire]
  refine ⟨(pick_ids _ _).trans hi.ids_eq, ?_, ?_, ?_, ?_⟩
  · intro j r' hr'
    rw [pick_getElem?, Option.map_eq_some_iff] at hr'
    obtain ⟨r, hr, rfl⟩ := hr'
    rw [unreleased_picked, ← hi.load j r hr]
    split <;> simp [acquire]
  · intro id m hm
    exact (hi.past id m ((hmem id m).mp hm)).trans ht
  · intro r' hr' hh m hm
    obtain ⟨r, hr, hid, hs, -⟩ := hback r' hr'
    rw [hid] at hm
    exact (hi.eligible_iff ht hr).mp (hs.symm.trans hh) m ((hmem _ m).mp hm)
  · intro r' hr' hh
    obtain ⟨r, hr, hid, hs, hl⟩ := hback r' hr'
    have hu : r.healthStatus = .unhealthy := by
      rw [hs] at hh
      unfold recover at hh
      split at hh
      · simp at hh
      · exact hh
    simp only [hid, hl, hmem]
    exact hi.unhealthy r hr hu

theorem mark_inv {ids : List String} (hn : ids.Nodup) {s : State} {id : String} {t : ℤ}
    (hi : Inv ids s) (ht : s.clock ≤ t) :
    Inv ids ⟨s.handle.markReplicaUnhealthy id t, s.history ++ [.marked id t], t⟩ := by
  have hd : s.handle.ids.Nodup := hi.ids_eq ▸ hn
  have hback : ∀ r' ∈ (s.handle.markReplicaUnhealthy id t).replicas, ∃ r ∈ s.handle.replicas,
      (r.replicaId = id ∧ r' = fail t r) ∨ (r.replicaId ≠ id ∧ r' = r) := by
    intro r' hr'
    obtain ⟨j, hj⟩ := List.getElem?_of_mem hr'
    rw [mark_getElem? _ hd, Option.map_eq_some_iff] at hj
    obtain ⟨r, hr, rfl⟩ := hj
    refine ⟨r, List.mem_of_getElem? hr, ?_⟩
    by_cases h : r.replicaId = id <;> simp [h]
  refine ⟨(mark_ids _ _ _).trans hi.ids_eq, ?_, ?_, ?_, ?_⟩
  · intro j r' hr'
    rw [mark_getElem? _ hd, Option.map_eq_some_iff] at hr'
    obtain ⟨r, hr, rfl⟩ := hr'
    rw [unreleased_marked, ← hi.load j r hr]
    split <;> simp [fail]
  · intro id' m hm
    rcases List.mem_append.mp hm with hm | hm
    · exact (hi.past id' m hm).trans ht
    · simp only [List.mem_singleton, Event.marked.injEq] at hm
      exact hm.2.le
  · intro r' hr' hh
    obtain ⟨r, hr, ⟨-, rfl⟩ | ⟨hne, rfl⟩⟩ := hback r' hr'
    · simp [fail] at hh
    · exact unmarked_of_ne hne (unmarked_mono ht (hi.healthy _ hr hh))
  · intro r' hr' hh
    obtain ⟨r, hr, ⟨rfl, rfl⟩ | ⟨hne, rfl⟩⟩ := hback r' hr'
    · refine ⟨by simp [fail], fun m hm => ?_⟩
      rcases List.mem_append.mp hm with hm | hm
      · exact (hi.past _ m hm).trans ht
      · simp only [List.mem_singleton, Event.marked.injEq] at hm
        exact hm.2.le
    · obtain ⟨hm, hl⟩ := hi.unhealthy _ hr hh
      refine ⟨List.mem_append_left _ hm, fun m hmm => ?_⟩
      rcases List.mem_append.mp hmm with hmm | hmm
      · exact hl m hmm
      · simp only [List.mem_singleton, Event.marked.injEq] at hmm
        exact absurd hmm.1 hne

theorem release_inv {ids : List String} {s : State} {i : ℕ} (hi : Inv ids s) :
    Inv ids ⟨s.handle.releaseReplica i, s.history ++ [.released i], s.clock⟩ := by
  have hmem : ∀ id m, .marked id m ∈ s.history ++ [.released i] ↔
      .marked id m ∈ s.history := by simp
  have hback : ∀ r' ∈ (s.handle.releaseReplica i).replicas, ∃ r ∈ s.handle.replicas,
      r'.replicaId = r.replicaId ∧ r'.healthStatus = r.healthStatus ∧
      r'.lastFailureTime = r.lastFailureTime := by
    intro r' hr'
    obtain ⟨j, hj⟩ := List.getElem?_of_mem hr'
    rw [release_getElem?, Option.map_eq_some_iff] at hj
    obtain ⟨r, hr, rfl⟩ := hj
    refine ⟨r, List.mem_of_getElem? hr, ?_⟩
    split <;> simp [release]
  refine ⟨(release_ids _ _).trans hi.ids_eq, ?_, ?_, ?_, ?_⟩
  · intro j r' hr'
    rw [release_getElem?, Option.map_eq_some_iff] at hr'
    obtain ⟨r, hr, rfl⟩ := hr'
    rw [unreleased_released, ← hi.load j r hr]
    split <;> simp [release]
  · intro id m hm
    exact hi.past id m ((hmem id m).mp hm)
  · intro r' hr' hh m hm
    obtain ⟨r, hr, hid, hs, -⟩ := hback r' hr'
    exact hi.healthy r hr (hs.symm.trans hh) m (hid ▸ (hmem _ m).mp hm)
  · intro r' hr' hh
    obtain ⟨r, hr, hid, hs, hl⟩ := hback r' hr'
    simp only [hid, hl, hmem]
    exact hi.unhealthy r hr (hs.symm.trans hh)

theorem step_inv {ids : List String} (hn : ids.Nodup) (s : State) (a : Act) (s' : State)
    (hi : Inv ids s) (hs : step s a = some s') : Inv ids s' := by
  cases a with
  | pick t =>
    obtain ⟨ht, rfl⟩ := Option.ite_some_none_eq_some.mp hs
    exact pick_inv hi ht
  | mark id t =>
    obtain ⟨ht, rfl⟩ := Option.ite_some_none_eq_some.mp hs
    exact mark_inv hn hi ht
  | release i => exact Option.some.inj hs ▸ release_inv hi

theorem Inv.meets {ids : List String} {s : State} (hi : Inv ids s) {t : ℤ}
    (ht : s.clock ≤ t) : MeetsHistory s t where
  refuses := by
    rw [pick_eq_none]
    apply forall₂_congr
    intro r hr
    rw [hi.eligible_iff ht hr, Unmarked]
    push Not
    rfl
  returns c hc := by
    obtain ⟨r, hr, hid, -⟩ := pick_eq_some hc
    refine ⟨r, hr.at_index, hid,
      (hi.eligible_iff ht (List.mem_of_getElem? hr.at_index)).mp hr.passes, ?_⟩
    intro j r' hj hu
    have he := (hi.eligible_iff ht (List.mem_of_getElem? hj)).mpr hu
    rw [← hi.load _ r hr.at_index, ← hi.load j r' hj]
    exact ⟨hr.least j r' hj he, hr.first j r' hj he⟩
  counts j r hj := by
    refine ⟨hi.load j r hj, ?_⟩
    rw [pick_getElem?, hj]
    simp only [Option.map_some]
    split <;> simp [acquire]

/-- From a fresh handle with distinct replica ids, every pick of every run
makes the selection prescribed by the history of picks, marks and releases. -/
theorem pick_meets_history (info : Protos.DeploymentInfoMessage)
    (hn : (info.replicas.map Protos.ReplicaInfo.replicaId).Nodup) (t₀ : ℤ)
    (as : List Act) (s : State) (hr : Runs.exec step as (fresh (ofInfo info) t₀) = some s)
    (t : ℤ) (ht : s.clock ≤ t) : MeetsHistory s t :=
  (Runs.exec_invariant (step_inv hn) (fresh_inv info t₀) hr).meets ht

theorem pick_meets_history_sample : ∃ s,
    Runs.exec step [.pick 0, .mark "1#1" 5, .release 0] (fresh (ofInfo sampleInfo) 0) = some s ∧
    MeetsHistory s (seconds 20) :=
  ⟨_, rfl, pick_meets_history sampleInfo (by decide) 0 [.pick 0, .mark "1#1" 5, .release 0] _ rfl
    (seconds 20) (by decide)⟩

end ServingSystem.Proxy.ReplicaSelection
