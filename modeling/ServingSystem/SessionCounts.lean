import ServingSystem.Positions
import ServingSystem.PythonSessions

/-!
# Counts and tables of the Python proxy

What a pick and the end of an attempt do to the counts of a handle, and what
an update does to the handles: the count of a replica stays the number of the
requests that hold it, and the table that of the last update.
-/

set_option autoImplicit false

namespace ServingSystem.PythonProxy.Sessions
open DeploymentHandle Protos Positions

theorem pick_spec {h : DeploymentHandle} {address id : String}
    (hp : h.pickNextReplica.1 = some (address, id)) :
    id ∈ h.pickNextReplica.2.replicaCache.keys ∧
      (∀ j ∈ h.replicaCache.keys, j ∈ h.pickNextReplica.2.replicaCache.keys) ∧
      (∀ j, h.pickNextReplica.2.count j = h.count j+if j = id then 1 else 0) ∧
      h.pickNextReplica.2.deploymentId = h.deploymentId ∧
      h.pickNextReplica.2.replicas = h.replicas := by
  cases hmin : LeastScan.firstMin (fun r => h.count r.replicaId)
      (h.replicas.filter (fun r => r.state = "RUNNING")) with
  | none =>
    simp only [pickNextReplica, hmin] at hp
    cases hp
  | some selected =>
    simp only [pickNextReplica, hmin] at hp ⊢
    obtain ⟨-, rfl⟩ := Prod.mk.inj (Option.some.inj hp)
    refine ⟨Dict.mem_keys_set.mpr (Or.inl rfl), fun j hj => Dict.mem_keys_set.mpr (Or.inr hj),
      fun j => ?_, trivial, trivial⟩
    by_cases hj : j = selected.replicaId
    · simp [count, hj]
    · simp [count, hj]

theorem finish_spec {h : DeploymentHandle} {id : String} (hkey : id ∈ h.replicaCache.keys)
    (hpos : 1 ≤ h.count id) :
    (∀ j, j ∈ (h.finish id).replicaCache.keys ↔ j ∈ h.replicaCache.keys) ∧
      (∀ j, (h.finish id).count j = h.count j-if j = id then 1 else 0) ∧
      (h.finish id).deploymentId = h.deploymentId ∧ (h.finish id).replicas = h.replicas := by
  obtain ⟨n, hn⟩ := Dict.mem_keys.mp hkey
  have hcount : h.count id = n := count_of_get hn
  rw [finish_of_get hn, clamp_decrement hn (hcount ▸ hpos)]
  refine ⟨fun j => ?_, fun j => ?_, rfl, rfl⟩
  · rw [decrement, Dict.keys_modify]
  · by_cases hj : j = id
    · subst hj
      simp [count, decrement, hn]
    · simp [count, decrement, hj]

theorem initialize_count (l : List Protos.ReplicaInfo) {cache : Dict String ℤ}
    (hc : ∀ id, (cache.get id).getD 0 = 0) (id : String) :
    ((initializeReplicasAndCache l cache).2.get id).getD 0 = 0 := by
  induction l generalizing cache with
  | nil => exact hc id
  | cons r l ih =>
    refine ih (fun j => ?_)
    have hset : ∀ d : Dict String ℤ, (d.get j).getD 0 = 0 →
        ((d.set r.replicaId 0).get j).getD 0 = 0 := by
      intro d hd
      rw [Dict.get_set]
      split
      · rfl
      · exact hd
    have herase : ∀ d : Dict String ℤ, (d.get j).getD 0 = 0 →
        ((d.erase r.replicaId).get j).getD 0 = 0 := by
      intro d hd
      rw [Dict.get_erase]
      split
      · rfl
      · exact hd
    simp only [cacheReplica]
    split <;> split
    · exact herase _ (hset _ (hc j))
    · exact hset _ (hc j)
    · exact herase _ (hc j)
    · exact hc j

theorem ofInfo_count (deploymentId : ℕ) (info : DeploymentInfoMessage) (id : String) :
    (DeploymentHandle.ofInfo deploymentId info).count id = 0 :=
  initialize_count info.replicas (fun _ => rfl) id

def holds (i : ℕ) (id : String) (r : Request) : Bool := r.picked = some (i, id)

/-- A count is the number of requests that hold it. -/
structure Counted (s : State) : Prop where
  counts : ∀ (i : ℕ) h, s.heap[i]? = some h → ∀ id, h.count id = s.requests.countP (holds i id)
  keys : ∀ r ∈ s.requests, ∀ i id, r.picked = some (i, id) →
    ∃ h, s.heap[i]? = some h ∧ id ∈ h.replicaCache.keys

section
variable {s u : State} {k : ℕ} {r r' : Request}

theorem countP_holds (hk : s.requests[k]? = some r) (r' : Request) (i : ℕ) (id : String) :
    ((s.requests.set k r').countP (holds i id) : ℤ) = s.requests.countP (holds i id)-
      (if r.picked = some (i, id) then 1 else 0)+(if r'.picked = some (i, id) then 1 else 0) := by
  have hset := countP_set (holds i id) hk r'
  simpa only [holds, decide_eq_true_eq] using hset

theorem Counted.keep (hc : Counted s) (hheap : u.heap = s.heap) (hreq : u.requests = s.requests)
    (hk : s.requests[k]? = some r) (hp : r'.picked = r.picked) : Counted (u.put k r') where
  counts i h hi id := by
    simp only [State.put, hreq]
    rw [hc.counts i h (hheap ▸ hi) id, countP_holds hk, hp]
    omega
  keys x hx i id hi := by
    simp only [State.put, hheap]
    simp only [State.put, hreq] at hx
    rcases mem_set hx with rfl | hx
    · exact hc.keys r (List.mem_of_getElem? hk) i id (hp ▸ hi)
    · exact hc.keys x hx i id hi

theorem Counted.created (hc : Counted s) (deploymentName : String) :
    Counted { s with requests := s.requests ++ [created deploymentName] } where
  counts i h hi id := by
    rw [hc.counts i h hi id]
    simp [holds, Sessions.created]
  keys x hx i id hi := by
    rcases List.mem_append.mp hx with hx | hx
    · exact hc.keys x hx i id hi
    · rw [List.mem_singleton.mp hx] at hi
      cases hi

theorem Counted.appended (hc : Counted s) (update : List (ℕ × DeploymentInfoMessage))
    (hreq : u.requests = s.requests)
    (hheap : u.heap = s.heap ++ update.map (fun e => .ofInfo e.1 e.2)) : Counted u where
  counts i h hi id := by
    rw [hreq]
    rw [hheap] at hi
    by_cases hlt : i < s.heap.length
    · rw [List.getElem?_append_left hlt] at hi
      exact hc.counts i h hi id
    · rw [List.getElem?_append_right (Nat.le_of_not_lt hlt), List.getElem?_map] at hi
      obtain ⟨e, -, rfl⟩ := Option.map_eq_some_iff.mp hi
      rw [ofInfo_count, eq_comm, Nat.cast_eq_zero, List.countP_eq_zero]
      intro x hx hp
      obtain ⟨h, hh, -⟩ := hc.keys x hx i id (by simpa [holds] using hp)
      exact hlt (List.getElem?_eq_some_iff.mp hh).1
  keys x hx i id hi := by
    obtain ⟨h, hh, hkey⟩ := hc.keys x (hreq ▸ hx) i id hi
    refine ⟨h, ?_, hkey⟩
    rw [hheap, List.getElem?_append_left (List.getElem?_eq_some_iff.mp hh).1, hh]

theorem Counted.picked (hc : Counted s) (hk : s.requests[k]? = some r) (hnone : r.picked = none)
    {i : ℕ} {h : DeploymentHandle} (hi : s.heap[i]? = some h) {address id : String}
    (hp : h.pickNextReplica.1 = some (address, id)) (hr' : r'.picked = some (i, id))
    (hreq : u.requests = s.requests) (hheap : u.heap = s.heap.set i h.pickNextReplica.2) :
    Counted (u.put k r') := by
  obtain ⟨hkey, hkeys, hcounts, -⟩ := pick_spec hp
  constructor
  · intro j g hj q
    simp only [State.put, hheap, hreq] at hj ⊢
    rw [countP_holds hk, hnone, hr']
    rcases getElem?_set_cases hj with ⟨rfl, rfl⟩ | ⟨hne, hj⟩
    · rw [hcounts q, hc.counts j h hi q]
      simp [eq_comm]
    · rw [hc.counts j g hj q]
      simp [Ne.symm hne]
  · intro x hx j q hq
    simp only [State.put, hheap, hreq] at hx ⊢
    have hlt := (List.getElem?_eq_some_iff.mp hi).1
    rcases mem_set hx with rfl | hx
    · obtain ⟨rfl, rfl⟩ := Prod.mk.inj (Option.some.inj (hr'.symm.trans hq))
      exact ⟨_, List.getElem?_set_self hlt, hkey⟩
    · obtain ⟨g, hg, hqk⟩ := hc.keys x hx j q hq
      by_cases hji : j = i
      · subst hji
        obtain rfl := Option.some.inj (hi.symm.trans hg)
        exact ⟨_, List.getElem?_set_self hlt, hkeys q hqk⟩
      · exact ⟨g, by rw [List.getElem?_set_ne (Ne.symm hji), hg], hqk⟩

theorem Counted.finish (hc : Counted s) (hk : s.requests[k]? = some r) (hr' : r'.picked = none) :
    Counted ((s.finish r).put k r') := by
  cases hpicked : r.picked with
  | none =>
    have hs : s.finish r = s := by rw [State.finish, hpicked]
    rw [hs]
    exact hc.keep rfl rfl hk (hr'.trans hpicked.symm)
  | some p =>
    obtain ⟨i, id⟩ := p
    have hmem := List.mem_of_getElem? hk
    obtain ⟨h, hi, hkey⟩ := hc.keys r hmem i id hpicked
    have hpos : 1 ≤ h.count id := by
      have hcp : 0 < s.requests.countP (holds i id) :=
        List.countP_pos_iff.mpr ⟨r, hmem, by simp [holds, hpicked]⟩
      rw [hc.counts i h hi id]
      omega
    obtain ⟨hkeys, hcounts, -⟩ := finish_spec hkey hpos
    have hs : s.finish r = { s with heap := s.heap.modify i (fun h => h.finish id) } := by
      rw [State.finish, hpicked]
    rw [hs]
    constructor
    · intro j g hj q
      simp only [State.put] at hj ⊢
      rw [List.getElem?_modify] at hj
      obtain ⟨g', hg', rfl⟩ := Option.map_eq_some_iff.mp hj
      rw [countP_holds hk, hpicked, hr']
      by_cases hij : i = j
      · subst hij
        obtain rfl := Option.some.inj (hi.symm.trans hg')
        rw [if_pos rfl, hcounts q, hc.counts i h hi q]
        simp [eq_comm]
      · rw [if_neg hij, hc.counts j g' hg' q]
        simp [hij]
    · intro x hx j q hq
      simp only [State.put] at hx ⊢
      rcases mem_set hx with rfl | hx
      · cases hr'.symm.trans hq
      · obtain ⟨g, hg, hqk⟩ := hc.keys x hx j q hq
        refine ⟨_, List.getElem?_modify .. |>.trans (congrArg _ hg), ?_⟩
        split
        next hij =>
          subst hij
          obtain rfl := Option.some.inj (hi.symm.trans hg)
          exact (hkeys q).mpr hqk
        next => exact hqk

end

def State.applied (s : State) : List (ℕ × DeploymentInfoMessage) :=
  (if s.updating then s.updates.dropLast else s.updates).getLast?.getD []

structure BuiltFrom (h : DeploymentHandle) (entry : ℕ × DeploymentInfoMessage) : Prop where
  deploymentId : h.deploymentId = entry.1
  replicas : h.replicas = entry.2.replicas.map (fun r => ⟨r.replicaId, r.address, r.state⟩)

structure Current (heap : List DeploymentHandle) (table : Dict String ℕ)
    (entries : List (ℕ × DeploymentInfoMessage)) : Prop where
  unknown : ∀ name, table.get name = none → ∀ e ∈ entries, e.2.deploymentName ≠ name
  known : ∀ name i, table.get name = some i → ∃ h e, heap[i]? = some h ∧ e ∈ entries ∧
    e.2.deploymentName = name ∧ BuiltFrom h e

theorem insert_heap (heap : List DeploymentHandle) (entries : List (ℕ × DeploymentInfoMessage)) :
    (entries.foldl insertDeployment (heap, .empty)).1 =
      heap ++ entries.map (fun e => .ofInfo e.1 e.2) := by
  induction entries using List.reverseRecOn with
  | nil => simp
  | append_singleton entries e ih =>
    rw [List.foldl_append, List.foldl_cons, List.foldl_nil, insertDeployment, ih]
    simp

theorem insert_current (heap : List DeploymentHandle)
    (entries : List (ℕ × DeploymentInfoMessage)) :
    Current (entries.foldl insertDeployment (heap, .empty)).1
      (entries.foldl insertDeployment (heap, .empty)).2 entries := by
  induction entries using List.reverseRecOn with
  | nil => exact ⟨fun _ _ _ h => (nomatch h), fun _ _ h => (nomatch h)⟩
  | append_singleton entries e ih =>
    simp only [List.foldl_append, List.foldl_cons, List.foldl_nil, insertDeployment]
    refine ⟨fun name hn => ?_, fun name i hi => ?_⟩
    · rw [Dict.get_set] at hn
      split at hn
      next => cases hn
      next hne =>
        intro d hd
        rcases List.mem_append.mp hd with hd | hd
        · exact ih.unknown name hn d hd
        · rw [List.mem_singleton.mp hd]
          exact Ne.symm hne
    · rw [Dict.get_set] at hi
      split at hi
      next he =>
        obtain rfl := Option.some.inj hi
        exact ⟨_, e, List.getElem?_concat_length, by simp, he.symm, rfl, ofInfo_replicas _ _⟩
      next hne =>
        obtain ⟨h, d, hh, hd, hname, hb⟩ := ih.known name i hi
        refine ⟨h, d, ?_, List.mem_append_left _ hd, hname, hb⟩
        rw [List.getElem?_append_left (List.getElem?_eq_some_iff.mp hh).1, hh]

theorem Current.keep {heap heap' : List DeploymentHandle} {table : Dict String ℕ}
    {entries : List (ℕ × DeploymentInfoMessage)} (hc : Current heap table entries)
    (hheap : ∀ (i : ℕ) h, heap[i]? = some h → ∃ h', heap'[i]? = some h' ∧
      h'.deploymentId = h.deploymentId ∧ h'.replicas = h.replicas) :
    Current heap' table entries := by
  refine ⟨hc.unknown, fun name i hi => ?_⟩
  obtain ⟨h, e, hh, he, hname, hb⟩ := hc.known name i hi
  obtain ⟨h', hh', hid, hreplicas⟩ := hheap i h hh
  exact ⟨h', e, hh', he, hname, hid.trans hb.deploymentId, hreplicas.trans hb.replicas⟩

theorem finish_built (h : DeploymentHandle) (id : String) :
    (h.finish id).deploymentId = h.deploymentId ∧ (h.finish id).replicas = h.replicas := by
  unfold DeploymentHandle.finish
  split
  · unfold clamp
    split <;> exact ⟨rfl, rfl⟩
  · exact ⟨rfl, rfl⟩

end ServingSystem.PythonProxy.Sessions
