import ServingSystem.DeploymentHandle
import ServingSystem.PythonHandle
import ServingSystem.Runs

/-!
# The two handles side by side

The C++ and the Python handle of one deployment message under the same picks
and completions. A request that raises or is given no replica fails; no
failing step is taken.
-/

set_option autoImplicit false

namespace ServingSystem.RoutingAlike
open Positions

inductive Phase where
  | picked
  | streaming
  | done
  deriving DecidableEq, Repr

structure Request where
  connection : Option Proxy.ReplicaConnection
  target : Option (String × String)
  phase : Phase
  deriving DecidableEq, Repr

structure State where
  cpp : Proxy.DeploymentHandle
  python : PythonProxy.DeploymentHandle
  requests : List Request

inductive Act where
  | pick (now : ℤ)
  | stream (k : ℕ)
  | complete (k : ℕ)
  deriving DecidableEq, Repr

def step (s : State) : Act → Option State
  | .pick now =>
    let c := s.cpp.pickNextReplica now
    let p := s.python.pickNextReplica
    some ⟨c.2, p.2, s.requests ++ [⟨c.1, p.1, .picked⟩]⟩
  | .stream k =>
    match s.requests[k]? with
    | some ⟨c, some (address, id), .picked⟩ =>
      match s.python.attempt address id with
      | .raises => none
      | .aborts => some { s with
          python := s.python.finish id
          requests := s.requests.set k ⟨c, some (address, id), .done⟩ }
      | .streams => some { s with
          requests := s.requests.set k ⟨c, some (address, id), .streaming⟩ }
    | _ => none
  | .complete k =>
    match s.requests[k]? with
    | some ⟨some c, some (address, id), .streaming⟩ => some
        { cpp := s.cpp.releaseReplica c.info
          python := s.python.finish id
          requests := s.requests.set k ⟨some c, some (address, id), .done⟩ }
    | _ => none

def start (deploymentId : ℕ) (info : Protos.DeploymentInfoMessage) : State :=
  ⟨.ofInfo info, .ofInfo deploymentId info, []⟩

/-- Both picks returned nothing, or the same replica of the message. -/
def SameChoice (replicas : List Protos.ReplicaInfo) (r : Request) : Prop :=
  (r.connection = none ∧ r.target = none) ∨
    ∃ c m, r.connection = some c ∧ replicas[c.info]? = some m ∧ c.replicaId = m.replicaId ∧
      c.channel = some ⟨m.address⟩ ∧ r.target = some (m.address, m.replicaId)

def openAt (j : ℕ) (r : Request) : Bool :=
  r.phase ≠ .done ∧ r.connection.map Proxy.ReplicaConnection.info = some j

def outstanding (requests : List Request) (j : ℕ) : ℤ := requests.countP (openAt j)

structure Inv (replicas : List Protos.ReplicaInfo) (s : State) : Prop where
  ids : s.cpp.ids = replicas.map Protos.ReplicaInfo.replicaId
  healthy : ∀ r ∈ s.cpp.replicas, r.healthStatus = .healthy
  channels : ∀ m ∈ replicas, s.cpp.channelCache.get m.replicaId = some ⟨m.address⟩
  python : s.python.replicas = replicas.map (fun r => ⟨r.replicaId, r.address, r.state⟩)
  counts : ∀ (j : ℕ) (r : Proxy.ReplicaInfo), s.cpp.replicas[j]? = some r →
    r.activeRequests = outstanding s.requests j ∧
    s.python.replicaCache.get r.replicaId = some r.activeRequests
  requests : ∀ r ∈ s.requests, SameChoice replicas r

theorem start_inv (deploymentId : ℕ) {info : Protos.DeploymentInfoMessage}
    (hr : ∀ r ∈ info.replicas, r.state = "RUNNING")
    (hn : (info.replicas.map Protos.ReplicaInfo.replicaId).Nodup) :
    Inv info.replicas (start deploymentId info) where
  ids := Proxy.DeploymentHandle.ofInfo_ids info
  healthy r hm := by
    rw [start, Proxy.DeploymentHandle.ofInfo_replicas] at hm
    obtain ⟨m, -, rfl⟩ := List.mem_map.mp hm
    rfl
  channels m hm := Proxy.DeploymentHandle.ofInfo_channel hn hm
  python := PythonProxy.DeploymentHandle.ofInfo_replicas deploymentId info
  counts j r hj := by
    rw [start, Proxy.DeploymentHandle.ofInfo_replicas, List.getElem?_map,
      Option.map_eq_some_iff] at hj
    obtain ⟨m, hm, rfl⟩ := hj
    exact ⟨rfl, PythonProxy.DeploymentHandle.ofInfo_get hr deploymentId (List.mem_of_getElem? hm)⟩
  requests r hm := by cases hm

theorem Inv.member {replicas : List Protos.ReplicaInfo} {s : State} (hi : Inv replicas s) {j : ℕ}
    {r : Proxy.ReplicaInfo} (hj : s.cpp.replicas[j]? = some r) :
    ∃ m, replicas[j]? = some m ∧ r.replicaId = m.replicaId := by
  have hid : s.cpp.ids[j]? = some r.replicaId := by
    rw [Proxy.DeploymentHandle.ids, List.getElem?_map, hj, Option.map_some]
  rw [hi.ids, List.getElem?_map, Option.map_eq_some_iff] at hid
  obtain ⟨m, hm, he⟩ := hid
  exact ⟨m, hm, he.symm⟩

theorem Inv.replica {replicas : List Protos.ReplicaInfo} {s : State} (hi : Inv replicas s) {j : ℕ}
    {m : Protos.ReplicaInfo} (hj : replicas[j]? = some m) :
    ∃ r, s.cpp.replicas[j]? = some r ∧ r.replicaId = m.replicaId := by
  have hid : s.cpp.ids[j]? = some m.replicaId := by
    rw [hi.ids, List.getElem?_map, hj, Option.map_some]
  rw [Proxy.DeploymentHandle.ids, List.getElem?_map, Option.map_eq_some_iff] at hid
  obtain ⟨r, hr, he⟩ := hid
  exact ⟨r, hr, he⟩

theorem id_inj {replicas : List Protos.ReplicaInfo}
    (hn : (replicas.map Protos.ReplicaInfo.replicaId).Nodup) {i j : ℕ}
    {a b : Protos.ReplicaInfo} (hi : replicas[i]? = some a) (hj : replicas[j]? = some b)
    (he : a.replicaId = b.replicaId) : i = j := by
  have hlt : i < (replicas.map Protos.ReplicaInfo.replicaId).length := by
    rw [List.length_map]
    exact (List.getElem?_eq_some_iff.mp hi).1
  apply (List.getElem?_inj hlt hn).mp
  rw [List.getElem?_map, List.getElem?_map, hi, hj, Option.map_some, Option.map_some, he]

theorem outstanding_snoc (requests : List Request) (r : Request) (j : ℕ) :
    outstanding (requests ++ [r]) j = outstanding requests j+(if openAt j r then 1 else 0) := by
  rw [outstanding, outstanding, List.countP_append, List.countP_singleton]
  push_cast
  rfl

/-- Where the C++ pick chooses a replica, the Python pick chooses it too. -/
theorem Inv.pick_alike {replicas : List Protos.ReplicaInfo} {s : State} (hi : Inv replicas s)
    (hr : ∀ r ∈ replicas, r.state = "RUNNING")
    (hn : (replicas.map Protos.ReplicaInfo.replicaId).Nodup) {now : ℤ} {i : ℕ}
    {r : Proxy.ReplicaInfo} (hc : s.cpp.Chosen now i r) :
    ∃ m, replicas[i]? = some m ∧ r.replicaId = m.replicaId ∧
      s.python.pickNextReplica = (some (m.address, m.replicaId),
        { s.python with replicaCache :=
            s.python.replicaCache.set m.replicaId (r.activeRequests+1) }) := by
  have hcount : ∀ (j : ℕ) (q : Proxy.ReplicaInfo), s.cpp.replicas[j]? = some q →
      s.python.count q.replicaId = q.activeRequests := fun j q hj =>
    PythonProxy.DeploymentHandle.count_of_get (hi.counts j q hj).2
  obtain ⟨m, hm, hid⟩ := hi.member hc.at_index
  have hrun : ∀ q ∈ s.python.replicas, q.state = "RUNNING" := by
    intro q hq
    rw [hi.python] at hq
    obtain ⟨n, hn, rfl⟩ := List.mem_map.mp hq
    exact hr n hn
  have hids : (s.python.replicas.map PythonProxy.ReplicaInfo.replicaId).Nodup := by
    rw [hi.python, List.map_map]
    exact hn
  have hfirst : LeastScan.FirstLeast (fun _ => True)
      (fun q : PythonProxy.ReplicaInfo => s.python.count q.replicaId) s.python.replicas i
      ⟨m.replicaId, m.address, m.state⟩ := by
    apply LeastScan.FirstLeast.transfer hc
    · rw [hi.python, List.getElem?_map, hm, Option.map_some]
    · intro j q hj
      rw [hi.python, List.getElem?_map, Option.map_eq_some_iff] at hj
      obtain ⟨n, hn, rfl⟩ := hj
      obtain ⟨b, hb, he⟩ := hi.replica hn
      refine ⟨b, hb, Proxy.DeploymentHandle.eligible_of_healthy
        (hi.healthy b (List.mem_of_getElem? hb)) now, ?_⟩
      rw [← hcount j b hb, he]
  have hload : s.python.count m.replicaId = r.activeRequests := by
    rw [← hid]
    exact hcount i r hc.at_index
  refine ⟨m, hm, hid, ?_⟩
  rw [PythonProxy.DeploymentHandle.pick_of_firstLeast hrun hids hfirst]
  simp only [hload]

theorem Inv.update {replicas : List Protos.ReplicaInfo}
    (hn : (replicas.map Protos.ReplicaInfo.replicaId).Nodup) {s : State} (hi : Inv replicas s)
    {i : ℕ} {m : Protos.ReplicaInfo} (hm : replicas[i]? = some m) {d : ℤ}
    {f : Proxy.ReplicaInfo → Proxy.ReplicaInfo}
    (hf : ∀ r, (f r).replicaId = r.replicaId ∧ (f r).healthStatus = r.healthStatus ∧
      (f r).activeRequests = r.activeRequests+d)
    {cache : Dict String ℤ} (hcache : ∀ id n, s.python.replicaCache.get id = some n →
      cache.get id = some (if id = m.replicaId then n+d else n))
    {requests : List Request} (hout : ∀ j, outstanding requests j =
      outstanding s.requests j+(if i = j then d else 0))
    (hreq : ∀ r ∈ requests, SameChoice replicas r) :
    Inv replicas ⟨{ s.cpp with replicas := s.cpp.replicas.modify i f },
      { s.python with replicaCache := cache }, requests⟩ := by
  have hget : ∀ (j : ℕ) (q : Proxy.ReplicaInfo), (s.cpp.replicas.modify i f)[j]? = some q →
      ∃ r, s.cpp.replicas[j]? = some r ∧ q = if i = j then f r else r := by
    intro j q hj
    rw [List.getElem?_modify] at hj
    obtain ⟨r, hr, he⟩ := Option.map_eq_some_iff.mp hj
    exact ⟨r, hr, he.symm⟩
  refine ⟨?_, fun q hq => ?_, hi.channels, hi.python, fun j q hj => ?_, hreq⟩
  · rw [← hi.ids]
    exact map_modify_eq (fun r => (hf r).1) s.cpp.replicas i
  · exact forall_modify (fun r hr => (hf r).2.1.trans hr) hi.healthy i q hq
  · obtain ⟨r, hr, rfl⟩ := hget j q hj
    obtain ⟨hcount, hg⟩ := hi.counts j r hr
    obtain ⟨n, hn', hid⟩ := hi.member hr
    have hc := hcache r.replicaId r.activeRequests hg
    show _ = outstanding requests j ∧ cache.get _ = _
    rw [hout]
    by_cases h : i = j
    · subst h
      obtain rfl := Option.some.inj (hm.symm.trans hn')
      rw [if_pos rfl, if_pos rfl, (hf r).2.2, (hf r).1, hc, if_pos hid, hcount]
      exact ⟨rfl, rfl⟩
    · have hne : r.replicaId ≠ m.replicaId := fun he =>
        h (id_inj hn hm hn' (he.symm.trans hid))
      rw [if_neg h, if_neg h, hc, if_neg hne, add_zero]
      exact ⟨hcount, rfl⟩

theorem pick_inv {replicas : List Protos.ReplicaInfo} (hr : ∀ r ∈ replicas, r.state = "RUNNING")
    (hn : (replicas.map Protos.ReplicaInfo.replicaId).Nodup) {s s' : State} {now : ℤ}
    (hi : Inv replicas s) (hs : step s (.pick now) = some s') : Inv replicas s' := by
  obtain rfl := Option.some.inj hs
  have hreq : ∀ q, SameChoice replicas q → ∀ r ∈ s.requests ++ [q], SameChoice replicas r := by
    intro q hq r hm
    rcases List.mem_append.mp hm with hm | hm
    · exact hi.requests r hm
    · rwa [List.mem_singleton.mp hm]
  rcases Proxy.DeploymentHandle.pick_healthy hi.healthy now with ⟨he, hp⟩ | ⟨i, r, hc, hp⟩
  · have hnil : replicas = [] := by
      have hids := hi.ids
      rw [Proxy.DeploymentHandle.ids, he] at hids
      exact List.map_eq_nil_iff.mp hids.symm
    have hq : s.python.pickNextReplica = (none, s.python) :=
      PythonProxy.DeploymentHandle.pick_empty (by rw [hi.python, hnil, List.map_nil])
    simp only [hp, hq]
    refine ⟨hi.ids, hi.healthy, hi.channels, hi.python, fun j q hj => ?_,
      hreq _ (Or.inl ⟨rfl, rfl⟩)⟩
    rw [he] at hj
    cases hj
  · obtain ⟨m, hm, hid, hq⟩ := hi.pick_alike hr hn hc
    have hg : s.python.replicaCache.get m.replicaId = some r.activeRequests := by
      rw [← hid]
      exact (hi.counts i r hc.at_index).2
    simp only [hp, hq]
    apply hi.update hn hm (d := 1)
    · intro q
      exact ⟨rfl, rfl, rfl⟩
    · intro id n hn
      rw [Dict.get_set]
      by_cases h : id = m.replicaId
      · subst h
        rw [if_pos rfl, if_pos rfl, Option.some.inj (hg.symm.trans hn)]
      · rw [if_neg h, if_neg h, hn]
    · intro j
      rw [outstanding_snoc]
      simp [openAt]
    · apply hreq
      refine Or.inr ⟨_, m, rfl, hm, hid, ?_, rfl⟩
      show s.cpp.channelCache.get r.replicaId = _
      rw [hid]
      exact hi.channels m (List.mem_of_getElem? hm)

theorem outstanding_set {requests : List Request} {k : ℕ} {r : Request}
    (hk : requests[k]? = some r) (q : Request) (j : ℕ) :
    outstanding (requests.set k q) j = outstanding requests j-(if openAt j r then 1 else 0)+
      (if openAt j q then 1 else 0) :=
  countP_set (openAt j) hk q

theorem same_set {replicas : List Protos.ReplicaInfo} {requests : List Request} {k : ℕ}
    {r : Request} (h : ∀ q ∈ requests, SameChoice replicas q) (hk : requests[k]? = some r)
    (phase : Phase) : ∀ q ∈ requests.set k { r with phase := phase }, SameChoice replicas q := by
  intro q hq
  rcases mem_set hq with rfl | hq
  · exact h r (List.mem_of_getElem? hk)
  · exact h q hq

/-- The replica of an open request has its request counted on both sides. -/
theorem Inv.counted {replicas : List Protos.ReplicaInfo} {s : State} (hi : Inv replicas s)
    {k : ℕ} {r : Request} (hk : s.requests[k]? = some r) (hopen : r.phase ≠ .done)
    {address id : String} (ht : r.target = some (address, id)) :
    ∃ c m n, r.connection = some c ∧ replicas[c.info]? = some m ∧ id = m.replicaId ∧
      s.python.replicaCache.get id = some n ∧ 1 ≤ n := by
  rcases hi.requests r (List.mem_of_getElem? hk) with ⟨-, hnone⟩ | ⟨c, m, hc, hm, -, -, hsome⟩
  · rw [hnone] at ht
    cases ht
  · obtain ⟨-, rfl⟩ := Prod.mk.inj (Option.some.inj (hsome.symm.trans ht))
    obtain ⟨q, hq, hid⟩ := hi.replica hm
    obtain ⟨hcount, hg⟩ := hi.counts _ q hq
    refine ⟨c, m, q.activeRequests, hc, hm, rfl, by rw [← hid, hg], ?_⟩
    have hpos : 0 < s.requests.countP (openAt c.info) :=
      List.countP_pos_iff.mpr ⟨r, List.mem_of_getElem? hk, by simp [openAt, hopen, hc]⟩
    rw [hcount, outstanding]
    exact_mod_cast hpos

theorem step_stream {s s' : State} {k : ℕ} (hs : step s (.stream k) = some s') :
    ∃ c address id, s.requests[k]? = some ⟨c, some (address, id), .picked⟩ ∧
      ((s.python.attempt address id = .aborts ∧ s' = { s with
          python := s.python.finish id
          requests := s.requests.set k ⟨c, some (address, id), .done⟩ }) ∨
        s' = { s with requests := s.requests.set k ⟨c, some (address, id), .streaming⟩ }) := by
  simp only [step] at hs
  split at hs
  next c address id hk =>
    refine ⟨c, address, id, hk, ?_⟩
    split at hs
    · cases hs
    next ha => exact Or.inl ⟨ha, (Option.some.inj hs).symm⟩
    · exact Or.inr (Option.some.inj hs).symm
  · cases hs

theorem step_complete {s s' : State} {k : ℕ} (hs : step s (.complete k) = some s') :
    ∃ c address id, s.requests[k]? = some ⟨some c, some (address, id), .streaming⟩ ∧
      s' = { cpp := s.cpp.releaseReplica c.info
             python := s.python.finish id
             requests := s.requests.set k ⟨some c, some (address, id), .done⟩ } := by
  simp only [step] at hs
  split at hs
  next c address id hk => exact ⟨c, address, id, hk, (Option.some.inj hs).symm⟩
  · cases hs

theorem stream_inv {replicas : List Protos.ReplicaInfo} {s s' : State} {k : ℕ}
    (hi : Inv replicas s) (hs : step s (.stream k) = some s') : Inv replicas s' := by
  obtain ⟨c, address, id, hk, ⟨ha, -⟩ | rfl⟩ := step_stream hs
  · obtain ⟨c', m, n, -, -, -, hg, -⟩ := hi.counted hk (by simp) rfl
    rw [PythonProxy.DeploymentHandle.attempt_aborts ha] at hg
    cases hg
  · refine ⟨hi.ids, hi.healthy, hi.channels, hi.python, fun j r hj => ?_,
      same_set hi.requests hk .streaming⟩
    have hout : outstanding (s.requests.set k ⟨c, some (address, id), .streaming⟩) j =
        outstanding s.requests j := by
      rw [outstanding_set hk]
      simp [openAt]
    obtain ⟨hcount, hg⟩ := hi.counts j r hj
    exact ⟨hcount.trans hout.symm, hg⟩

theorem complete_inv {replicas : List Protos.ReplicaInfo}
    (hn : (replicas.map Protos.ReplicaInfo.replicaId).Nodup) {s s' : State} {k : ℕ}
    (hi : Inv replicas s) (hs : step s (.complete k) = some s') : Inv replicas s' := by
  obtain ⟨c, address, id, hk, rfl⟩ := step_complete hs
  obtain ⟨c', m, n, hc, hm, rfl, hg, hpos⟩ := hi.counted hk (by simp) rfl
  obtain rfl := Option.some.inj hc
  rw [PythonProxy.DeploymentHandle.finish_of_get hg,
    PythonProxy.DeploymentHandle.clamp_decrement hg hpos]
  apply hi.update hn hm (d := -1)
  · intro q
    exact ⟨rfl, rfl, rfl⟩
  · intro id n hn
    rw [Dict.get_modify, hn]
    by_cases h : id = m.replicaId <;> simp [h]
    rfl
  · intro j
    rw [outstanding_set hk]
    by_cases h : c.info = j <;> simp [openAt, h]
    rfl
  · exact same_set hi.requests hk .done

theorem step_inv {replicas : List Protos.ReplicaInfo} (hr : ∀ r ∈ replicas, r.state = "RUNNING")
    (hn : (replicas.map Protos.ReplicaInfo.replicaId).Nodup) (s : State) (a : Act) (s' : State)
    (hi : Inv replicas s) (hs : step s a = some s') : Inv replicas s' := by
  cases a with
  | pick now => exact pick_inv hr hn hi hs
  | stream k => exact stream_inv hi hs
  | complete k => exact complete_inv hn hi hs

/-- In every run both handles choose the same replica at every pick, and no
completion is clamped. -/
theorem handles_route_alike (deploymentId : ℕ) (info : Protos.DeploymentInfoMessage)
    (hr : ∀ r ∈ info.replicas, r.state = "RUNNING")
    (hn : (info.replicas.map Protos.ReplicaInfo.replicaId).Nodup) (as : List Act) (s : State)
    (hrun : Runs.exec step as (start deploymentId info) = some s) :
    (∀ r ∈ s.requests, SameChoice info.replicas r) ∧
      ∀ (k : ℕ) (r : Request) (address id : String), s.requests[k]? = some r →
        r.phase ≠ .done → r.target = some (address, id) →
        s.python.finish id = s.python.decrement id := by
  have hi := Runs.exec_invariant (step_inv hr hn) (start_inv deploymentId hr hn) hrun
  refine ⟨hi.requests, fun k r address id hk hopen ht => ?_⟩
  obtain ⟨c, m, n, -, -, -, hg, hpos⟩ := hi.counted hk hopen ht
  rw [PythonProxy.DeploymentHandle.finish_of_get hg,
    PythonProxy.DeploymentHandle.clamp_decrement hg hpos]

theorem handles_route_alike_sample : ∃ s,
    Runs.exec step [.pick 0, .pick 0, .stream 1, .complete 1, .pick 0] (start 2 Proxy.sampleInfo)
      = some s ∧
    s.requests.map Request.target = [some ("10.0.0.1:50101", "1#1"),
      some ("10.0.0.2:50101", "2#1"), some ("10.0.0.2:50101", "2#1")] ∧
    ∀ r ∈ s.requests, SameChoice Proxy.sampleInfo.replicas r :=
  ⟨_, rfl, rfl, (handles_route_alike 2 Proxy.sampleInfo (by decide) (by decide)
    [.pick 0, .pick 0, .stream 1, .complete 1, .pick 0] _ rfl).1⟩

end ServingSystem.RoutingAlike
