import ServingSystem.LoadBalance
import ServingSystem.ReplicaSelection

/-!
# Balanced selection

The picks of a handle none of whose replicas was marked, seen on the vector
of its loads: each pick raises the first least load.
-/

set_option autoImplicit false

namespace ServingSystem.Proxy.Balance
open DeploymentHandle ReplicaSelection LoadBalance Positions

def loads (h : DeploymentHandle) : List ℤ := h.replicas.map ReplicaInfo.activeRequests

def AllHealthy (h : DeploymentHandle) : Prop := ∀ r ∈ h.replicas, r.healthStatus = .healthy

def NoMarks (as : List Act) : Prop := ∀ id t, Act.mark id t ∉ as

theorem ofInfo_healthy (info : Protos.DeploymentInfoMessage) : AllHealthy (ofInfo info) := by
  intro r hr
  rw [ofInfo_replicas] at hr
  obtain ⟨m, -, rfl⟩ := List.mem_map.mp hr
  rfl

theorem healthy_modify {h : DeploymentHandle} {f : ReplicaInfo → ReplicaInfo}
    (hf : ∀ r, (f r).healthStatus = r.healthStatus) (hh : AllHealthy h) (i : ℕ) :
    AllHealthy { h with replicas := h.replicas.modify i f } :=
  forall_modify (fun r hr => (hf r).trans hr) hh i

theorem pick_loads {h : DeploymentHandle} (hh : AllHealthy h) (t : ℤ) :
    AllHealthy (h.pickNextReplica t).2 ∧
      ((loads h = [] ∧ h.pickNextReplica t = (none, h)) ∨
        ∃ i a, LeastScan.FirstLeast (fun _ => True) id (loads h) i a ∧
          (h.pickNextReplica t).1.map ReplicaConnection.info = some i ∧
          loads (h.pickNextReplica t).2 = raise (loads h) i) := by
  rcases pick_healthy hh t with ⟨he, hp⟩ | ⟨i, r, hc, hp⟩
  · rw [hp]
    exact ⟨hh, Or.inl ⟨by rw [loads, he, List.map_nil], rfl⟩⟩
  · rw [hp]
    refine ⟨healthy_modify (f := acquire) (fun _ => rfl) hh i,
      Or.inr ⟨i, r.activeRequests, ?_, rfl, ?_⟩⟩
    · apply LeastScan.FirstLeast.transfer hc
      · rw [loads, List.getElem?_map, hc.at_index, Option.map_some]
      · intro j a hj
        rw [loads, List.getElem?_map, Option.map_eq_some_iff] at hj
        obtain ⟨q, hq, rfl⟩ := hj
        exact ⟨q, hq, eligible_of_healthy (hh q (List.mem_of_getElem? hq)) t, rfl⟩
    · apply List.ext_getElem?
      intro j
      simp only [loads, raise, List.getElem?_map, List.getElem?_modify]
      cases h.replicas[j]? with
      | none => rfl
      | some q => by_cases h : i = j <;> simp [h, acquire]

theorem step_healthy {s s' : State} {a : Act} (ha : ∀ id t, a ≠ .mark id t)
    (hh : AllHealthy s.handle) (hs : step s a = some s') : AllHealthy s'.handle := by
  cases a with
  | pick t =>
    obtain ⟨-, rfl⟩ := Option.ite_some_none_eq_some.mp hs
    exact (pick_loads hh t).1
  | mark id t => exact absurd rfl (ha id t)
  | release i =>
    obtain rfl := Option.some.inj hs
    exact healthy_modify (f := release) (fun _ => rfl) hh i

theorem run_healthy {as : List Act} {s s' : State} (ha : NoMarks as) (hh : AllHealthy s.handle)
    (hr : Runs.exec step as s = some s') : AllHealthy s'.handle := by
  induction as generalizing s with
  | nil => exact Option.some.inj hr ▸ hh
  | cons a as ih =>
    obtain ⟨u, hu, hr⟩ := Runs.exec_cons.mp hr
    have hu := step_healthy (fun id t he => ha id t (he ▸ List.mem_cons_self)) hh hu
    exact ih (fun id t hm => ha id t (List.mem_cons_of_mem a hm)) hu hr

theorem pick_spread {s s' : State} {t : ℤ} (hh : AllHealthy s.handle)
    (hs : step s (.pick t) = some s') :
    spread (loads s'.handle) ≤ max 1 (spread (loads s.handle)) := by
  obtain ⟨-, rfl⟩ := Option.ite_some_none_eq_some.mp hs
  show spread (loads (s.handle.pickNextReplica t).2) ≤ _
  rcases (pick_loads hh t).2 with ⟨-, hp⟩ | ⟨i, a, hc, -, hl⟩
  · rw [hp]
    exact le_max_right _ _
  · rw [hl]
    apply spread_raise hc.at_index
    intro b hb
    obtain ⟨j, hj⟩ := List.getElem?_of_mem hb
    exact hc.least j b hj trivial

def rounds (k : ℕ) (ts : List ℤ) : List Event :=
  ts.zipIdx.map (fun p => .picked p.1 (some (p.2%k)))

structure Cyclic (k : ℕ) (ts : List ℤ) (s : State) : Prop where
  healthy : AllHealthy s.handle
  history : s.history = rounds k ts
  loads : loads s.handle = shares k ts.length

theorem fresh_cyclic (info : Protos.DeploymentInfoMessage) (t₀ : ℤ) :
    Cyclic info.replicas.length [] (fresh (ofInfo info) t₀) where
  healthy := ofInfo_healthy info
  history := rfl
  loads := by
    show loads (ofInfo info) = shares info.replicas.length 0
    rw [loads, ofInfo_replicas, List.map_map, shares]
    simp only [share_zero, Function.comp_def, ReplicaInfo.ofProto, Nat.cast_zero]
    rw [List.map_const', List.map_const', List.length_range]

theorem pick_cyclic {k : ℕ} (hk : 0 < k) {ts : List ℤ} {s s' : State} {t : ℤ}
    (hc : Cyclic k ts s) (hs : step s (.pick t) = some s') : Cyclic k (ts ++ [t]) s' := by
  obtain ⟨-, rfl⟩ := Option.ite_some_none_eq_some.mp hs
  obtain ⟨hh, hp⟩ := pick_loads hc.healthy t
  rcases hp with ⟨hnil, -⟩ | ⟨i, a, hf, hi, hl⟩
  · have hlen := congrArg List.length (hc.loads.symm.trans hnil)
    simp [shares] at hlen
    omega
  · rw [hc.loads] at hf
    obtain rfl := first_share hk hf
    refine ⟨hh, ?_, ?_⟩
    · show s.history ++ [.picked t _] = _
      rw [hi, hc.history, rounds, rounds, List.zipIdx_append, List.map_append]
      simp
    · show Balance.loads (s.handle.pickNextReplica t).2 = _
      rw [hl, hc.loads, raise_shares, List.length_append, List.length_singleton]

theorem run_cyclic {k : ℕ} (hk : 0 < k) {ts : List ℤ} {s s' : State} (hc : Cyclic k [] s)
    (hr : Runs.exec step (ts.map .pick) s = some s') : Cyclic k ts s' := by
  induction ts using List.reverseRecOn generalizing s' with
  | nil => exact Option.some.inj hr ▸ hc
  | append_singleton ts t ih =>
    rw [List.map_append] at hr
    obtain ⟨u, hu, hs⟩ := Runs.exec_snoc.mp hr
    exact pick_cyclic hk (ih hu) hs

/-- A pick never raises the spread of the loads above one or its value
before, and picks alone go round the replicas. -/
theorem selection_balanced (info : Protos.DeploymentInfoMessage) (hk : info.replicas ≠ [])
    (t₀ : ℤ) :
    (∀ as s t s', NoMarks as → Runs.exec step as (fresh (ofInfo info) t₀) = some s →
      step s (.pick t) = some s' →
      spread (loads s'.handle) ≤ max 1 (spread (loads s.handle))) ∧
    ∀ ts s, Runs.exec step (ts.map .pick) (fresh (ofInfo info) t₀) = some s →
      s.history = rounds info.replicas.length ts ∧
      ∀ (j : ℕ) (r : ReplicaInfo), s.handle.replicas[j]? = some r →
        r.activeRequests = (share info.replicas.length ts.length j : ℤ) ∧
        (r.activeRequests = (ts.length/info.replicas.length : ℕ) ∨
          r.activeRequests = ((ts.length+info.replicas.length-1)/info.replicas.length : ℕ)) := by
  have hpos : 0 < info.replicas.length := List.length_pos_of_ne_nil hk
  constructor
  · intro as s t s' ha hr hs
    exact pick_spread (run_healthy ha (ofInfo_healthy info) hr) hs
  · intro ts s hr
    have hc := run_cyclic hpos (fresh_cyclic info t₀) hr
    refine ⟨hc.history, fun j r hj => ?_⟩
    have hl : (loads s.handle)[j]? = some r.activeRequests := by
      rw [loads, List.getElem?_map, hj, Option.map_some]
    rw [hc.loads] at hl
    have hlt : j < info.replicas.length := by
      have hlen := (List.getElem?_eq_some_iff.mp hl).1
      simpa [shares] using hlen
    have he : r.activeRequests = (share info.replicas.length ts.length j : ℤ) :=
      (Option.some.inj ((shares_getElem? hlt).symm.trans hl)).symm
    refine ⟨he, ?_⟩
    rw [he]
    exact_mod_cast share_floor_or_ceil hpos ts.length j

theorem selection_balanced_sample :
    (∃ s s', Runs.exec step [.pick 0, .release 0] (fresh (ofInfo sampleInfo) 0) = some s ∧
      step s (.pick 1) = some s' ∧
      spread (loads s'.handle) ≤ max 1 (spread (loads s.handle))) ∧
    ∃ s, Runs.exec step [.pick 0, .pick 0, .pick 1] (fresh (ofInfo sampleInfo) 0) = some s ∧
      s.history = [.picked 0 (some 0), .picked 0 (some 1), .picked 1 (some 0)] := by
  obtain ⟨ha, hb⟩ := selection_balanced sampleInfo (by decide) 0
  have hm : NoMarks [.pick 0, .release 0] := fun id t h => by simp at h
  exact ⟨⟨_, _, rfl, rfl, ha [.pick 0, .release 0] _ 1 _ hm rfl rfl⟩,
    _, rfl, (hb [0, 0, 1] _ rfl).1⟩

end ServingSystem.Proxy.Balance
