import ServingSystem.CommandLine

/-!
# Ports of the replicas of a node

Every launched replica is told three ports, and the scheduler listens on one.
A launch under a new id keeps them apart exactly when the id does not follow
a launched one, nor lies at the distance of the two port ranges from it.
-/

set_option autoImplicit false

namespace ServingSystem.ReplicaPorts
open Scheduler CommandLine

def launches (s : State) : List Launch := s.processes.map started

/-- No two replicas of different ids share a port, and none has the
scheduler's. -/
structure NoClash (s : State) : Prop where
  apart : ∀ l ∈ launches s, ∀ m ∈ launches s, l.replicaId ≠ m.replicaId →
    List.Disjoint (l.ports nodePort) (m.ports nodePort)
  node : ∀ l ∈ launches s, nodePort ∉ l.ports nodePort

/-- A launched id `i` has a port of the later id `j`. -/
def Meets (i j : ℕ) : Prop :=
  (j = i+1 ∧ i ≤ 56534) ∨ ((j = i+41099 ∨ j = i+41100) ∧ i ≤ 15435)

def KeepsApart (s : State) : Act → Prop
  | .createReplica _ _ (some _) =>
    (∀ p ∈ s.processes, ¬ Meets p.replicaId (s.replicaNum+1)) ∧
      s.replicaNum+1 ≠ 41050 ∧ s.replicaNum+1 ≠ 41051
  | _ => True

def created (replicaId : ℕ) (name : String) (d : ℕ) : Launch :=
  ⟨replicaId, replicaPort replicaId, name, toString d⟩

theorem created_ports {replicaId d port : ℕ} {name : String} :
    port ∈ (created replicaId name d).ports nodePort ↔ port < 65536 ∧
      (port = 9000+replicaId ∨ port = 50100+replicaId ∨ port = 9001+replicaId) :=
  mem_ports rfl

section
variable {s t : State}

theorem mem_launches (hi : Inv s) {l : Launch} (hl : l ∈ launches s) :
    (∃ p ∈ s.processes, p.replicaId = l.replicaId) ∧ l.replicaId ≤ s.replicaNum ∧
      ∃ name d, l = created l.replicaId name d := by
  obtain ⟨p, hp, rfl⟩ := List.mem_map.mp hl
  obtain ⟨hport, hle⟩ := hi.launched p hp
  refine ⟨⟨p, hp, rfl⟩, hle, p.deploymentName, p.deploymentId, ?_⟩
  rw [started, hport]
  rfl

theorem registerReplica_processes (p : Process) (s : State) :
    (registerReplica p s).processes = s.processes := by
  simp only [registerReplica]
  split
  · rfl
  · simp only [State.run]
    split <;> rfl

/-- What a step does to the launches so far. -/
theorem step_launches (hi : Inv s) {a : Act} (hs : step s a = some t) :
    (∃ name d pid, a = .createReplica name d (some pid) ∧
      launches t = launches s ++ [created (s.replicaNum+1) name d]) ∨
    (KeepsApart s a ∧ ∀ l, l ∈ launches t ↔ l ∈ launches s) := by
  unfold step at hs
  split at hs
  next => cases hs
  next =>
    cases a with
    | createReplica name d launch =>
      obtain rfl := Option.some.inj hs
      cases launch with
      | none =>
        rw [createReplica_failed hi]
        exact Or.inr ⟨trivial, fun _ => Iff.rfl⟩
      | some pid =>
        rw [createReplica_launched hi]
        exact Or.inl ⟨name, d, pid, rfl, List.map_append⟩
    | registerReplica j =>
      obtain ⟨p, -, rfl⟩ := Option.map_eq_some_iff.mp hs
      rw [launches, registerReplica_processes]
      exact Or.inr ⟨trivial, fun _ => Iff.rfl⟩
    | resume k =>
      obtain ⟨c, c', -, -, -, -, rfl⟩ := resume_ends hi hs
      exact Or.inr ⟨trivial, fun _ => Iff.rfl⟩
    | cancel k =>
      obtain ⟨c, c', -, -, -, -, m, rfl⟩ := cancel_ends hs
      exact Or.inr ⟨trivial, fun _ => Iff.rfl⟩
    | restart j pid =>
      obtain ⟨p, hp, hs⟩ := Option.bind_eq_some_iff.mp hs
      obtain rfl := Option.some.inj hs
      refine Or.inr ⟨trivial, fun l => ?_⟩
      have hmem : started p ∈ launches s := List.mem_map_of_mem (List.mem_of_getElem? hp)
      simp only [launches, List.map_append, List.map_singleton, List.mem_append,
        List.mem_singleton]
      exact ⟨fun h => h.elim id (fun h => h ▸ hmem), Or.inl⟩
    | exit j =>
      obtain rfl := Option.some.inj hs
      have hmap : (s.processes.modify j Process.exit).map started = s.processes.map started :=
        Positions.map_modify_eq (f := Process.exit) (fun _ => rfl) _ j
      exact Or.inr ⟨trivial, fun l => by rw [launches, hmap]; rfl⟩
    | healthUpdate acknowledged =>
      obtain rfl := Option.some.inj hs
      cases acknowledged with
      | true => exact Or.inr ⟨trivial, fun l => by rw [if_pos rfl, cleanup_eq hi]⟩
      | false =>
        refine Or.inr ⟨trivial, fun l => ?_⟩
        have hkill : ∀ pids (p : Process), started (p.killAny pids) = started p := by
          intro pids p
          unfold Process.killAny
          split <;> rfl
        have hmap : launches (sendKillSignal s) = launches s := by
          rw [launches, sendKillSignal, killEach_eq, List.map_map]
          exact List.map_congr_left (fun p _ => hkill _ p)
        rw [if_neg Bool.false_ne_true, hmap]

/-- Two launched ids share a port exactly when the earlier meets the later. -/
theorem disjoint_iff {i j : ℕ} (h : i < j) {name name' : String} {d d' : ℕ} :
    List.Disjoint ((created i name d).ports nodePort) ((created j name' d').ports nodePort) ↔
      ¬ Meets i j := by
  constructor
  · intro hd hm
    rcases hm with ⟨rfl, hi⟩ | ⟨rfl | rfl, hi⟩
    · exact hd (created_ports.mpr ⟨by omega, Or.inr (Or.inr rfl)⟩)
        (created_ports.mpr ⟨by omega, Or.inl (by omega)⟩)
    · exact hd (created_ports.mpr ⟨by omega, Or.inr (Or.inl rfl)⟩)
        (created_ports.mpr ⟨by omega, Or.inr (Or.inr (by omega))⟩)
    · exact hd (created_ports.mpr ⟨by omega, Or.inr (Or.inl rfl)⟩)
        (created_ports.mpr ⟨by omega, Or.inl (by omega)⟩)
  · intro hm port hi hj
    rw [created_ports] at hi hj
    refine hm ?_
    unfold Meets
    omega

theorem node_iff {j d : ℕ} {name : String} :
    nodePort ∉ (created j name d).ports nodePort ↔ j ≠ 41050 ∧ j ≠ 41051 := by
  rw [created_ports, nodePort]
  omega

theorem noClash_step (hi : Inv s) (hc : NoClash s) {a : Act} (hs : step s a = some t) :
    NoClash t ↔ KeepsApart s a := by
  rcases step_launches hi hs with ⟨name, d, pid, rfl, h⟩ | ⟨ha, h⟩
  · have hnew : ∀ l ∈ launches s, List.Disjoint (l.ports nodePort)
        ((created (s.replicaNum+1) name d).ports nodePort) ↔
        ¬ Meets l.replicaId (s.replicaNum+1) := by
      intro l hl
      obtain ⟨-, hle, name', d', he⟩ := mem_launches hi hl
      rw [he]
      exact disjoint_iff (Nat.lt_succ_of_le hle)
    have hids : ∀ l ∈ launches s, l.replicaId ≠ s.replicaNum+1 := fun l hl =>
      (Nat.lt_succ_of_le (mem_launches hi hl).2.1).ne
    have hmem : ∀ l, l ∈ launches t ↔ l ∈ launches s ∨ l = created (s.replicaNum+1) name d := by
      intro l
      rw [h, List.mem_append, List.mem_singleton]
    constructor
    -- The new launch is compared with each earlier one, whose id is smaller.
    · intro ht
      have hlast := (hmem _).mpr (Or.inr rfl)
      refine ⟨fun p hp => ?_, node_iff.mp (ht.node _ hlast)⟩
      have hl : started p ∈ launches s := List.mem_map_of_mem hp
      exact (hnew _ hl).mp (ht.apart _ ((hmem _).mpr (Or.inl hl)) _ hlast (hids _ hl))
    · rintro ⟨hmeets, hnode⟩
      have hapart : ∀ l ∈ launches s, List.Disjoint (l.ports nodePort)
          ((created (s.replicaNum+1) name d).ports nodePort) := by
        intro l hl
        obtain ⟨⟨p, hp, hid⟩, -⟩ := mem_launches hi hl
        exact (hnew l hl).mpr (hid ▸ hmeets p hp)
      refine ⟨fun l hl m hm hne => ?_, fun l hl => ?_⟩
      · rcases (hmem l).mp hl with hl | rfl <;> rcases (hmem m).mp hm with hm | rfl
        · exact hc.apart l hl m hm hne
        · exact hapart l hl
        · exact fun port hport hport' => hapart m hm hport' hport
        · exact absurd rfl hne
      · rcases (hmem l).mp hl with hl | rfl
        · exact hc.node l hl
        · exact node_iff.mpr hnode
  · refine ⟨fun _ => ha, fun _ => ⟨fun l hl m hm => ?_, fun l hl => ?_⟩⟩
    · exact hc.apart l ((h l).mp hl) m ((h m).mp hm)
    · exact hc.node l ((h l).mp hl)

end

/-- In every state of a run the ports are apart exactly when every launch
under a new id keeps them apart. -/
theorem ports_apart_iff (workerId : ℕ) (nodeAddress : String) (as : List Act) (s : State)
    (hr : Runs.exec step as (initial workerId nodeAddress) = some s) :
    (∀ n u, Runs.exec step (as.take n) (initial workerId nodeAddress) = some u → NoClash u) ↔
      Runs.Along step KeepsApart as (initial workerId nodeAddress) := by
  have hnone : NoClash (initial workerId nodeAddress) := by
    refine ⟨fun l hl => ?_, fun l hl => ?_⟩ <;> cases hl
  exact Runs.always_iff_along step_inv (fun _ _ _ hi hc hs => noClash_step hi hc hs)
    (initial_inv _ _) hnone hr

/-- The launch of id 2 fails, so ids 1 and 3 run. -/
def skippedId : List Act :=
  [.createReplica "/v1/chat/gpt2" 1 (some 7001), .createReplica "/v1/chat/gpt2" 1 none,
    .createReplica "/v1/chat/gpt2" 1 (some 7003), .registerReplica 1, .exit 0, .restart 0 7004]

theorem ports_apart_iff_sample : ∃ s,
    Runs.exec step skippedId (initial 1 "10.0.0.1") = some s ∧
    ((∀ n u, Runs.exec step (skippedId.take n) (initial 1 "10.0.0.1") = some u → NoClash u) ↔
      Runs.Along step KeepsApart skippedId (initial 1 "10.0.0.1")) :=
  ⟨_, rfl, ports_apart_iff 1 "10.0.0.1" skippedId _ rfl⟩

/-- The second replica's metrics server has the port of the first one's
exposer. -/
theorem second_replica_clashes : ∃ s,
    Runs.exec step [.createReplica "/v1/chat/gpt2" 1 (some 7001),
      .createReplica "/v1/chat/gpt2" 1 (some 7002)] (initial 1 "10.0.0.1") = some s ∧
    (launches s).map (fun l => l.ports nodePort) = [[9001, 50101, 9002], [9002, 50102, 9003]] ∧
    ¬ NoClash s := by
  refine ⟨_, rfl, by decide +kernel, fun h => ?_⟩
  exact h.apart (created 1 "/v1/chat/gpt2" 1) (by decide +kernel) (created 2 "/v1/chat/gpt2" 1)
    (by decide +kernel) (by decide) (a := 9002) (by decide +kernel) (by decide +kernel)

end ServingSystem.ReplicaPorts
