import ServingSystem.ReplicaKey
import ServingSystem.ReplicaPorts

/-!
# Where a worker's registry comes from

What a step of the scheduler does to its registry, its calls and its
launches, and two facts about every state of a run: one id has one command
line, and every entry was registered from the command line of its id.
-/

set_option autoImplicit false

namespace ServingSystem.WorkerRegistry
open Scheduler ReplicaPorts CommandLine

def entry (s : State) (p : Process) : Replica :=
  ⟨p.pid, p.replicaId, s.workerId, "idle", p.deploymentId, p.port⟩

structure Origin (s : State) : Prop where
  one : ∀ l ∈ launches s, ∀ m ∈ launches s, l.replicaId = m.replicaId → l = m
  registered : ∀ id r, s.replicaRegistry.get id = some r → ∃ p ∈ s.processes,
    p.replicaId = id ∧ r.port = p.port ∧ r.deploymentId = p.deploymentId

/-- What stays of a state in every later one; no call is refused later. -/
structure Later (s t : State) : Prop where
  workerId : t.workerId = s.workerId
  nodeAddress : t.nodeAddress = s.nodeAddress
  launches : ∀ l ∈ launches s, l ∈ launches t
  calls : ∀ (i : ℕ) c, s.calls[i]? = some c →
    ∃ c', t.calls[i]? = some c' ∧ c'.replicaId = c.replicaId ∧
      ∀ reply, c'.progress = .returned reply → reply.created = false →
        c.progress = .returned reply
  keys : ∀ id ∈ s.replicaRegistry.keys, id ∈ t.replicaRegistry.keys

/-- The id has no command line but this one. -/
def Commands (s : State) (id : ℕ) (name : String) (d : ℕ) : Prop :=
  ∀ l ∈ launches s, l.replicaId = id → l = created id name d

section
variable {s t : State}

theorem registerReplica_registry (hi : Inv s) (p : Process) :
    (registerReplica p s).replicaRegistry =
      match s.replicaRegistry.get p.replicaId with
      | some _ => s.replicaRegistry
      | none => s.replicaRegistry.set p.replicaId (entry s p) := by
  cases hr : s.replicaRegistry.get p.replicaId with
  | some r => rw [registerReplica_known hr]
  | none =>
    obtain ⟨m, h, -⟩ := FutureManager.setResult_answers hi.futures p.replicaId
      (s.reply p.replicaId p.port true)
    rw [registerReplica_new hr h]
    rfl

theorem registerReplica_frame (p : Process) (s : State) :
    (registerReplica p s).workerId = s.workerId ∧
      (registerReplica p s).nodeAddress = s.nodeAddress ∧
      (registerReplica p s).replicaNum = s.replicaNum := by
  simp only [registerReplica]
  split
  · exact ⟨rfl, rfl, rfl⟩
  · simp only [State.run]
    split <;> exact ⟨rfl, rfl, rfl⟩

theorem step_registry (hi : Inv s) {a : Act} (hs : step s a = some t) :
    t.replicaRegistry = s.replicaRegistry ∨ ∃ p ∈ s.processes,
      s.replicaRegistry.get p.replicaId = none ∧
      t.replicaRegistry = s.replicaRegistry.set p.replicaId (entry s p) := by
  unfold step at hs
  split at hs
  next => cases hs
  next =>
    cases a with
    | createReplica name d launch =>
      obtain rfl := Option.some.inj hs
      cases launch with
      | none => exact Or.inl (by rw [createReplica_failed hi])
      | some pid => exact Or.inl (by rw [createReplica_launched hi])
    | registerReplica j =>
      obtain ⟨p, hp, rfl⟩ := Option.map_eq_some_iff.mp hs
      rw [registerReplica_registry hi]
      cases hr : s.replicaRegistry.get p.replicaId with
      | some r => exact Or.inl rfl
      | none => exact Or.inr ⟨p, List.mem_of_getElem? hp, hr, rfl⟩
    | resume k =>
      obtain ⟨c, c', -, -, -, -, rfl⟩ := resume_ends hi hs
      exact Or.inl rfl
    | cancel k =>
      obtain ⟨c, c', -, -, -, -, m, rfl⟩ := cancel_ends hs
      exact Or.inl rfl
    | restart j pid =>
      obtain ⟨p, -, hs⟩ := Option.bind_eq_some_iff.mp hs
      exact Or.inl (Option.some.inj hs ▸ rfl)
    | exit j => exact Or.inl (Option.some.inj hs ▸ rfl)
    | healthUpdate acknowledged =>
      obtain rfl := Option.some.inj hs
      cases acknowledged with
      | true => exact Or.inl (by rw [if_pos rfl, cleanup_eq hi])
      | false => exact Or.inl rfl

theorem step_identity (hi : Inv s) {a : Act} (hs : step s a = some t) :
    t.workerId = s.workerId ∧ t.nodeAddress = s.nodeAddress ∧
      ((∃ name d launch, a = .createReplica name d launch ∧ t.replicaNum = s.replicaNum+1) ∨
        t.replicaNum = s.replicaNum) := by
  unfold step at hs
  split at hs
  next => cases hs
  next =>
    cases a with
    | createReplica name d launch =>
      obtain rfl := Option.some.inj hs
      cases launch with
      | none =>
        rw [createReplica_failed hi]
        exact ⟨rfl, rfl, Or.inl ⟨_, _, _, rfl, rfl⟩⟩
      | some pid =>
        rw [createReplica_launched hi]
        exact ⟨rfl, rfl, Or.inl ⟨_, _, _, rfl, rfl⟩⟩
    | registerReplica j =>
      obtain ⟨p, -, rfl⟩ := Option.map_eq_some_iff.mp hs
      obtain ⟨hw, ha, hn⟩ := registerReplica_frame p s
      exact ⟨hw, ha, Or.inr hn⟩
    | resume k =>
      obtain ⟨c, c', -, -, -, -, rfl⟩ := resume_ends hi hs
      exact ⟨rfl, rfl, Or.inr rfl⟩
    | cancel k =>
      obtain ⟨c, c', -, -, -, -, m, rfl⟩ := cancel_ends hs
      exact ⟨rfl, rfl, Or.inr rfl⟩
    | restart j pid =>
      obtain ⟨p, -, hs⟩ := Option.bind_eq_some_iff.mp hs
      obtain rfl := Option.some.inj hs
      exact ⟨rfl, rfl, Or.inr rfl⟩
    | exit j =>
      obtain rfl := Option.some.inj hs
      exact ⟨rfl, rfl, Or.inr rfl⟩
    | healthUpdate acknowledged =>
      obtain rfl := Option.some.inj hs
      cases acknowledged <;> exact ⟨rfl, rfl, Or.inr rfl⟩

theorem step_later (hi : Inv s) {a : Act} (hs : step s a = some t) : Later s t where
  workerId := (step_identity hi hs).1
  nodeAddress := (step_identity hi hs).2.1
  launches l hl := by
    rcases step_launches hi hs with ⟨name, d, pid, -, h⟩ | ⟨-, h⟩
    · rw [h]
      exact List.mem_append_left _ hl
    · exact (h l).mpr hl
  calls i c hc := by
    rcases step_calls hi a t hs with h | ⟨x, h⟩ | ⟨j, c₀, c', hj, hid, -, hcr, h⟩
    · exact ⟨c, h ▸ hc, rfl, fun _ hp _ => hp⟩
    · refine ⟨c, ?_, rfl, fun _ hp _ => hp⟩
      rw [h, List.getElem?_append_left (List.getElem?_eq_some_iff.mp hc).1, hc]
    · by_cases hji : j = i
      · subst hji
        obtain rfl := Option.some.inj (hj.symm.trans hc)
        refine ⟨c', ?_, hid, fun reply hp hr => ?_⟩
        · rw [h, List.getElem?_set_self (List.getElem?_eq_some_iff.mp hj).1]
        · exact absurd (hcr reply hp) (by simp [hr])
      · exact ⟨c, by rw [h, List.getElem?_set_ne hji, hc], rfl, fun _ hp _ => hp⟩
  keys id hk := by
    rcases step_registry hi hs with h | ⟨p, -, -, h⟩
    · rw [h]
      exact hk
    · rw [h]
      exact Dict.mem_keys_set.mpr (Or.inr hk)

/-- A launch that a step adds is of the id that its call allocated. -/
theorem commands_step (hi : Inv s) {a : Act} (hs : step s a = some t) {id d : ℕ} {name : String}
    (hle : id ≤ s.replicaNum) (h : Commands s id name d) : Commands t id name d := by
  intro l hl hid
  rcases step_launches hi hs with ⟨name', d', pid, -, ht⟩ | ⟨-, ht⟩
  · rw [ht] at hl
    rcases List.mem_append.mp hl with hl | hl
    · exact h l hl hid
    · obtain rfl := List.mem_singleton.mp hl
      exact absurd hle (by rw [← hid]; exact Nat.not_succ_le_self _)
  · exact h l ((ht l).mp hl) hid

theorem create_step {name : String} {d : ℕ} {launch : Option ℕ}
    (hs : step s (.createReplica name d launch) = some t) : t = createReplica name d launch s := by
  unfold step at hs
  split at hs
  next => cases hs
  next => exact (Option.some.inj hs).symm

theorem create_num (hi : Inv s) {name : String} {d : ℕ} {launch : Option ℕ}
    (hs : step s (.createReplica name d launch) = some t) : t.replicaNum = s.replicaNum+1 := by
  obtain rfl := create_step hs
  cases launch with
  | none => rw [createReplica_failed hi]
  | some pid => rw [createReplica_launched hi]

theorem create_call (hi : Inv s) {name : String} {d : ℕ} {launch : Option ℕ}
    (hs : step s (.createReplica name d launch) = some t) :
    ∃ c, t.calls[s.calls.length]? = some c ∧ c.replicaId = s.replicaNum+1 ∧
      ∀ reply, c.progress = .returned reply →
        reply = s.reply (s.replicaNum+1) (replicaPort (s.replicaNum+1)) false := by
  obtain rfl := create_step hs
  cases launch with
  | none =>
    rw [createReplica_failed hi]
    exact ⟨_, List.getElem?_concat_length, rfl, fun reply hp => (Progress.returned.inj hp).symm⟩
  | some pid =>
    rw [createReplica_launched hi]
    exact ⟨_, List.getElem?_concat_length, rfl, fun _ => (nomatch ·)⟩

theorem create_commands (hi : Inv s) {name : String} {d : ℕ} {launch : Option ℕ}
    (hs : step s (.createReplica name d launch) = some t) :
    Commands t (s.replicaNum+1) name d := by
  have hold : ∀ l ∈ launches s, l.replicaId ≠ s.replicaNum+1 := fun l hl =>
    (Nat.lt_succ_of_le (mem_launches hi hl).2.1).ne
  obtain rfl := create_step hs
  intro l hl hid
  cases launch with
  | none =>
    rw [createReplica_failed hi] at hl
    exact absurd hid (hold l hl)
  | some pid =>
    rw [createReplica_launched hi, launches, List.map_append] at hl
    rcases List.mem_append.mp hl with hl | hl
    · exact absurd hid (hold l hl)
    · exact List.mem_singleton.mp hl

theorem call_le (hi : Inv s) {c : Call} (hc : c ∈ s.calls) : c.replicaId ≤ s.replicaNum := by
  have hm := List.mem_map_of_mem (f := Call.replicaId) hc
  rw [hi.ids, List.mem_range'_1] at hm
  omega

theorem origin_one (hi : Inv s) (ho : Origin s) {a : Act} (hs : step s a = some t) :
    ∀ l ∈ launches t, ∀ m ∈ launches t, l.replicaId = m.replicaId → l = m := by
  intro l hl m hm hlm
  rcases step_launches hi hs with ⟨name, d, pid, -, ht⟩ | ⟨-, ht⟩
  · have hold : ∀ x ∈ launches s, x.replicaId ≠ s.replicaNum+1 := fun x hx =>
      (Nat.lt_succ_of_le (mem_launches hi hx).2.1).ne
    rw [ht] at hl hm
    rcases List.mem_append.mp hl with hl | hl <;> rcases List.mem_append.mp hm with hm | hm
    · exact ho.one l hl m hm hlm
    · obtain rfl := List.mem_singleton.mp hm
      exact absurd hlm (hold l hl)
    · obtain rfl := List.mem_singleton.mp hl
      exact absurd hlm.symm (hold m hm)
    · exact (List.mem_singleton.mp hl).trans (List.mem_singleton.mp hm).symm
  · exact ho.one l ((ht l).mp hl) m ((ht m).mp hm) hlm

/-- A process keeps its command line while it is one of the worker's. -/
theorem process_stays (hi : Inv s) {a : Act} (hs : step s a = some t) {p : Process}
    (hp : p ∈ s.processes) : ∃ q ∈ t.processes, started q = started p := by
  have hl := (step_later hi hs).launches (started p) (List.mem_map_of_mem hp)
  obtain ⟨q, hq, he⟩ := List.mem_map.mp hl
  exact ⟨q, hq, he⟩

theorem started_inj {p q : Process} (h : started q = started p) :
    q.replicaId = p.replicaId ∧ q.port = p.port ∧ q.deploymentName = p.deploymentName ∧
      q.deploymentId = p.deploymentId := by
  obtain ⟨hid, hport, hname, hd⟩ := Launch.mk.inj h
  exact ⟨hid, hport, hname, Head.toString_inj hd⟩

theorem step_origin (hi : Inv s) (ho : Origin s) {a : Act} (hs : step s a = some t) :
    Origin t := by
  refine ⟨origin_one hi ho hs, fun id r hr => ?_⟩
  have hfrom : ∃ p ∈ s.processes, p.replicaId = id ∧ r.port = p.port ∧
      r.deploymentId = p.deploymentId := by
    rcases step_registry hi hs with h | ⟨p, hp, -, h⟩
    · exact ho.registered id r (h ▸ hr)
    · rw [h, Dict.get_set] at hr
      split at hr
      next hid => exact ⟨p, hp, hid.symm, Option.some.inj hr ▸ rfl, Option.some.inj hr ▸ rfl⟩
      next => exact ho.registered id r hr
  obtain ⟨p, hp, hid, hport, hd⟩ := hfrom
  obtain ⟨q, hq, he⟩ := process_stays hi hs hp
  obtain ⟨hid', hport', -, hd'⟩ := started_inj he
  exact ⟨q, hq, hid'.trans hid, hport.trans hport'.symm, hd.trans hd'.symm⟩

end

theorem initial_origin (w : ℕ) (a : String) : Origin (initial w a) := by
  refine ⟨fun l hl => ?_, fun id r hr => ?_⟩
  · cases hl
  · cases hr

theorem Later.refl (s : State) : Later s s :=
  ⟨rfl, rfl, fun _ h => h, fun _ c h => ⟨c, h, rfl, fun _ hp _ => hp⟩, fun _ h => h⟩

theorem Later.trans {s t u : State} (h : Later s t) (h' : Later t u) : Later s u where
  workerId := h'.workerId.trans h.workerId
  nodeAddress := h'.nodeAddress.trans h.nodeAddress
  launches l hl := h'.launches l (h.launches l hl)
  calls i c hc := by
    obtain ⟨c', hc', hid, hp⟩ := h.calls i c hc
    obtain ⟨c'', hc'', hid', hp'⟩ := h'.calls i c' hc'
    exact ⟨c'', hc'', hid'.trans hid, fun reply hr hf => hp reply (hp' reply hr hf) hf⟩
  keys id hid := h'.keys id (h.keys id hid)

theorem run_later {as : List Act} {s t : State} (hi : Inv s)
    (hr : Runs.exec step as s = some t) : Inv t ∧ Later s t := by
  refine Runs.exec_invariant (P := fun u => Inv u ∧ Later s u) (fun u a v hu hs => ?_)
    ⟨hi, Later.refl s⟩ hr
  exact ⟨step_inv u a v hu.1 hs, hu.2.trans (step_later hu.1 hs)⟩

end ServingSystem.WorkerRegistry
