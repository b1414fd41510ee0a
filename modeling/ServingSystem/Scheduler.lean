import ServingSystem.FutureManager
import ServingSystem.Positions
import ServingSystem.Protos
import ServingSystem.Runs

/-!
# The scheduler of a worker

`HeadNodeManager` as tasks of one event loop. `CreateReplica` runs up to the
await of its future, `RegisterReplica` and `send_kill_signal` run through: the
locks are never contended and `StartReplicaCpp` does not suspend. A launched
process registers any number of times, from its own command line and pid; it
may exit, and may be started again under its id. `raised` and `registrations`
record what the futures raised and which ids and pids registered; no handler
reads them.
-/

set_option autoImplicit false

namespace ServingSystem.Scheduler
open Protos (ReplicaContent ReplicaCreationReply)
open Positions

structure Replica where
  pid : ℕ
  replicaId : ℕ
  workerId : ℕ
  status : String
  deploymentId : ℕ
  port : String
  deriving DecidableEq, Repr

structure Process where
  replicaId : ℕ
  port : String
  deploymentName : String
  deploymentId : ℕ
  pid : ℕ
  running : Bool
  signalled : Bool
  deriving DecidableEq, Repr

inductive Progress where
  | waiting (fut : ℕ)
  | returned (reply : ReplicaCreationReply)
  | cancelled
  | raised (e : FutureErr)
  deriving DecidableEq, Repr

structure Call where
  replicaId : ℕ
  progress : Progress
  deriving DecidableEq, Repr

structure State where
  workerId : ℕ
  nodeAddress : String
  replicaNum : ℕ
  replicaRegistry : Dict ℕ Replica
  replicaFutures : FutureManager ℕ ReplicaCreationReply
  calls : List Call
  processes : List Process
  raised : List FutureErr
  registrations : List (ℕ × ℕ)
  stopped : Bool

def State.run {α : Type} (s : State)
    (call : EStateM FutureErr (FutureManager ℕ ReplicaCreationReply) α)
    (returned : α → State → State) (failed : FutureErr → State → State) : State :=
  match call s.replicaFutures with
  | .ok x m => returned x { s with replicaFutures := m }
  | .error e m => failed e { s with replicaFutures := m, raised := s.raised ++ [e] }

def State.record (s : State) (replicaId : ℕ) (progress : Progress) : State :=
  { s with calls := s.calls ++ [⟨replicaId, progress⟩] }

def startReplicaCpp (replicaId : ℕ) (replicaPort : String) (deploymentName : String)
    (deploymentId : ℕ) (launch : Option ℕ) (s : State) : Option State :=
  launch.map (fun pid => { s with
    processes := s.processes ++
      [⟨replicaId, replicaPort, deploymentName, deploymentId, pid, true, false⟩] })

def replicaPort (replicaId : ℕ) : String := toString (50100+replicaId)

def State.reply (s : State) (replicaId : ℕ) (port : String) (created : Bool) :
    ReplicaCreationReply :=
  ⟨s.workerId, [⟨replicaId, port⟩], s.nodeAddress, created⟩

def createReplica (deploymentName : String) (deploymentId : ℕ) (launch : Option ℕ) (s : State) :
    State :=
  let replicaId := s.replicaNum+1
  let s := { s with replicaNum := replicaId }
  match startReplicaCpp replicaId (replicaPort replicaId) deploymentName deploymentId launch s with
  | none =>
    let errorReply := s.reply replicaId (replicaPort replicaId) false
    s.run (FutureManager.setResult replicaId errorReply)
      (fun _ s => s.record replicaId (.returned errorReply))
      (fun e s => s.record replicaId (.raised e))
  | some s =>
    s.run (FutureManager.createFuture replicaId)
      (fun fut s => s.record replicaId (.waiting fut))
      (fun e s => s.record replicaId (.raised e))

def registerReplica (p : Process) (s : State) : State :=
  let s := { s with registrations := s.registrations ++ [(p.replicaId, p.pid)] }
  match s.replicaRegistry.get p.replicaId with
  | some _ => s
  | none =>
    let replicaHandle : Replica :=
      ⟨p.pid, p.replicaId, s.workerId, "idle", p.deploymentId, p.port⟩
    let s := { s with replicaRegistry := s.replicaRegistry.set p.replicaId replicaHandle }
    s.run (FutureManager.setResult p.replicaId (s.reply p.replicaId p.port true))
      (fun _ s => s) (fun _ s => s)

def resume (k : ℕ) (s : State) : Option State :=
  match s.calls[k]? with
  | some ⟨replicaId, .waiting fut⟩ =>
    match s.replicaFutures.heap[fut]? with
    | some (.finished reply) =>
      some { s with calls := s.calls.set k ⟨replicaId, .returned reply⟩ }
    | some .cancelled => some { s with calls := s.calls.set k ⟨replicaId, .cancelled⟩ }
    | _ => none
  | _ => none

def cancel (k : ℕ) (s : State) : Option State :=
  match s.calls[k]? with
  | some ⟨replicaId, .waiting fut⟩ => some { s with
      replicaFutures := s.replicaFutures.cancel fut
      calls := s.calls.set k ⟨replicaId, .cancelled⟩ }
  | _ => none

def restart (j pid : ℕ) (s : State) : Option State :=
  s.processes[j]?.bind (fun p =>
    startReplicaCpp p.replicaId p.port p.deploymentName p.deploymentId (some pid) s)

def Process.exit (p : Process) : Process := { p with running := false }

def Process.kill (pid : ℕ) (p : Process) : Process :=
  if p.running ∧ p.pid = pid then { p with signalled := true } else p

def cleanupReplicas (s : State) : State :=
  { s with replicaRegistry := s.replicaRegistry.filter (fun _ r => r.status ≠ "DEAD") }

def killEach (pids : List ℕ) (processes : List Process) : List Process :=
  pids.foldl (fun ps pid => ps.map (Process.kill pid)) processes

def sendKillSignal (s : State) : State :=
  { s with
    processes := killEach (s.replicaRegistry.entries.map (fun e => e.2.pid)) s.processes
    stopped := true }

inductive Act where
  | createReplica (deploymentName : String) (deploymentId : ℕ) (launch : Option ℕ)
  | registerReplica (process : ℕ)
  | resume (call : ℕ)
  | cancel (call : ℕ)
  | restart (process pid : ℕ)
  | exit (process : ℕ)
  | healthUpdate (acknowledged : Bool)
  deriving DecidableEq, Repr

/-- An unacknowledged health report ends in `send_kill_signal`. -/
def step (s : State) (a : Act) : Option State :=
  if s.stopped then none else
  match a with
  | .createReplica name d launch => some (createReplica name d launch s)
  | .registerReplica j => s.processes[j]?.map (fun p => registerReplica p s)
  | .resume k => resume k s
  | .cancel k => cancel k s
  | .restart j pid => restart j pid s
  | .exit j => some { s with processes := s.processes.modify j Process.exit }
  | .healthUpdate acknowledged =>
    some (if acknowledged then cleanupReplicas s else sendKillSignal s)

theorem step_stopped {s : State} (h : s.stopped = true) (a : Act) : step s a = none := if_pos h

def initial (workerId : ℕ) (nodeAddress : String) : State :=
  ⟨workerId, nodeAddress, 0, Dict.empty, FutureManager.initial, [], [], [], [], false⟩

def State.created (s : State) (replicaId : ℕ) : ReplicaCreationReply :=
  s.reply replicaId (replicaPort replicaId) true

def Waiting (s : State) (replicaId fut : ℕ) : Prop :=
  s.replicaFutures.futures.get replicaId = some fut ∧
    s.replicaFutures.heap[fut]? = some .pending ∧ replicaId ∉ s.replicaRegistry.keys

def Answered (s : State) (replicaId fut : ℕ) : Prop :=
  s.replicaFutures.heap[fut]? = some (.finished (s.created replicaId)) ∧
    replicaId ∈ s.replicaRegistry.keys

/-- A waiting call has its future in the map, or the future has its reply. -/
def Settled (s : State) (c : Call) : Prop :=
  match c.progress with
  | .waiting fut => Waiting s c.replicaId fut ∨ Answered s c.replicaId fut
  | .returned reply => reply.created →
    reply = s.created c.replicaId ∧ c.replicaId ∈ s.replicaRegistry.keys
  | .cancelled => True
  | .raised _ => False

structure Inv (s : State) : Prop where
  futures : s.replicaFutures.Sound
  ids : s.calls.map Call.replicaId = List.range' 1 s.replicaNum
  keyed : ∀ id fut, s.replicaFutures.futures.get id = some fut → id ≤ s.replicaNum
  launched : ∀ p ∈ s.processes, p.port = replicaPort p.replicaId ∧ p.replicaId ≤ s.replicaNum
  allocated : ∀ id ∈ s.replicaRegistry.keys, id ≤ s.replicaNum
  idle : ∀ id r, s.replicaRegistry.get id = some r → r.status = "idle"
  settled : ∀ c ∈ s.calls, Settled s c
  quiet : s.raised = []

theorem initial_inv (w : ℕ) (a : String) : Inv (initial w a) :=
  ⟨FutureManager.initial_sound, rfl, by simp [initial, FutureManager.initial], by simp [initial],
    by simp [initial, Dict.mem_keys], by simp [initial], by simp [initial], rfl⟩

section
variable {s : State} (hi : Inv s)
include hi

theorem Inv.unallocated : s.replicaFutures.futures.get (s.replicaNum+1) = none := by
  apply Option.eq_none_iff_forall_ne_some.mpr
  intro fut h
  have hle := hi.keyed _ fut h
  omega

theorem Inv.one_call {k k' : ℕ} {c c' : Call} (hc : s.calls[k]? = some c)
    (hc' : s.calls[k']? = some c') (h : c.replicaId = c'.replicaId) : k = k' := by
  have hn : (s.calls.map Call.replicaId).Nodup := hi.ids ▸ List.nodup_range'
  have hk : (s.calls.map Call.replicaId)[k]? = some c.replicaId := by
    rw [List.getElem?_map, hc, Option.map_some]
  have hk' : (s.calls.map Call.replicaId)[k']? = some c.replicaId := by
    rw [List.getElem?_map, hc', Option.map_some, h]
  obtain ⟨hlt, he⟩ := List.getElem?_eq_some_iff.mp hk
  exact (List.Nodup.getElem_inj_iff hn).mp (he.trans (List.getElem?_eq_some_iff.mp hk').2.symm)

end

theorem createReplica_failed {s : State} (hi : Inv s) (name : String) (d : ℕ) :
    createReplica name d none s = { s with
      replicaNum := s.replicaNum+1
      calls := s.calls ++ [⟨s.replicaNum+1,
        .returned (s.reply (s.replicaNum+1) (replicaPort (s.replicaNum+1)) false)⟩] } := by
  simp only [createReplica, startReplicaCpp, Option.map_none, State.run,
    FutureManager.setResult_absent hi.unallocated, State.record]
  rfl

theorem createReplica_launched {s : State} (hi : Inv s) (name : String) (d pid : ℕ) :
    createReplica name d (some pid) s = { s with
      replicaNum := s.replicaNum+1
      processes := s.processes ++
        [⟨s.replicaNum+1, replicaPort (s.replicaNum+1), name, d, pid, true, false⟩]
      replicaFutures := { s.replicaFutures with
        heap := s.replicaFutures.heap ++ [.pending]
        futures := s.replicaFutures.futures.set (s.replicaNum+1) s.replicaFutures.heap.length }
      calls := s.calls ++ [⟨s.replicaNum+1, .waiting s.replicaFutures.heap.length⟩] } := by
  simp only [createReplica, startReplicaCpp, Option.map_some, State.run,
    FutureManager.createFuture_absent hi.unallocated, State.record]

theorem registerReplica_known {s : State} {p : Process} {r : Replica}
    (hr : s.replicaRegistry.get p.replicaId = some r) :
    registerReplica p s =
      { s with registrations := s.registrations ++ [(p.replicaId, p.pid)] } := by
  simp only [registerReplica, hr]

def State.registered (s : State) (p : Process) : State :=
  { s with
    registrations := s.registrations ++ [(p.replicaId, p.pid)]
    replicaRegistry := s.replicaRegistry.set p.replicaId
      ⟨p.pid, p.replicaId, s.workerId, "idle", p.deploymentId, p.port⟩ }

theorem registerReplica_new {s : State} {p : Process} {m : FutureManager ℕ ReplicaCreationReply}
    (hr : s.replicaRegistry.get p.replicaId = none)
    (hm : FutureManager.setResult p.replicaId (s.reply p.replicaId p.port true)
      s.replicaFutures = .ok () m) :
    registerReplica p s = { s.registered p with replicaFutures := m } := by
  simp only [State.reply] at hm
  simp only [registerReplica, hr, State.run, State.reply, hm, State.registered]

theorem settled_frame {s t : State} {c : Call} (hc : Settled s c)
    (hid : t.created c.replicaId = s.created c.replicaId)
    (hkeys : ∀ id ∈ s.replicaRegistry.keys, id ∈ t.replicaRegistry.keys)
    (hw : ∀ fut, c.progress = .waiting fut → Waiting s c.replicaId fut →
      Waiting t c.replicaId fut ∨ Answered t c.replicaId fut)
    (ha : ∀ fut, Answered s c.replicaId fut → Answered t c.replicaId fut) : Settled t c := by
  unfold Settled at hc ⊢
  cases hp : c.progress with
  | waiting fut =>
    rw [hp] at hc
    rcases hc with h | h
    · exact hw fut hp h
    · exact Or.inr (ha fut h)
  | returned reply =>
    rw [hp] at hc
    intro hr
    obtain ⟨h, hk⟩ := hc hr
    exact ⟨h.trans hid.symm, hkeys _ hk⟩
  | cancelled => trivial
  | raised e =>
    rw [hp] at hc
    exact hc

theorem createReplica_inv {s : State} (hi : Inv s) (name : String) (d : ℕ) (launch : Option ℕ) :
    Inv (createReplica name d launch s) := by
  have hids : List.range' 1 (s.replicaNum+1) = s.calls.map Call.replicaId ++ [s.replicaNum+1] := by
    rw [hi.ids, List.range'_1_concat, Nat.add_comm 1]
  have hlaunched : ∀ p ∈ s.processes,
      p.port = replicaPort p.replicaId ∧ p.replicaId ≤ s.replicaNum+1 :=
    fun p hp => ⟨(hi.launched p hp).1, Nat.le_succ_of_le (hi.launched p hp).2⟩
  have halloc : ∀ id ∈ s.replicaRegistry.keys, id ≤ s.replicaNum+1 :=
    fun id hk => Nat.le_succ_of_le (hi.allocated id hk)
  cases launch with
  | none =>
    rw [createReplica_failed hi]
    refine ⟨hi.futures, by rw [hids, List.map_append]; rfl, fun id fut h =>
      Nat.le_succ_of_le (hi.keyed id fut h), hlaunched, halloc, hi.idle, fun c hc => ?_, hi.quiet⟩
    rcases List.mem_append.mp hc with hc | hc
    · exact hi.settled c hc
    · obtain rfl := List.mem_singleton.mp hc
      exact fun h => nomatch h
  | some pid =>
    rw [createReplica_launched hi]
    refine ⟨FutureManager.createFuture_sound hi.futures _, by rw [hids, List.map_append]; rfl,
      fun id fut h => ?_, fun p hp => ?_, halloc, hi.idle, fun c hc => ?_, hi.quiet⟩
    · rw [Dict.get_set] at h
      split at h
      next hid => exact hid.le
      next => exact Nat.le_succ_of_le (hi.keyed id fut h)
    · rcases List.mem_append.mp hp with hp | hp
      · exact hlaunched p hp
      · obtain rfl := List.mem_singleton.mp hp
        exact ⟨rfl, le_rfl⟩
    · rcases List.mem_append.mp hc with hc | hc
      · have hle : c.replicaId ≤ s.replicaNum := by
          have hm := List.mem_map_of_mem (f := Call.replicaId) hc
          rw [hi.ids, List.mem_range'_1] at hm
          omega
        refine settled_frame (hi.settled c hc) rfl (fun id hk => hk) (fun fut _ hw => Or.inl ?_)
          (fun fut ha => ⟨?_, ha.2⟩)
        · refine ⟨(Dict.get_set_ne _ _ (by omega)).trans hw.1, ?_, hw.2.2⟩
          exact (List.getElem?_append_left (List.getElem?_eq_some_iff.mp hw.2.1).1).trans hw.2.1
        · exact (List.getElem?_append_left (List.getElem?_eq_some_iff.mp ha.1).1).trans ha.1
      · obtain rfl := List.mem_singleton.mp hc
        refine Or.inl ⟨Dict.get_set_self _ _ _, List.getElem?_concat_length, fun hk => ?_⟩
        have hle : s.replicaNum+1 ≤ s.replicaNum := hi.allocated _ hk
        omega

/-- A registration answers the call that waits for the id. -/
theorem register_settled {s : State} (hi : Inv s) {p : Process} (hp : p ∈ s.processes)
    {m : FutureManager ℕ ReplicaCreationReply}
    (hm : FutureManager.Answers s.replicaFutures m p.replicaId (s.reply p.replicaId p.port true))
    {c : Call} (hc : c ∈ s.calls) : Settled { s.registered p with replicaFutures := m } c := by
  have hkept : ∀ fut : ℕ, s.replicaFutures.heap[fut]? = some (.finished (s.created c.replicaId)) →
      m.heap[fut]? = some (.finished (s.created c.replicaId)) := by
    intro fut hf
    rw [hm.kept fut (fun h => nomatch hf.symm.trans h.2), hf]
  refine settled_frame (hi.settled c hc) rfl (fun id hk => Dict.mem_keys_set.mpr (Or.inr hk))
    (fun fut _ hw => ?_) (fun fut ha => ⟨hkept fut ha.1, Dict.mem_keys_set.mpr (Or.inr ha.2)⟩)
  by_cases h : c.replicaId = p.replicaId
  · right
    refine ⟨?_, Dict.mem_keys_set.mpr (Or.inl h)⟩
    have hlt := (List.getElem?_eq_some_iff.mp hw.2.1).1
    change m.heap[fut]? = some (.finished (s.reply c.replicaId (replicaPort c.replicaId) true))
    rw [hm.answered fut (h ▸ hw.1) hw.2.1, List.getElem?_set_self hlt, h,
      (hi.launched p hp).1]
  · left
    refine ⟨?_, ?_, ?_⟩
    · change m.futures.get c.replicaId = some fut
      rw [hm.popped, Dict.get_erase_ne _ h]
      exact hw.1
    · change m.heap[fut]? = some .pending
      rw [hm.kept fut (fun hf => h (hi.futures.apart _ _ fut hw.1 hf.1)), hw.2.1]
    · exact fun hk => (Dict.mem_keys_set.mp hk).elim h hw.2.2

theorem registerReplica_inv {s : State} (hi : Inv s) {p : Process} (hp : p ∈ s.processes) :
    Inv (registerReplica p s) := by
  cases hr : s.replicaRegistry.get p.replicaId with
  | some r =>
    rw [registerReplica_known hr]
    exact ⟨hi.futures, hi.ids, hi.keyed, hi.launched, hi.allocated, hi.idle, hi.settled, hi.quiet⟩
  | none =>
    obtain ⟨m, h, hm⟩ := FutureManager.setResult_answers hi.futures p.replicaId
      (s.reply p.replicaId p.port true)
    rw [registerReplica_new hr h]
    refine ⟨hm.sound, hi.ids, fun id fut hf => ?_, hi.launched, fun id hk => ?_, fun id r h => ?_,
      fun c hc => register_settled hi hp hm hc, hi.quiet⟩
    · change m.futures.get id = some fut at hf
      rw [hm.popped, Dict.get_erase] at hf
      split at hf
      next => cases hf
      next => exact hi.keyed id fut hf
    · rcases Dict.mem_keys_set.mp hk with rfl | hk
      · exact (hi.launched p hp).2
      · exact hi.allocated id hk
    · change (s.replicaRegistry.set p.replicaId _).get id = some r at h
      rw [Dict.get_set] at h
      split at h
      next => exact Option.some.inj h ▸ rfl
      next => exact hi.idle id r h

theorem ended_inv {s : State} (hi : Inv s) {k : ℕ} {c c' : Call} (hc : s.calls[k]? = some c)
    (hid : c'.replicaId = c.replicaId) (hset : Settled s c') :
    Inv { s with calls := s.calls.set k c' } := by
  refine ⟨hi.futures, (map_set_eq hc hid).trans hi.ids, hi.keyed, hi.launched, hi.allocated,
    hi.idle, fun x hx => ?_, hi.quiet⟩
  rcases mem_set hx with rfl | hx
  · exact hset
  · exact hi.settled x hx

theorem resume_ends {s s' : State} (hi : Inv s) {k : ℕ} (hs : resume k s = some s') :
    ∃ c c', s.calls[k]? = some c ∧ c'.replicaId = c.replicaId ∧ Settled s c' ∧
      (∀ reply, c'.progress = .returned reply → reply.created) ∧
      s' = { s with calls := s.calls.set k c' } := by
  unfold resume at hs
  split at hs
  next id fut hc =>
    split at hs
    next reply hf =>
      obtain rfl := Option.some.inj hs
      rcases hi.settled _ (List.mem_of_getElem? hc) with hw | ha
      · exact nomatch hw.2.1.symm.trans hf
      · obtain rfl := Future.finished.inj (Option.some.inj (hf.symm.trans ha.1))
        refine ⟨_, ⟨id, .returned (s.created id)⟩, hc, rfl, fun _ => ⟨rfl, ha.2⟩, ?_, rfl⟩
        intro reply h
        obtain rfl := Progress.returned.inj h
        rfl
    next =>
      obtain rfl := Option.some.inj hs
      exact ⟨_, ⟨id, .cancelled⟩, hc, rfl, trivial, fun _ => (nomatch ·), rfl⟩
    next => cases hs
  next => cases hs

theorem cancel_ends {s s' : State} {k : ℕ} (hs : cancel k s = some s') :
    ∃ c c', s.calls[k]? = some c ∧ c'.replicaId = c.replicaId ∧ Settled s c' ∧
      (∀ reply, c'.progress = .returned reply → reply.created) ∧
      ∃ m, s' = { s with replicaFutures := m, calls := s.calls.set k c' } := by
  unfold cancel at hs
  split at hs
  next id fut hc =>
    exact ⟨_, ⟨id, .cancelled⟩, hc, rfl, trivial, fun _ => (nomatch ·), _,
      (Option.some.inj hs).symm⟩
  next => cases hs

theorem resume_inv {s s' : State} (hi : Inv s) {k : ℕ} (hs : resume k s = some s') : Inv s' := by
  obtain ⟨c, c', hc, hid, hset, -, rfl⟩ := resume_ends hi hs
  exact ended_inv hi hc hid hset

theorem cancelled_inv {s : State} (hi : Inv s) {fut : ℕ}
    (hno : ∀ c ∈ s.calls, ∀ f, Waiting s c.replicaId f → c.progress = .waiting f → f ≠ fut) :
    Inv { s with replicaFutures := s.replicaFutures.cancel fut } := by
  rcases FutureManager.cancel_cases s.replicaFutures fut with ⟨-, h⟩ | ⟨hd, h⟩
  · rw [h]
    exact hi
  · refine ⟨FutureManager.cancel_sound hi.futures fut, hi.ids, fun id f hf => ?_, hi.launched,
      hi.allocated, hi.idle, fun c hc => ?_, hi.quiet⟩
    · change (s.replicaFutures.cancel fut).futures.get id = some f at hf
      rw [h] at hf
      exact hi.keyed id f hf
    · rw [h]
      refine settled_frame (hi.settled c hc) rfl (fun id hk => hk) (fun f hp hw => Or.inl ?_)
        (fun f ha => ⟨?_, ha.2⟩)
      · exact ⟨hw.1, (List.getElem?_set_ne (hno c hc f hw hp).symm).trans hw.2.1, hw.2.2⟩
      · have hne : fut ≠ f := by
          rintro rfl
          exact hd (by rw [FutureManager.isDone, ha.1]; rfl)
        exact (List.getElem?_set_ne hne).trans ha.1

theorem cancel_inv {s s' : State} (hi : Inv s) {k : ℕ} (hs : cancel k s = some s') : Inv s' := by
  unfold cancel at hs
  split at hs
  next id fut hc =>
    obtain rfl := Option.some.inj hs
    refine cancelled_inv (s := { s with calls := s.calls.set k ⟨id, .cancelled⟩ })
      (ended_inv hi hc rfl trivial) (fun c hm f hw hp => ?_)
    rintro rfl
    obtain ⟨j, hj⟩ := List.getElem?_of_mem hm
    rcases getElem?_set_cases hj with ⟨-, rfl⟩ | ⟨hne, hj⟩
    · cases hp
    · rcases hi.settled _ (List.mem_of_getElem? hc) with hw' | ha
      · exact hne (hi.one_call hj hc (hi.futures.apart _ _ f hw.1 hw'.1))
      · exact nomatch hw.2.1.symm.trans ha.1
  next => cases hs

/-- Processes matter by their ids and ports only. -/
theorem processes_inv {s : State} (hi : Inv s) (stopped : Bool) {ps : List Process}
    (hp : ∀ p ∈ ps, ∃ q ∈ s.processes, p.replicaId = q.replicaId ∧ p.port = q.port) :
    Inv { s with processes := ps, stopped := stopped } := by
  refine ⟨hi.futures, hi.ids, hi.keyed, fun p hm => ?_, hi.allocated, hi.idle, hi.settled,
    hi.quiet⟩
  obtain ⟨q, hq, hid, hport⟩ := hp p hm
  rw [hid, hport]
  exact hi.launched q hq

theorem cleanup_eq {s : State} (hi : Inv s) : cleanupReplicas s = s := by
  have h : s.replicaRegistry.filter (fun _ r => r.status ≠ "DEAD") = s.replicaRegistry := by
    refine Dict.filter_eq_self (fun id r hr => ?_)
    rw [hi.idle id r hr]
    rfl
  rw [cleanupReplicas, h]

def Process.killAny (pids : List ℕ) (p : Process) : Process :=
  if p.running ∧ p.pid ∈ pids then { p with signalled := true } else p

theorem killEach_eq (pids : List ℕ) (ps : List Process) :
    killEach pids ps = ps.map (Process.killAny pids) := by
  induction pids generalizing ps with
  | nil =>
    have h : Process.killAny [] = id := by
      funext p
      simp [Process.killAny]
    rw [h, List.map_id]
    rfl
  | cons pid pids ih =>
    have h : ∀ p : Process, (p.kill pid).killAny pids = p.killAny (pid::pids) := by
      intro p
      unfold Process.kill
      split
      next hc =>
        obtain ⟨hr, rfl⟩ := hc
        simp [Process.killAny, hr]
      next hc =>
        have hiff : (p.running ∧ p.pid ∈ pids) ↔ (p.running ∧ p.pid ∈ pid::pids) := by
          rw [List.mem_cons]
          tauto
        simp only [Process.killAny, hiff]
    rw [killEach, List.foldl_cons]
    refine (ih (ps.map (Process.kill pid))).trans ?_
    rw [List.map_map]
    exact List.map_congr_left (fun p _ => h p)

theorem step_inv (s : State) (a : Act) (s' : State) (hi : Inv s) (hs : step s a = some s') :
    Inv s' := by
  unfold step at hs
  split at hs
  next => cases hs
  next =>
    cases a with
    | createReplica name d launch =>
      obtain rfl := Option.some.inj hs
      exact createReplica_inv hi name d launch
    | registerReplica j =>
      obtain ⟨p, hp, rfl⟩ := Option.map_eq_some_iff.mp hs
      exact registerReplica_inv hi (List.mem_of_getElem? hp)
    | resume k => exact resume_inv hi hs
    | cancel k => exact cancel_inv hi hs
    | restart j pid =>
      obtain ⟨p, hp, hs⟩ := Option.bind_eq_some_iff.mp hs
      obtain rfl := Option.some.inj hs
      refine processes_inv hi s.stopped (fun q hq => ?_)
      rcases List.mem_append.mp hq with hq | hq
      · exact ⟨q, hq, rfl, rfl⟩
      · obtain rfl := List.mem_singleton.mp hq
        exact ⟨p, List.mem_of_getElem? hp, rfl, rfl⟩
    | exit j =>
      obtain rfl := Option.some.inj hs
      refine processes_inv hi s.stopped (fun q hq => ?_)
      obtain ⟨i, hq⟩ := List.getElem?_of_mem hq
      rw [List.getElem?_modify] at hq
      obtain ⟨p, hp, rfl⟩ := Option.map_eq_some_iff.mp hq
      refine ⟨p, List.mem_of_getElem? hp, ?_⟩
      split <;> exact ⟨rfl, rfl⟩
    | healthUpdate acknowledged =>
      obtain rfl := Option.some.inj hs
      cases acknowledged with
      | true => exact (cleanup_eq hi).symm ▸ hi
      | false =>
        refine processes_inv hi true (fun q hq => ?_)
        rw [killEach_eq] at hq
        obtain ⟨p, hp, rfl⟩ := List.mem_map.mp hq
        refine ⟨p, hp, ?_⟩
        unfold Process.killAny
        split <;> exact ⟨rfl, rfl⟩

theorem registerReplica_calls (p : Process) (s : State) :
    (registerReplica p s).calls = s.calls := by
  simp only [registerReplica]
  split
  · rfl
  · simp only [State.run]
    split <;> rfl

/-- Everything a step can do to the calls. -/
theorem step_calls {s : State} (hi : Inv s) (a : Act) (s' : State) (hs : step s a = some s') :
    s'.calls = s.calls ∨ (∃ c, s'.calls = s.calls ++ [c]) ∨
    ∃ j c c', s.calls[j]? = some c ∧ c'.replicaId = c.replicaId ∧ Settled s c' ∧
      (∀ reply, c'.progress = .returned reply → reply.created) ∧
      s'.calls = s.calls.set j c' := by
  unfold step at hs
  split at hs
  next => cases hs
  next =>
    cases a with
    | createReplica name d launch =>
      obtain rfl := Option.some.inj hs
      cases launch with
      | none => exact Or.inr (Or.inl ⟨_, by rw [createReplica_failed hi]⟩)
      | some pid => exact Or.inr (Or.inl ⟨_, by rw [createReplica_launched hi]⟩)
    | registerReplica j =>
      obtain ⟨p, -, rfl⟩ := Option.map_eq_some_iff.mp hs
      exact Or.inl (registerReplica_calls p s)
    | resume k =>
      obtain ⟨c, c', hc, hid, hset, hcr, rfl⟩ := resume_ends hi hs
      exact Or.inr (Or.inr ⟨k, c, c', hc, hid, hset, hcr, rfl⟩)
    | cancel k =>
      obtain ⟨c, c', hc, hid, hset, hcr, m, rfl⟩ := cancel_ends hs
      exact Or.inr (Or.inr ⟨k, c, c', hc, hid, hset, hcr, rfl⟩)
    | restart j pid =>
      obtain ⟨p, -, hs⟩ := Option.bind_eq_some_iff.mp hs
      exact Or.inl (Option.some.inj hs ▸ rfl)
    | exit j => exact Or.inl (Option.some.inj hs ▸ rfl)
    | healthUpdate acknowledged =>
      obtain rfl := Option.some.inj hs
      cases acknowledged <;> exact Or.inl rfl

theorem reachable_inv {w : ℕ} {addr : String} {as : List Act} {s : State}
    (hr : Runs.exec step as (initial w addr) = some s) : Inv s :=
  Runs.exec_invariant step_inv (initial_inv w addr) hr

def State.firstPid (s : State) (replicaId : ℕ) : Option ℕ := s.registrations.lookup replicaId

structure Watched (s : State) : Prop where
  recorded : ∀ id, (s.replicaRegistry.get id).map Replica.pid = s.firstPid id
  unsignalled : s.stopped = false → ∀ p ∈ s.processes, p.signalled = false

theorem initial_watched (w : ℕ) (a : String) : Watched (initial w a) :=
  ⟨fun _ => rfl, by simp [initial]⟩

theorem unsignalled_start {ps : List Process} (h : ∀ p ∈ ps, p.signalled = false) {p : Process}
    (hp : p.signalled = false) : ∀ q ∈ ps ++ [p], q.signalled = false := by
  rw [List.forall_mem_append, List.forall_mem_singleton]
  exact ⟨h, hp⟩

theorem registerReplica_watched {s : State} (hi : Inv s) (hw : Watched s) (p : Process) :
    Watched (registerReplica p s) := by
  have hlookup : ∀ id, (s.registrations ++ [(p.replicaId, p.pid)]).lookup id =
      (s.firstPid id).or (if id = p.replicaId then some p.pid else none) := by
    intro id
    rw [List.lookup_append, State.firstPid]
    by_cases h : id = p.replicaId
    · simp [h]
    · simp [h, List.lookup_cons, beq_eq_false_iff_ne.mpr h]
  cases hr : s.replicaRegistry.get p.replicaId with
  | some r =>
    rw [registerReplica_known hr]
    refine ⟨fun id => ?_, hw.unsignalled⟩
    change _ = (s.registrations ++ [(p.replicaId, p.pid)]).lookup id
    rw [hlookup, hw.recorded]
    by_cases h : id = p.replicaId
    · rw [h, ← hw.recorded, hr]
      rfl
    · rw [if_neg h, Option.or_none]
  | none =>
    obtain ⟨m, h, -⟩ := FutureManager.setResult_answers hi.futures p.replicaId
      (s.reply p.replicaId p.port true)
    rw [registerReplica_new hr h]
    refine ⟨fun id => ?_, hw.unsignalled⟩
    change ((s.replicaRegistry.set p.replicaId _).get id).map Replica.pid =
      (s.registrations ++ [(p.replicaId, p.pid)]).lookup id
    rw [hlookup, Dict.get_set, ← hw.recorded]
    by_cases h : id = p.replicaId
    · rw [if_pos h, if_pos h, h, hr]
      rfl
    · rw [if_neg h, if_neg h, Option.or_none]

theorem step_watched (s : State) (a : Act) (s' : State) (h : Inv s ∧ Watched s)
    (hs : step s a = some s') : Inv s' ∧ Watched s' := by
  obtain ⟨hi, hw⟩ := h
  refine ⟨step_inv s a s' hi hs, ?_⟩
  unfold step at hs
  split at hs
  next => cases hs
  next hstop =>
    have hun := hw.unsignalled (Bool.eq_false_iff.mpr hstop)
    cases a with
    | createReplica name d launch =>
      obtain rfl := Option.some.inj hs
      cases launch with
      | none =>
        rw [createReplica_failed hi]
        exact ⟨hw.recorded, hw.unsignalled⟩
      | some pid =>
        rw [createReplica_launched hi]
        exact ⟨hw.recorded, fun _ => unsignalled_start hun rfl⟩
    | registerReplica j =>
      obtain ⟨p, -, rfl⟩ := Option.map_eq_some_iff.mp hs
      exact registerReplica_watched hi hw p
    | resume k =>
      obtain ⟨c, c', -, -, -, -, rfl⟩ := resume_ends hi hs
      exact ⟨hw.recorded, hw.unsignalled⟩
    | cancel k =>
      obtain ⟨c, c', -, -, -, -, m, rfl⟩ := cancel_ends hs
      exact ⟨hw.recorded, hw.unsignalled⟩
    | restart j pid =>
      obtain ⟨p, -, hs⟩ := Option.bind_eq_some_iff.mp hs
      obtain rfl := Option.some.inj hs
      exact ⟨hw.recorded, fun _ => unsignalled_start hun rfl⟩
    | exit j =>
      obtain rfl := Option.some.inj hs
      have hexit : ∀ p : Process, p.signalled = false → p.exit.signalled = false := fun _ h => h
      exact ⟨hw.recorded, fun _ => forall_modify hexit hun j⟩
    | healthUpdate acknowledged =>
      obtain rfl := Option.some.inj hs
      cases acknowledged with
      | true => exact (cleanup_eq hi).symm ▸ hw
      | false => exact ⟨hw.recorded, fun h => nomatch h⟩

theorem reachable_watched {w : ℕ} {addr : String} {as : List Act} {s : State}
    (hr : Runs.exec step as (initial w addr) = some s) : Watched s :=
  (Runs.exec_invariant step_watched ⟨initial_inv w addr, initial_watched w addr⟩ hr).2

/-- Ids are allocated once; the first registration of an id resolves the call
that waits for it and no other; a created reply is the call's own and the id
is registered; no future is resolved twice and none raises. -/
structure Rendezvous (s : State) : Prop where
  distinct : (s.calls.map Call.replicaId).Nodup
  answers : ∀ (j k fut : ℕ) p s', s.processes[j]? = some p →
    s.calls[k]? = some ⟨p.replicaId, .waiting fut⟩ → s.firstPid p.replicaId = none →
    step s (.registerReplica j) = some s' →
      s.replicaFutures.heap[fut]? = some .pending ∧
      s'.replicaFutures.heap = s.replicaFutures.heap.set fut
        (.finished ⟨s.workerId, [⟨p.replicaId, p.port⟩], s.nodeAddress, true⟩) ∧
      ∀ k' id' : ℕ, s.calls[k']? = some ⟨id', .waiting fut⟩ → k' = k
  own : ∀ c ∈ s.calls, ∀ reply, c.progress = .returned reply → reply.created →
    reply = ⟨s.workerId, [⟨c.replicaId, replicaPort c.replicaId⟩], s.nodeAddress, true⟩ ∧
      c.replicaId ∈ s.replicaRegistry.keys
  once : s.replicaFutures.resolved.Nodup
  quiet : s.raised = []

theorem first_answers {s s' : State} (hi : Inv s) (hw : Watched s) {j k fut : ℕ} {p : Process}
    (hp : s.processes[j]? = some p) (hc : s.calls[k]? = some ⟨p.replicaId, .waiting fut⟩)
    (hf : s.firstPid p.replicaId = none) (hs : step s (.registerReplica j) = some s') :
    s.replicaFutures.heap[fut]? = some .pending ∧
    s'.replicaFutures.heap = s.replicaFutures.heap.set fut
      (.finished ⟨s.workerId, [⟨p.replicaId, p.port⟩], s.nodeAddress, true⟩) ∧
    ∀ k' id' : ℕ, s.calls[k']? = some ⟨id', .waiting fut⟩ → k' = k := by
  have hr : s.replicaRegistry.get p.replicaId = none := by
    rw [← hw.recorded, Option.map_eq_none_iff] at hf
    exact hf
  have hwait : Waiting s p.replicaId fut := by
    rcases hi.settled _ (List.mem_of_getElem? hc) with h | h
    · exact h
    · exact absurd h.2 (Dict.get_eq_none.mp hr)
  obtain ⟨m, hm, hans⟩ := FutureManager.setResult_answers hi.futures p.replicaId
    (s.reply p.replicaId p.port true)
  refine ⟨hwait.2.1, ?_, fun k' id' hc' => ?_⟩
  · unfold step at hs
    split at hs
    next => cases hs
    next =>
      obtain ⟨q, hq, rfl⟩ := Option.map_eq_some_iff.mp hs
      obtain rfl := Option.some.inj (hp.symm.trans hq)
      rw [registerReplica_new hr hm]
      exact hans.answered fut hwait.1 hwait.2.1
  · rcases hi.settled _ (List.mem_of_getElem? hc') with h | h
    · exact hi.one_call hc' hc (hi.futures.apart _ _ fut h.1 hwait.1)
    · exact nomatch hwait.2.1.symm.trans h.1

theorem create_register_rendezvous (workerId : ℕ) (nodeAddress : String) (as : List Act)
    (s : State) (hr : Runs.exec step as (initial workerId nodeAddress) = some s) :
    Rendezvous s := by
  have hi := reachable_inv hr
  refine ⟨hi.ids ▸ List.nodup_range', ?_, fun c hc reply hp hcr => ?_, hi.futures.once, hi.quiet⟩
  · intro j k fut p s' hp hc hf hs
    exact first_answers hi (reachable_watched hr) hp hc hf hs
  · have h := hi.settled c hc
    unfold Settled at h
    rw [hp] at h
    exact h hcr

def launchedRegistered : List Act :=
  [.createReplica "/v1/chat/tinyllama" 2 (some 7001), .createReplica "/v1/chat/tinyllama" 2 none,
    .registerReplica 0, .registerReplica 0, .resume 0]

theorem create_register_rendezvous_sample : ∃ s,
    Runs.exec step launchedRegistered (initial 1 "10.0.0.1") = some s ∧ Rendezvous s :=
  ⟨_, rfl, create_register_rendezvous 1 "10.0.0.1" launchedRegistered _ rfl⟩

theorem killed_signalled {s : State} (hw : Watched s) (hstop : s.stopped = false) :
    (∀ p ∈ (sendKillSignal s).processes, p.running → p.signalled) ↔
      ∀ p ∈ s.processes, p.running → ∃ id, s.firstPid id = some p.pid := by
  have hpid : ∀ pid, pid ∈ s.replicaRegistry.entries.map (fun e => e.2.pid) ↔
      ∃ id, s.firstPid id = some pid := by
    intro pid
    simp only [List.mem_map, Prod.exists, ← Dict.get_eq_some, ← hw.recorded,
      Option.map_eq_some_iff]
  have hsig : ∀ p ∈ s.processes, p.running →
      ((p.killAny (s.replicaRegistry.entries.map (fun e => e.2.pid))).signalled ↔
        ∃ id, s.firstPid id = some p.pid) := by
    intro p hp hr
    rw [← hpid, Process.killAny]
    split
    next hc => exact ⟨fun _ => hc.2, fun _ => rfl⟩
    next hc =>
      rw [hw.unsignalled hstop p hp]
      exact ⟨(nomatch ·), fun h => absurd ⟨hr, h⟩ hc⟩
  have hrun : ∀ pids (p : Process), (p.killAny pids).running = p.running := by
    intro pids p
    unfold Process.killAny
    split <;> rfl
  change (∀ p ∈ killEach _ s.processes, p.running → p.signalled) ↔ _
  rw [killEach_eq]
  constructor
  · intro h p hp hr
    exact (hsig p hp hr).mp (h _ (List.mem_map_of_mem hp) ((hrun _ p).symm ▸ hr))
  · intro h q hq hr
    obtain ⟨p, hp, rfl⟩ := List.mem_map.mp hq
    rw [hrun] at hr
    exact (hsig p hp hr).mpr (h p hp hr)

/-- The kill loop reaches every running process exactly when each carries the
pid that some id was first registered with. -/
theorem kill_reaches_first_registered (workerId : ℕ) (nodeAddress : String) (as : List Act)
    (s s' : State) (hr : Runs.exec step as (initial workerId nodeAddress) = some s)
    (hs : step s (.healthUpdate false) = some s') :
    (∀ p ∈ s'.processes, p.running → p.signalled) ↔
      ∀ p ∈ s.processes, p.running → ∃ id, s.firstPid id = some p.pid := by
  unfold step at hs
  split at hs
  next => cases hs
  next hstop =>
    obtain rfl := Option.some.inj hs
    exact killed_signalled (reachable_watched hr) (Bool.eq_false_iff.mpr hstop)

theorem kill_reaches_first_registered_sample : ∃ s s',
    Runs.exec step launchedRegistered (initial 1 "10.0.0.1") = some s ∧
    step s (.healthUpdate false) = some s' ∧ ∀ p ∈ s'.processes, p.running → p.signalled := by
  refine ⟨_, _, rfl, rfl, ?_⟩
  refine (kill_reaches_first_registered 1 "10.0.0.1" launchedRegistered _ _ rfl rfl).mpr ?_
  intro p hp _
  obtain rfl := List.mem_singleton.mp hp
  exact ⟨1, rfl⟩

/-- A process that has not registered yet outlives the scheduler. -/
theorem kill_misses_unregistered : ∃ s s',
    Runs.exec step [.createReplica "/v1/chat/tinyllama" 2 (some 7001)] (initial 1 "10.0.0.1") =
      some s ∧
    step s (.healthUpdate false) = some s' ∧
    ∃ p ∈ s'.processes, p.running = true ∧ p.signalled = false :=
  ⟨_, _, rfl, rfl, _, List.mem_singleton.mpr rfl, rfl, rfl⟩

end ServingSystem.Scheduler
