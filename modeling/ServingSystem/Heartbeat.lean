import ServingSystem.CommandLine

/-!
# The heartbeat loop of the scheduler

`start_heartbeat_loop` as one more task of the scheduler's event loop. It
suspends in each attempt of a ping, in the delays between them and in its
sleep; the handlers of the scheduler run in between. The cycles so far are
recorded, the latest first, and no one reads them.
-/

set_option autoImplicit false

namespace ServingSystem.Heartbeat
open Scheduler CommandLine

inductive PyErr where
  | attributeError
  deriving DecidableEq, Repr

def deploymentName (_ : Replica) : Except PyErr String := .error .attributeError

def relaunch (replicaId : ℕ) (replicaInfo : Replica) : Except PyErr Launch := do
  let name ← deploymentName replicaInfo
  return ⟨replicaId, replicaInfo.port, toString replicaInfo.deploymentId, name⟩

/-- `launched` are the tasks of `StartReplicaCpp` that the cycle has created. -/
structure Cycle where
  snapshotForPing : List (ℕ × Replica)
  pinged : List ℕ
  failed : List ℕ
  launched : List Launch
  deriving DecidableEq, Repr

inductive Phase where
  | sleeping
  | pinging (attempt replicaId : ℕ) (replicaInfo : Replica) (rest : List (ℕ × Replica))
  | raised (e : PyErr)
  deriving DecidableEq, Repr

structure State where
  scheduler : Scheduler.State
  phase : Phase
  cycles : List Cycle

def next : List (ℕ × Replica) → Phase
  | [] => .sleeping
  | (replicaId, replicaInfo)::rest =>
    if replicaInfo.status = "DEAD" then next rest else .pinging 1 replicaId replicaInfo rest

def recordCycle (f : Cycle → Cycle) : List Cycle → List Cycle
  | [] => []
  | c::cycles => f c::cycles

def wake (s : State) : State :=
  { s with
    phase := next s.scheduler.replicaRegistry.entries
    cycles := ⟨s.scheduler.replicaRegistry.entries, [], [], []⟩::s.cycles }

def answered (replicaId : ℕ) (rest : List (ℕ × Replica)) (s : State) : State :=
  { s with
    phase := next rest
    cycles := recordCycle (fun c => { c with pinged := c.pinged ++ [replicaId] }) s.cycles }

def exhausted (replicaId : ℕ) (replicaInfo : Replica) (rest : List (ℕ × Replica)) (s : State) :
    State :=
  let s := { s with
    cycles := recordCycle (fun c => { c with
      pinged := c.pinged ++ [replicaId]
      failed := c.failed ++ [replicaId] }) s.cycles }
  match relaunch replicaId replicaInfo with
  | .error e => { s with phase := .raised e }
  | .ok launch => { s with
      phase := next rest
      cycles := recordCycle (fun c => { c with launched := c.launched ++ [launch] }) s.cycles }

def numAttempts : ℕ := 3

inductive Act where
  | wake
  | pingAnswered
  | attemptFailed
  | scheduler (a : Scheduler.Act)
  deriving DecidableEq, Repr

def step (s : State) (a : Act) : Option State :=
  if s.scheduler.stopped then none else
  match a, s.phase with
  | .wake, .sleeping => some (wake s)
  | .pingAnswered, .pinging _ replicaId _ rest => some (answered replicaId rest s)
  | .attemptFailed, .pinging attempt replicaId replicaInfo rest =>
    if attempt < numAttempts then
      some { s with phase := .pinging (attempt+1) replicaId replicaInfo rest }
    else some (exhausted replicaId replicaInfo rest s)
  | .scheduler a, _ => (Scheduler.step s.scheduler a).map (fun w => { s with scheduler := w })
  | _, _ => none

def start (scheduler : Scheduler.State) : State := ⟨scheduler, .sleeping, []⟩

def monitored (snapshot : List (ℕ × Replica)) : List ℕ :=
  (snapshot.filter (fun e => e.2.status ≠ "DEAD")).map Prod.fst

def Phase.ahead : Phase → List ℕ
  | .pinging _ replicaId _ rest => replicaId::monitored rest
  | _ => []

def PingsEach (s : State) : Prop :=
  match s.cycles with
  | [] => s.phase.ahead = []
  | c::cycles => c.pinged ++ s.phase.ahead = monitored c.snapshotForPing ∧
      ∀ c ∈ cycles, c.pinged = monitored c.snapshotForPing

def Relaunched (s : State) (c : Cycle) (replicaId : ℕ) : Prop :=
  ∃ launch ∈ c.launched, launch.replicaId = replicaId ∧
    ∀ p ∈ s.scheduler.processes, p.replicaId = replicaId → launch = started p

/-- The loop has not raised, pings each replica once in a cycle and starts
those again that do not answer. -/
structure GoesOn (s : State) : Prop where
  running : ∀ e, s.phase ≠ .raised e
  pings : PingsEach s
  relaunched : ∀ c ∈ s.cycles, ∀ replicaId ∈ c.failed, Relaunched s c replicaId

def Answers (s : State) (a : Act) : Prop :=
  a = .attemptFailed → ∀ attempt replicaId replicaInfo rest,
    s.phase = .pinging attempt replicaId replicaInfo rest → attempt < numAttempts

def Inv (s : State) : Prop :=
  (∃ e, s.phase = .raised e) ∨ ∀ c ∈ s.cycles, c.failed = []

theorem next_ahead (rest : List (ℕ × Replica)) : (next rest).ahead = monitored rest := by
  induction rest with
  | nil => rfl
  | cons e rest ih =>
    obtain ⟨replicaId, replicaInfo⟩ := e
    by_cases h : replicaInfo.status = "DEAD"
    · simp only [next, if_pos h, ih, monitored]
      rw [List.filter_cons_of_neg (by simpa using h)]
    · simp only [next, if_neg h, Phase.ahead, monitored]
      rw [List.filter_cons_of_pos (by simpa using h), List.map_cons]

theorem next_running (rest : List (ℕ × Replica)) (e : PyErr) : next rest ≠ .raised e := by
  induction rest with
  | nil => exact nofun
  | cons x rest ih =>
    rw [next]
    split
    · exact ih
    · exact nofun

theorem step_cases {s t : State} {a : Act} (hs : step s a = some t) :
    (a = .wake ∧ s.phase = .sleeping ∧ t = wake s) ∨
    (∃ attempt id info rest, a = .pingAnswered ∧ s.phase = .pinging attempt id info rest ∧
      t = answered id rest s) ∨
    (∃ attempt id info rest, a = .attemptFailed ∧ s.phase = .pinging attempt id info rest ∧
      attempt < numAttempts ∧ t = { s with phase := .pinging (attempt+1) id info rest }) ∨
    (∃ attempt id info rest, a = .attemptFailed ∧ s.phase = .pinging attempt id info rest ∧
      numAttempts ≤ attempt ∧ t.phase = .raised .attributeError) ∨
    ∃ b w, a = .scheduler b ∧ Scheduler.step s.scheduler b = some w ∧
      t = { s with scheduler := w } := by
  unfold step at hs
  split at hs
  next => cases hs
  next =>
    split at hs
    next hp => exact Or.inl ⟨rfl, hp, (Option.some.inj hs).symm⟩
    next attempt id info rest hp =>
      exact Or.inr (Or.inl ⟨attempt, id, info, rest, rfl, hp, (Option.some.inj hs).symm⟩)
    next attempt id info rest hp =>
      split at hs
      next hlt =>
        exact Or.inr (Or.inr (Or.inl ⟨attempt, id, info, rest, rfl, hp, hlt,
          (Option.some.inj hs).symm⟩))
      next hlt =>
        obtain rfl := Option.some.inj hs
        exact Or.inr (Or.inr (Or.inr (Or.inl ⟨attempt, id, info, rest, rfl, hp, not_lt.mp hlt,
          rfl⟩)))
    next b =>
      obtain ⟨w, hw, rfl⟩ := Option.map_eq_some_iff.mp hs
      exact Or.inr (Or.inr (Or.inr (Or.inr ⟨b, w, rfl, hw, rfl⟩)))
    next => cases hs

theorem failed_recordCycle {f : Cycle → Cycle} (hf : ∀ c, (f c).failed = c.failed)
    {cycles : List Cycle} (h : ∀ c ∈ cycles, c.failed = []) :
    ∀ c ∈ recordCycle f cycles, c.failed = [] := by
  cases cycles with
  | nil => exact h
  | cons c₀ cycles =>
    intro c hc
    rcases List.mem_cons.mp hc with rfl | hc
    · rw [hf]
      exact h c₀ List.mem_cons_self
    · exact h c (List.mem_cons_of_mem _ hc)

/-- A loop that has raised does nothing any more. -/
theorem raised_stays {s t : State} {a : Act} {e : PyErr} (h : s.phase = .raised e)
    (hs : step s a = some t) : t.phase = .raised e ∧ t.cycles = s.cycles := by
  rcases step_cases hs with ⟨-, hp, -⟩ | ⟨_, _, _, _, -, hp, -⟩ | ⟨_, _, _, _, -, hp, -⟩ |
    ⟨_, _, _, _, -, hp, -⟩ | ⟨b, w, -, -, rfl⟩
  iterate 4 rw [h] at hp; cases hp
  exact ⟨h, rfl⟩

/-- No replica is pinged or started again after the loop has raised. -/
theorem monitoring_ends {s t : State} {as : List Act} {e : PyErr} (h : s.phase = .raised e)
    (hr : Runs.exec step as s = some t) : t.phase = .raised e ∧ t.cycles = s.cycles := by
  refine Runs.exec_invariant (P := fun u => u.phase = .raised e ∧ u.cycles = s.cycles) ?_
    ⟨h, rfl⟩ hr
  rintro u a v ⟨hp, hc⟩ hs
  obtain ⟨hp', hc'⟩ := raised_stays hp hs
  exact ⟨hp', hc'.trans hc⟩

theorem inv_step (s : State) (a : Act) (t : State) (hi : Inv s) (hs : step s a = some t) :
    Inv t := by
  rcases hi with ⟨e, he⟩ | hi
  · exact Or.inl ⟨e, (raised_stays he hs).1⟩
  · rcases step_cases hs with ⟨-, -, rfl⟩ | ⟨_, id, _, rest, -, -, rfl⟩ |
      ⟨_, _, _, _, -, -, -, rfl⟩ | ⟨_, _, _, _, -, -, -, h⟩ | ⟨_, _, -, -, rfl⟩
    · refine Or.inr (fun c hc => ?_)
      rcases List.mem_cons.mp hc with rfl | hc
      · rfl
      · exact hi c hc
    · exact Or.inr (failed_recordCycle (f := fun c => { c with pinged := c.pinged ++ [id] })
        (fun _ => rfl) hi)
    · exact Or.inr hi
    · exact Or.inl ⟨_, h⟩
    · exact Or.inr hi

theorem wake_pings {s : State} (hp : s.phase = .sleeping) (h : PingsEach s) :
    PingsEach (wake s) := by
  refine ⟨next_ahead _, ?_⟩
  unfold PingsEach at h
  rw [hp] at h
  split at h
  next hc =>
    rw [hc]
    exact nofun
  next c cycles hc =>
    rw [hc]
    simp only [Phase.ahead, List.append_nil] at h
    exact List.forall_mem_cons.mpr h

theorem answered_pings {s : State} {attempt id : ℕ} {info : Replica} {rest : List (ℕ × Replica)}
    (hp : s.phase = .pinging attempt id info rest) (h : PingsEach s) :
    PingsEach (answered id rest s) := by
  unfold PingsEach answered at *
  rw [hp] at h
  cases hc : s.cycles with
  | nil =>
    rw [hc] at h
    cases h
  | cons c cycles =>
    rw [hc] at h
    refine ⟨?_, h.2⟩
    show (c.pinged ++ [id]) ++ (next rest).ahead = monitored c.snapshotForPing
    rw [next_ahead, List.append_assoc]
    exact h.1

theorem goesOn_iff {s : State} (hi : Inv s) :
    GoesOn s ↔ (∀ e, s.phase ≠ .raised e) ∧ PingsEach s := by
  constructor
  · exact fun h => ⟨h.running, h.pings⟩
  · rintro ⟨hrun, hpings⟩
    refine ⟨hrun, hpings, fun c hc id hid => ?_⟩
    rw [hi.resolve_left (fun ⟨e, he⟩ => hrun e he) c hc] at hid
    cases hid

theorem goesOn_step {s t : State} {a : Act} (hi : Inv s) (hg : GoesOn s)
    (hs : step s a = some t) : GoesOn t ↔ Answers s a := by
  rw [goesOn_iff (inv_step s a t hi hs)]
  rcases step_cases hs with ⟨rfl, hp, rfl⟩ | ⟨_, id, _, rest, rfl, hp, rfl⟩ |
    ⟨attempt, id, info, rest, rfl, hp, hlt, rfl⟩ | ⟨attempt, id, info, rest, rfl, hp, hle, ht⟩ |
    ⟨_, _, rfl, -, rfl⟩
  · exact ⟨fun _ => nofun, fun _ => ⟨next_running _, wake_pings hp hg.pings⟩⟩
  · exact ⟨fun _ => nofun, fun _ => ⟨next_running _, answered_pings hp hg.pings⟩⟩
  · refine ⟨fun _ _ attempt' id' info' rest' hp' => ?_, fun _ => ⟨nofun, ?_⟩⟩
    · rw [hp] at hp'
      cases hp'
      exact hlt
    · have hpings := hg.pings
      unfold PingsEach at hpings ⊢
      rw [hp] at hpings
      exact hpings
  -- The last attempt: the record has no deployment name, and the task ends.
  · constructor
    · exact fun h => absurd ht (h.1 _)
    · intro h
      exact absurd (h rfl attempt id info rest hp) (not_lt.mpr hle)
  · exact ⟨fun _ => nofun, fun _ => ⟨hg.running, hg.pings⟩⟩

/-- In every state of a run the loop goes on exactly when no ping has used up
its attempts. -/
theorem heartbeat_goes_on_iff (scheduler : Scheduler.State) (as : List Act) (s : State)
    (hr : Runs.exec step as (start scheduler) = some s) :
    (∀ n u, Runs.exec step (as.take n) (start scheduler) = some u → GoesOn u) ↔
      Runs.Along step Answers as (start scheduler) := by
  have hg : GoesOn (start scheduler) := ⟨nofun, rfl, nofun⟩
  exact Runs.always_iff_along inv_step (fun _ _ _ hi hg hs => goesOn_step hi hg hs)
    (Or.inr nofun) hg hr

def twoReplicas : List Act :=
  [.scheduler (.createReplica "/v1/chat/gpt2" 1 (some 7001)), .scheduler (.registerReplica 0),
    .scheduler (.createReplica "/v1/chat/gpt2" 1 (some 7002)), .scheduler (.registerReplica 1)]

def answeredCycle : List Act := twoReplicas ++ [.wake, .attemptFailed, .pingAnswered, .pingAnswered]

theorem heartbeat_goes_on_iff_sample : ∃ s,
    Runs.exec step answeredCycle (start (Scheduler.initial 1 "10.0.0.1")) = some s ∧
    ((∀ n u, Runs.exec step (answeredCycle.take n) (start (Scheduler.initial 1 "10.0.0.1")) =
        some u → GoesOn u) ↔
      Runs.Along step Answers answeredCycle (start (Scheduler.initial 1 "10.0.0.1"))) :=
  ⟨_, rfl, heartbeat_goes_on_iff (Scheduler.initial 1 "10.0.0.1") answeredCycle _ rfl⟩

/-- The first does not answer: the loop ends with an error, starts nothing
and never pings the second. -/
theorem silent_replica_ends_loop : ∃ s,
    Runs.exec step (twoReplicas ++ [.wake, .attemptFailed, .attemptFailed, .attemptFailed])
      (start (Scheduler.initial 1 "10.0.0.1")) = some s ∧
    s.phase = .raised .attributeError ∧
    s.cycles.map (fun c => (monitored c.snapshotForPing, c.pinged, c.launched)) =
      [([1, 2], [1], [])] ∧
    step s .wake = none ∧ ¬ GoesOn s :=
  ⟨_, rfl, rfl, by decide +kernel, rfl, fun h => h.running _ rfl⟩

end ServingSystem.Heartbeat
