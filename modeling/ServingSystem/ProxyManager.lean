import ServingSystem.Positions
import ServingSystem.Runs
import Mathlib.Tactic.Tauto

/-!
# Heartbeats of the proxy process

`ProxyManager` and the `send_heartbeat` tasks, one more for each
`SubscribeToRoutingUpdates`. All tasks share the current process and
`AliveProxy`; a task suspends in a sleep, in a ping with its retries or in the
close of a channel, and runs on from there in one step. A ping may be answered,
fail for good, or end its task when another task closes the channel. Closing a
channel does not raise. `terminated` records each process sent a SIGTERM, with
the process that was current at the failed ping's first attempt.
-/

set_option autoImplicit false

namespace ServingSystem.Head.ProxyManager
open Positions

/-- Where a `send_heartbeat` task is suspended. -/
inductive Task where
  | created
  | starting
  | restarting
  | reopening
  | pinging (first : Option ℕ)
  | closing (first : Option ℕ)
  | sleeping
  | ended
  deriving DecidableEq, Repr

structure State where
  processes : List Bool
  proxyProcess : Option ℕ
  aliveProxy : Bool
  tasks : List Task
  terminated : List (Option ℕ × ℕ)
  deriving DecidableEq, Repr

/-- `launch` tells whether the new process passes its first `poll`, and is
`none` when `Popen` raises. -/
def startHttpProxy (launch : Option Bool) (s : State) : State :=
  match launch with
  | some running => { s with
      processes := s.processes ++ [running]
      proxyProcess := some s.processes.length
      aliveProxy := running }
  | none => { s with aliveProxy := false }

def loopTop (launch : Option Bool) (s : State) : State × Task :=
  if s.aliveProxy then (s, .pinging s.proxyProcess)
  else (startHttpProxy launch s, .restarting)

def begin (launch : Option Bool) (s : State) : State × Task :=
  if s.aliveProxy then loopTop launch s else (startHttpProxy launch s, .starting)

def terminate (first : Option ℕ) (s : State) : State :=
  match s.proxyProcess with
  | some p =>
    if s.processes[p]? = some true then { s with terminated := s.terminated ++ [(first, p)] }
    else s
  | none => s

def proceed (launch : Option Bool) (s : State) : Task → Option (State × Task)
  | .created => some (begin launch s)
  | .starting => some (loopTop launch s)
  | .restarting => some (s, .reopening)
  | .reopening => some (loopTop launch s)
  | .closing first => some (terminate first s, .sleeping)
  | .sleeping => some (loopTop launch s)
  | .pinging _ => none
  | .ended => none

def pinged (answered : Bool) (s : State) : Task → Option (State × Task)
  | .pinging first =>
    if answered then some (s, .sleeping)
    else some ({ s with aliveProxy := false }, .closing first)
  | _ => none

inductive Act where
  | subscribe
  | proceed (task : ℕ) (launch : Option Bool)
  | pinged (task : ℕ) (answered : Bool)
  | cancelled (task : ℕ)
  | exit (process : ℕ)
  deriving DecidableEq, Repr

def place (k : ℕ) (r : State × Task) : State := { r.1 with tasks := r.1.tasks.set k r.2 }

def step (s : State) : Act → Option State
  | .subscribe => some { s with tasks := s.tasks ++ [.created] }
  | .proceed k launch => (s.tasks[k]?.bind (proceed launch s)).map (place k)
  | .pinged k answered => (s.tasks[k]?.bind (pinged answered s)).map (place k)
  | .cancelled k =>
    match s.tasks[k]? with
    | some (.pinging _) => some { s with tasks := s.tasks.set k .ended }
    | _ => none
  | .exit p => some { s with processes := s.processes.set p false }

def initial (launch : Option Bool) : State := startHttpProxy launch ⟨[], none, false, [], []⟩

/-- Only processes that were current at the failed ping's first attempt. -/
def OnlyStale (s : State) : Prop := ∀ first p, (first, p) ∈ s.terminated → first = some p

/-- A ping of the task has begun and its failure would terminate a process. -/
def Task.first : Task → Option (Option ℕ)
  | .pinging first => some first
  | .closing first => some first
  | _ => none

def Starts (s : State) (k : ℕ) : Prop :=
  s.aliveProxy = false ∧
    ∃ x ∈ [Task.created, .starting, .reopening, .sleeping], s.tasks[k]? = some x

/-- No process is launched while a ping or what follows its failure is under
way. -/
def LaunchesClear (s : State) : Act → Prop
  | .proceed k (some true) => Starts s k → ∀ x ∈ s.tasks, x.first = none
  | _ => True

def Current (s : State) (p : ℕ) : Prop := s.proxyProcess = some p ∧ s.processes[p]? = some true

structure Inv (s : State) : Prop where
  stale : OnlyStale s
  current : ∀ x ∈ s.tasks, ∀ first, x.first = some first → ∀ p, Current s p → first = some p
  started : ∀ p, s.proxyProcess = some p → p < s.processes.length
  known : ∀ x ∈ s.tasks, ∀ p, x.first = some (some p) → p < s.processes.length

/-- Everything a task does when it runs on. -/
theorem proceed_cases {launch : Option Bool} {s s' : State} {x y : Task}
    (h : proceed launch s x = some (s', y)) :
    (s' = s ∧ (y = .pinging s.proxyProcess ∨ y = .reopening)) ∨
    (s.aliveProxy = false ∧ x ∈ [Task.created, .starting, .reopening, .sleeping] ∧
      s' = startHttpProxy launch s ∧ y.first = none) ∨
    ∃ first, x = .closing first ∧ s' = terminate first s ∧ y = .sleeping := by
  cases ha : s.aliveProxy with
  | true =>
    cases x <;> simp only [proceed, begin, loopTop, ha, if_true, Option.some.injEq, Prod.mk.injEq,
      reduceCtorEq] at h
    case closing first =>
      obtain ⟨rfl, rfl⟩ := h
      exact Or.inr (Or.inr ⟨first, rfl, rfl, rfl⟩)
    all_goals
      obtain ⟨rfl, rfl⟩ := h
      simp
  | false =>
    cases x <;> simp only [proceed, begin, loopTop, ha, Bool.false_eq_true, if_false,
      Option.some.injEq, Prod.mk.injEq, reduceCtorEq] at h
    case closing first =>
      obtain ⟨rfl, rfl⟩ := h
      exact Or.inr (Or.inr ⟨first, rfl, rfl, rfl⟩)
    case restarting =>
      obtain ⟨rfl, rfl⟩ := h
      exact Or.inl ⟨rfl, Or.inr rfl⟩
    all_goals
      obtain ⟨rfl, rfl⟩ := h
      exact Or.inr (Or.inl ⟨rfl, by simp, rfl, rfl⟩)

theorem proceed_starts (launch : Option Bool) {s : State} {x : Task} (ha : s.aliveProxy = false)
    (hx : x ∈ [Task.created, .starting, .reopening, .sleeping]) :
    ∃ y, proceed launch s x = some (startHttpProxy launch s, y) := by
  simp only [List.mem_cons, List.not_mem_nil, or_false] at hx
  rcases hx with rfl | rfl | rfl | rfl <;> simp [proceed, begin, loopTop, ha]

theorem terminate_cases (first : Option ℕ) (s : State) :
    terminate first s = s ∨ ∃ p, Current s p ∧
      terminate first s = { s with terminated := s.terminated ++ [(first, p)] } := by
  unfold terminate
  cases hp : s.proxyProcess with
  | none => exact Or.inl rfl
  | some p =>
    by_cases hr : s.processes[p]? = some true
    · exact Or.inr ⟨p, ⟨hp, hr⟩, if_pos hr⟩
    · exact Or.inl (if_neg hr)

theorem startHttpProxy_tasks (launch : Option Bool) (s : State) :
    (startHttpProxy launch s).tasks = s.tasks := by
  cases launch <;> rfl

theorem startHttpProxy_terminated (launch : Option Bool) (s : State) :
    (startHttpProxy launch s).terminated = s.terminated := by
  cases launch <;> rfl

/-- What is current after a start was current before, or runs since then. -/
theorem startHttpProxy_current {launch : Option Bool} {s : State} {p : ℕ}
    (h : Current (startHttpProxy launch s) p) :
    Current s p ∨ (launch = some true ∧ p = s.processes.length) := by
  cases launch with
  | none => exact Or.inl h
  | some running =>
    right
    obtain ⟨hp, hr⟩ := h
    obtain rfl := Option.some.inj hp
    have hlast : (s.processes ++ [running])[s.processes.length]? = some running :=
      List.getElem?_concat_length
    exact ⟨congrArg some (Option.some.inj (hlast.symm.trans hr)), rfl⟩

theorem startHttpProxy_length (launch : Option Bool) (s : State) :
    s.processes.length ≤ (startHttpProxy launch s).processes.length := by
  cases launch with
  | none => exact le_rfl
  | some running =>
    show s.processes.length ≤ (s.processes ++ [running]).length
    simp

theorem startHttpProxy_started {launch : Option Bool} {s : State}
    (h : ∀ p, s.proxyProcess = some p → p < s.processes.length) (p : ℕ)
    (hp : (startHttpProxy launch s).proxyProcess = some p) :
    p < (startHttpProxy launch s).processes.length := by
  cases launch with
  | none => exact h p hp
  | some running =>
    obtain rfl := Option.some.inj hp
    show s.processes.length < (s.processes ++ [running]).length
    simp

section
variable {s s' : State}

theorem inv_set (hi : Inv s) {k : ℕ} {y : Task}
    (hcur : ∀ first, y.first = some first → ∀ p, Current s p → first = some p)
    (hknown : ∀ p, y.first = some (some p) → p < s.processes.length) :
    Inv { s with tasks := s.tasks.set k y } := by
  refine ⟨hi.stale, fun x hx => ?_, hi.started, fun x hx => ?_⟩
  · rcases mem_set hx with rfl | hx
    · exact hcur
    · exact hi.current x hx
  · rcases mem_set hx with rfl | hx
    · exact hknown
    · exact hi.known x hx

theorem inv_set_none (hi : Inv s) {k : ℕ} {y : Task} (hy : y.first = none) :
    Inv { s with tasks := s.tasks.set k y } := by
  apply inv_set hi
  · intro first h
    rw [hy] at h
    cases h
  · intro p h
    rw [hy] at h
    cases h

theorem inv_alive (hi : Inv s) : Inv { s with aliveProxy := false } :=
  ⟨hi.stale, hi.current, hi.started, hi.known⟩

theorem start_inv (hi : Inv s) {launch : Option Bool}
    (hc : launch = some true → ∀ x ∈ s.tasks, x.first = none) : Inv (startHttpProxy launch s) := by
  have hlen := startHttpProxy_length launch s
  constructor
  · intro first p hp
    rw [startHttpProxy_terminated] at hp
    exact hi.stale first p hp
  · intro x hx first hf p hp
    rw [startHttpProxy_tasks] at hx
    rcases startHttpProxy_current hp with hp | ⟨hl, -⟩
    · exact hi.current x hx first hf p hp
    · rw [hc hl x hx] at hf
      cases hf
  · exact startHttpProxy_started hi.started
  · intro x hx p hp
    rw [startHttpProxy_tasks] at hx
    exact (hi.known x hx p hp).trans_le hlen

theorem terminate_inv (hi : Inv s) {first : Option ℕ} (hx : Task.closing first ∈ s.tasks) :
    Inv (terminate first s) := by
  rcases terminate_cases first s with h | ⟨p, hp, h⟩
  · rw [h]
    exact hi
  · rw [h]
    refine ⟨fun q r hq => ?_, hi.current, hi.started, hi.known⟩
    rcases List.mem_append.mp hq with hq | hq
    · exact hi.stale q r hq
    · obtain ⟨rfl, rfl⟩ := Prod.mk.inj (List.mem_singleton.mp hq)
      exact hi.current _ hx q rfl r hp

theorem proceed_inv (hi : Inv s) {k : ℕ} {launch : Option Bool}
    (hc : LaunchesClear s (.proceed k launch)) (hs : step s (.proceed k launch) = some s') :
    Inv s' := by
  obtain ⟨⟨r, y⟩, hr, rfl⟩ := Option.map_eq_some_iff.mp hs
  obtain ⟨x, hx, hr⟩ := Option.bind_eq_some_iff.mp hr
  rcases proceed_cases hr with ⟨rfl, hy⟩ | ⟨ha, hmem, rfl, hy⟩ | ⟨first, rfl, rfl, rfl⟩
  · rcases hy with rfl | rfl
    · apply inv_set hi
      · intro first hf p hp
        exact (Option.some.inj hf).symm.trans hp.1
      · intro p hf
        exact hi.started p (Option.some.inj hf)
    · exact inv_set_none hi rfl
  · refine inv_set_none (start_inv hi ?_) hy
    rintro rfl
    exact hc ⟨ha, x, hmem, hx⟩
  · exact inv_set_none (terminate_inv hi (List.mem_of_getElem? hx)) rfl

theorem pinged_inv (hi : Inv s) {k : ℕ} {answered : Bool}
    (hs : step s (.pinged k answered) = some s') : Inv s' := by
  obtain ⟨⟨r, y⟩, hr, rfl⟩ := Option.map_eq_some_iff.mp hs
  obtain ⟨x, hx, hr⟩ := Option.bind_eq_some_iff.mp hr
  have hm := List.mem_of_getElem? hx
  cases x with
  | pinging first =>
    cases answered with
    | true =>
      obtain ⟨rfl, rfl⟩ := Prod.mk.inj (Option.some.inj hr)
      exact inv_set_none hi rfl
    | false =>
      obtain ⟨rfl, rfl⟩ := Prod.mk.inj (Option.some.inj hr)
      exact inv_set (inv_alive hi) (hi.current (.pinging first) hm) (hi.known (.pinging first) hm)
  | created => cases hr
  | starting => cases hr
  | restarting => cases hr
  | reopening => cases hr
  | closing first => cases hr
  | sleeping => cases hr
  | ended => cases hr

theorem exit_inv (hi : Inv s) (p : ℕ) : Inv { s with processes := s.processes.set p false } := by
  refine ⟨hi.stale, fun x hx first hf q hq => hi.current x hx first hf q ⟨hq.1, ?_⟩, ?_, ?_⟩
  · rcases getElem?_set_cases hq.2 with ⟨-, h⟩ | ⟨-, h⟩
    · cases h
    · exact h
  · intro q hq
    rw [List.length_set]
    exact hi.started q hq
  · intro x hx q hq
    rw [List.length_set]
    exact hi.known x hx q hq

theorem step_inv (s : State) (a : Act) (s' : State) (hi : Inv s) (hc : LaunchesClear s a)
    (hs : step s a = some s') : Inv s' := by
  cases a with
  | subscribe =>
    obtain rfl := Option.some.inj hs
    refine ⟨hi.stale, fun x hx => ?_, hi.started, fun x hx => ?_⟩
    · rcases List.mem_append.mp hx with hx | hx
      · exact hi.current x hx
      · obtain rfl := List.mem_singleton.mp hx
        exact fun _ => (nomatch ·)
    · rcases List.mem_append.mp hx with hx | hx
      · exact hi.known x hx
      · obtain rfl := List.mem_singleton.mp hx
        exact fun _ => (nomatch ·)
  | proceed k launch => exact proceed_inv hi hc hs
  | pinged k answered => exact pinged_inv hi hs
  | cancelled k =>
    simp only [step] at hs
    split at hs
    next => exact Option.some.inj hs ▸ inv_set_none hi rfl
    next => cases hs
  | exit p => exact Option.some.inj hs ▸ exit_inv hi p

theorem initial_inv (launch : Option Bool) : Inv (initial launch) := by
  have h : Inv ⟨[], none, false, [], []⟩ :=
    ⟨fun _ _ => (nomatch ·), fun _ => (nomatch ·), fun _ => (nomatch ·), fun _ => (nomatch ·)⟩
  exact start_inv h (fun _ _ => (nomatch ·))

theorem closing_violates {j p : ℕ} {first : Option ℕ} (hj : s.tasks[j]? = some (.closing first))
    (hp : Current s p) (hne : first ≠ some p) :
    ∃ t, step s (.proceed j none) = some t ∧ ¬ OnlyStale t := by
  have hterm : terminate first s = { s with terminated := s.terminated ++ [(first, p)] } := by
    simp only [terminate, hp.1, hp.2, if_true]
  refine ⟨place j (terminate first s, .sleeping), by simp [step, hj, proceed], fun h => hne ?_⟩
  apply h first p
  show (first, p) ∈ (terminate first s).terminated
  simp [hterm]

theorem pending_violates {j p : ℕ} {x : Task} {first : Option ℕ} (hj : s.tasks[j]? = some x)
    (hx : x.first = some first) (hp : Current s p) (hne : first ≠ some p) :
    ∃ as t, Runs.exec step as s = some t ∧ ¬ OnlyStale t := by
  cases x with
  | closing q =>
    obtain rfl := Option.some.inj hx
    obtain ⟨t, ht, hbad⟩ := closing_violates hj hp hne
    exact ⟨[.proceed j none], t, Runs.exec_cons.mpr ⟨t, ht, rfl⟩, hbad⟩
  | pinging q =>
    obtain rfl := Option.some.inj hx
    have hs : step s (.pinged j false) =
        some (place j ({ s with aliveProxy := false }, .closing q)) := by
      simp [step, hj, pinged]
    have hlt := (List.getElem?_eq_some_iff.mp hj).1
    obtain ⟨t, ht, hbad⟩ := closing_violates (List.getElem?_set_self hlt) (p := p)
      (s := place j ({ s with aliveProxy := false }, .closing q)) hp hne
    exact ⟨[.pinged j false, .proceed j none], t,
      Runs.exec_cons.mpr ⟨_, hs, Runs.exec_cons.mpr ⟨t, ht, rfl⟩⟩, hbad⟩
  | created => cases hx
  | starting => cases hx
  | restarting => cases hx
  | reopening => cases hx
  | sleeping => cases hx
  | ended => cases hx

/-- A launch past a pending failure can be continued to a wrong terminate. -/
theorem unclear_launch_violates (hi : Inv s) {k : ℕ}
    (hs : step s (.proceed k (some true)) = some s')
    (hc : ¬ LaunchesClear s (.proceed k (some true))) :
    ∃ as t, Runs.exec step as s' = some t ∧ ¬ OnlyStale t := by
  simp only [LaunchesClear, not_forall] at hc
  obtain ⟨⟨ha, x, hmem, hx⟩, z, hz, hzf⟩ := hc
  obtain ⟨first, hfirst⟩ := Option.ne_none_iff_exists'.mp hzf
  obtain ⟨j, hj⟩ := List.getElem?_of_mem hz
  obtain ⟨⟨r, y⟩, hr, rfl⟩ := Option.map_eq_some_iff.mp hs
  obtain ⟨x', hx', hr⟩ := Option.bind_eq_some_iff.mp hr
  obtain rfl := Option.some.inj (hx.symm.trans hx')
  have hnone : x.first = none := by
    simp only [List.mem_cons, List.not_mem_nil, or_false] at hmem
    rcases hmem with rfl | rfl | rfl | rfl <;> rfl
  have hjk : k ≠ j := by
    rintro rfl
    obtain rfl := Option.some.inj (hx.symm.trans hj)
    exact absurd hnone hzf
  obtain ⟨y', hy'⟩ := proceed_starts (some true) ha hmem
  obtain ⟨rfl, rfl⟩ := Prod.mk.inj (Option.some.inj (hr.symm.trans hy'))
  have hj' : (place k (startHttpProxy (some true) s, y)).tasks[j]? = some z := by
    rw [← hj]
    exact List.getElem?_set_ne hjk
  have hcur : Current (place k (startHttpProxy (some true) s, y)) s.processes.length :=
    ⟨rfl, List.getElem?_concat_length⟩
  apply pending_violates hj' hfirst hcur
  rintro rfl
  exact lt_irrefl _ (hi.known z hz _ hfirst)

end

/-- In every run that launches no process while a ping may still fail, only
stale processes are terminated; any other launch can be continued to the
termination of the new process. -/
theorem clear_launches_terminate_stale (launch : Option Bool) (as : List Act) (s : State)
    (hr : Runs.exec step as (initial launch) = some s)
    (hc : Runs.Along step LaunchesClear as (initial launch)) :
    OnlyStale s ∧ ∀ k s', step s (.proceed k (some true)) = some s' →
      ¬ LaunchesClear s (.proceed k (some true)) →
      ∃ as' t, Runs.exec step as' s' = some t ∧ ¬ OnlyStale t := by
  have hi := Runs.exec_invariant_along step_inv (initial_inv launch) hc hr
  exact ⟨hi.stale, fun k s' hs hn => unclear_launch_violates hi hs hn⟩

def restarted : List Act :=
  [.subscribe, .proceed 0 none, .pinged 0 false, .proceed 0 none, .exit 0,
    .proceed 0 (some true), .subscribe]

theorem clear_launches_terminate_stale_sample : ∃ s,
    Runs.exec step restarted (initial (some true)) = some s ∧ OnlyStale s := by
  refine ⟨_, rfl, (clear_launches_terminate_stale (some true) restarted _ rfl ?_).1⟩
  iterate 5 refine (Runs.along_cons rfl).mpr ⟨trivial, ?_⟩
  refine (Runs.along_cons rfl).mpr ⟨fun _ => ?_, (Runs.along_cons rfl).mpr ⟨trivial, trivial⟩⟩
  decide

/-- The ping of the second task began before the first task restarted the
proxy. -/
theorem stale_failure_kills_new_proxy : ∃ s,
    Runs.exec step [.subscribe, .subscribe, .proceed 0 none, .proceed 1 none, .pinged 0 false,
      .proceed 0 none, .exit 0, .proceed 0 (some true), .pinged 1 false, .proceed 1 none]
      (initial (some true)) = some s ∧ s.terminated = [(some 0, 0), (some 0, 1)] ∧ ¬ OnlyStale s :=
  ⟨_, rfl, rfl, fun h => absurd (h (some 0) 1 (by decide)) (by decide)⟩

end ServingSystem.Head.ProxyManager
