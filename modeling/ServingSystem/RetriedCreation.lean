import ServingSystem.CreationTasks
import ServingSystem.Scheduler

/-!
# A creation call between the head and a worker

One `create_replica` task of the head, its attempts under
`try_send_with_retries` and the worker that serves them. An attempt may be
lost before it reaches the worker, or fail at any time after: the handler it
started goes on. All other handlers of both sides run in between. The ids of
the replicas its attempts launched are recorded and read by no step.
-/

set_option autoImplicit false

namespace ServingSystem.RetriedCreation
open Protos (ReplicaCreationReply)
open Head DeploymentManager

/-- The next attempt is due, or its handler runs on the worker. -/
inductive Attempt where
  | due
  | calling (call : ℕ)
  | ended
  deriving DecidableEq, Repr

structure State where
  head : HeadController.State
  worker : Scheduler.State
  failures : ℕ
  attempt : Attempt
  launched : List ℕ

inductive Act where
  | reach (launch : Option ℕ)
  | lose
  | fail
  | answer (timestampNs : ℕ)
  | worker (a : Scheduler.Act)
  | head (a : HeadController.Act)

def numAttempts : ℕ := 3

def raise (task : ℕ) (s : State) : Option State :=
  if s.failures+1 < numAttempts then some { s with failures := s.failures+1, attempt := .due }
  else (HeadController.step s.head (.failed task)).map (fun h =>
    { s with head := h, failures := s.failures+1, attempt := .ended })

def reach (task : ℕ) (launch : Option ℕ) (s : State) : Option State :=
  match s.head.creations[task]? with
  | some (.requesting _ d _ _) =>
    (s.head.registry.deployments.get d).bind (fun dep =>
      (Scheduler.step s.worker (.createReplica dep.deploymentName d launch)).map (fun w =>
        { s with
          worker := w
          attempt := .calling s.worker.calls.length
          launched := s.launched ++ (launch.map (fun _ => s.worker.replicaNum+1)).toList }))
  | _ => none

def answer (task k t : ℕ) (s : State) : Option State :=
  match s.worker.calls[k]? with
  | some ⟨_, .returned reply⟩ => (HeadController.step s.head (.reply task reply t)).map (fun h =>
      { s with head := h, attempt := .ended })
  | _ => none

def ends (task : ℕ) : HeadController.Act → Bool
  | .reply k _ _ => k = task
  | .failed k => k = task
  | _ => false

def step (task : ℕ) (s : State) : Act → Option State
  | .reach launch => if s.attempt = .due then reach task launch s else none
  | .lose => if s.attempt = .due then raise task s else none
  | .fail =>
    match s.attempt with
    | .calling _ => raise task s
    | _ => none
  | .answer t =>
    match s.attempt with
    | .calling k => answer task k t s
    | _ => none
  | .worker a =>
    if s.attempt = .ended then none
    else (Scheduler.step s.worker a).map (fun w => { s with worker := w })
  | .head a =>
    if s.attempt = .ended ∨ ends task a then none
    else (HeadController.step s.head a).map (fun h => { s with head := h })

def start (head : HeadController.State) (worker : Scheduler.State) : State :=
  ⟨head, worker, 0, .due, []⟩

def Listed (g : Registry) (d : ℕ) (key : String) : Prop :=
  ∃ dep, g.deployments.get d = some dep ∧ key ∈ dep.replicas.map ReplicaInfo.replicaNum

instance (g : Registry) (d : ℕ) (key : String) : Decidable (Listed g d key) :=
  match hd : g.deployments.get d with
  | none => isFalse (by simp [Listed, hd])
  | some dep => decidable_of_iff (key ∈ dep.replicas.map ReplicaInfo.replicaNum)
      (by simp [Listed, hd])

def State.key (s : State) (id : ℕ) : String := replicaId s.worker.workerId id

/-- The call launched one replica at most; when it has ended, what it launched
and has registered is listed. -/
structure AtMostOnce (d : ℕ) (s : State) : Prop where
  once : s.launched.length ≤ 1
  listed : s.attempt = .ended → ∀ id ∈ s.launched, s.worker.firstPid id ≠ none →
    Listed s.head.registry d (s.key id)

/-- An attempt that fails launched nothing; or what it launched has not
registered, and no attempt or worker is left to launch another. -/
def FailureHarmless (s : State) : Act → Prop
  | .fail => ∀ k c, s.attempt = .calling k → s.worker.calls[k]? = some c →
      c.replicaId ∈ s.launched →
      s.worker.firstPid c.replicaId = none ∧ (s.failures+1 = numAttempts ∨ s.worker.stopped)
  | _ => True

def Launching (w : Scheduler.State) (k id : ℕ) : Prop :=
  ∃ c, w.calls[k]? = some c ∧ c.replicaId = id ∧
    ∀ reply, c.progress = .returned reply → reply.created

def Clean (d : ℕ) (s : State) : Prop :=
  s.launched = [] ∨ ∃ id, s.launched = [id] ∧
    match s.attempt with
    | .due => s.worker.stopped ∧ s.worker.firstPid id = none
    | .calling k => Launching s.worker k id
    | .ended => s.worker.firstPid id = none ∨ Listed s.head.registry d (s.key id)

structure Inv (task : ℕ) (address : String) (d c u : ℕ) (s : State) : Prop where
  worker : Scheduler.Inv s.worker
  known : HeadController.RequestsKnown s.head
  asked : s.attempt ≠ .ended → s.head.creations[task]? = some (.requesting address d c u)
  failures : s.attempt ≠ .ended → s.failures < numAttempts
  clean : Clean d s

theorem Clean.atMostOnce {d : ℕ} {s : State} (h : Clean d s) : AtMostOnce d s := by
  rcases h with h | ⟨id, h, hp⟩
  · exact ⟨by simp [h], by simp [h]⟩
  · refine ⟨by simp [h], fun he id' hm hr => ?_⟩
    rw [h] at hm
    obtain rfl := List.mem_singleton.mp hm
    rw [he] at hp
    exact hp.resolve_left hr

theorem launching_step {w w' : Scheduler.State} (hi : Scheduler.Inv w) {a : Scheduler.Act}
    {k id : ℕ} (h : Launching w k id) (hs : Scheduler.step w a = some w') :
    Launching w' k id := by
  obtain ⟨c, hc, hid, hr⟩ := h
  rcases Scheduler.step_calls hi a w' hs with h | ⟨x, h⟩ | ⟨j, c₀, c', hj, hid', -, hcr, h⟩
  · exact ⟨c, h ▸ hc, hid, hr⟩
  · refine ⟨c, ?_, hid, hr⟩
    rw [h, List.getElem?_append_left (List.getElem?_eq_some_iff.mp hc).1, hc]
  · by_cases hjk : j = k
    · subst hjk
      obtain rfl := Option.some.inj (hj.symm.trans hc)
      refine ⟨c', ?_, hid'.trans hid, hcr⟩
      rw [h, List.getElem?_set_self (List.getElem?_eq_some_iff.mp hj).1]
    · exact ⟨c, by rw [h, List.getElem?_set_ne hjk, hc], hid, hr⟩

section
variable {task : ℕ} {address : String} {d c u : ℕ} {s s' : State}

theorem reach_step (hi : Inv task address d c u s) (hd : s.attempt = .due) {launch : Option ℕ}
    (hs : reach task launch s = some s') : ∃ dep w,
      s.head.registry.deployments.get d = some dep ∧
      Scheduler.step s.worker (.createReplica dep.deploymentName d launch) = some w ∧
      s' = { s with
        worker := w
        attempt := .calling s.worker.calls.length
        launched := s.launched ++ (launch.map (fun _ => s.worker.replicaNum+1)).toList } := by
  simp only [reach, hi.asked (by simp [hd])] at hs
  obtain ⟨dep, hdep, hs⟩ := Option.bind_eq_some_iff.mp hs
  obtain ⟨w, hw, rfl⟩ := Option.map_eq_some_iff.mp hs
  exact ⟨dep, w, hdep, hw, rfl⟩

theorem launching_new {w w' : Scheduler.State} (hi : Scheduler.Inv w) {name : String} {pid : ℕ}
    (hs : Scheduler.step w (.createReplica name d (some pid)) = some w') :
    Launching w' w.calls.length (w.replicaNum+1) := by
  unfold Scheduler.step at hs
  split at hs
  next => cases hs
  next =>
    obtain rfl := Option.some.inj hs
    rw [Scheduler.createReplica_launched hi]
    exact ⟨_, List.getElem?_concat_length, rfl, fun _ => (nomatch ·)⟩

theorem reach_inv (hi : Inv task address d c u s) (hd : s.attempt = .due) {launch : Option ℕ}
    (hs : reach task launch s = some s') : Inv task address d c u s' := by
  have hne : s.attempt ≠ .ended := by simp [hd]
  obtain ⟨dep, w, -, hw, rfl⟩ := reach_step hi hd hs
  refine ⟨Scheduler.step_inv _ _ _ hi.worker hw, hi.known, fun _ => hi.asked hne,
    fun _ => hi.failures hne, ?_⟩
  have hnil : s.launched = [] := by
    rcases hi.clean with h | ⟨id, -, h⟩
    · exact h
    · rw [hd] at h
      rw [Scheduler.step_stopped h.1] at hw
      cases hw
  cases launch with
  | none =>
    left
    simp [hnil]
  | some pid => exact Or.inr ⟨_, by rw [hnil]; rfl, launching_new hi.worker hw⟩

theorem raise_eq (hask : s.head.creations[task]? = some (.requesting address d c u)) :
    raise task s = some (if s.failures+1 < numAttempts then
        { s with failures := s.failures+1, attempt := .due }
      else { s with
        head := { s.head with
          creations := s.head.creations.set task .done
          pendingReplicas := s.head.pendingReplicas ++ [d] }
        failures := s.failures+1
        attempt := .ended }) := by
  unfold raise
  split
  · rfl
  · simp only [HeadController.step, hask, Option.map_some]

theorem raise_inv (hi : Inv task address d c u s) (hne : s.attempt ≠ .ended)
    (hclean : s.launched = [] ∨ ∃ id, s.launched = [id] ∧ s.worker.firstPid id = none ∧
      (s.failures+1 = numAttempts ∨ s.worker.stopped))
    (hs : raise task s = some s') : Inv task address d c u s' := by
  rw [raise_eq (hi.asked hne)] at hs
  obtain rfl := Option.some.inj hs
  split
  next hlt =>
    refine ⟨hi.worker, hi.known, fun _ => hi.asked hne, fun _ => hlt, ?_⟩
    rcases hclean with h | ⟨id, h, hreg, hlast | hstop⟩
    · exact Or.inl h
    · exact absurd hlt hlast.not_lt
    · exact Or.inr ⟨id, h, hstop, hreg⟩
  next =>
    refine ⟨hi.worker, ?_, (absurd rfl ·), (absurd rfl ·), ?_⟩
    · refine HeadController.step_known s.head (.failed task) _ hi.known ?_
      simp only [HeadController.step, hi.asked hne]
    · rcases hclean with h | ⟨id, h, hreg, -⟩
      · exact Or.inl h
      · exact Or.inr ⟨id, h, Or.inl hreg⟩

/-- The head lists the replica of a created reply, also when charging the
node raises. -/
theorem replied_listed {h : HeadController.State} (hd : d ∈ h.registry.ids) (c u w t id : ℕ)
    (port a : String) :
    Listed (HeadController.replied d c u ⟨w, [⟨id, port⟩], a, true⟩ t h).registry d
      (replicaId w id) := by
  obtain ⟨dep, hdep⟩ := Dict.mem_keys.mp hd
  have hplaced : Listed (h.registry.placed d w c u a ⟨id, port⟩) d (replicaId w id) := by
    refine ⟨{ dep with replicas := dep.replicas ++ [newReplica h.registry w a ⟨id, port⟩] }, ?_,
      by simp [newReplica]⟩
    rw [Registry.placed, Dict.get_modify_self, hdep, Option.map_some]
  have hadd := add_one hdep w c u a ⟨id, port⟩
  simp only [HeadController.replied, if_true, HeadController.State.run]
  cases hw : h.registry.nodeMap.get w with
  | none =>
    rw [hw] at hadd
    rw [hadd]
    exact hplaced
  | some node =>
    rw [hw] at hadd
    rw [hadd]
    exact hplaced

theorem answer_inv (hi : Inv task address d c u s) {k : ℕ} (hk : s.attempt = .calling k) {t : ℕ}
    (hs : answer task k t s = some s') : Inv task address d c u s' := by
  have hne : s.attempt ≠ .ended := by simp [hk]
  unfold answer at hs
  split at hs
  next id reply hcall =>
    obtain ⟨h, hstep, rfl⟩ := Option.map_eq_some_iff.mp hs
    refine ⟨hi.worker, HeadController.step_known _ _ _ hi.known hstep, (absurd rfl ·),
      (absurd rfl ·), ?_⟩
    simp only [HeadController.step, hi.asked hne] at hstep
    obtain rfl := Option.some.inj hstep
    rcases hi.clean with hnil | ⟨id', hl, hlaunch⟩
    · exact Or.inl hnil
    · refine Or.inr ⟨id', hl, Or.inr ?_⟩
      rw [hk] at hlaunch
      obtain ⟨x, hx, rfl, hcr⟩ := hlaunch
      obtain rfl := Option.some.inj (hcall.symm.trans hx)
      have hset := hi.worker.settled _ (List.mem_of_getElem? hcall) (hcr reply rfl)
      rw [hset.1]
      exact replied_listed
        (h := { s.head with creations := s.head.creations.set task .done, history := _ })
        (hi.known task address d c u (hi.asked hne)) c u _ t _ _ _
  next => cases hs

theorem worker_inv (hi : Inv task address d c u s) (hne : s.attempt ≠ .ended) {a : Scheduler.Act}
    {w : Scheduler.State} (hw : Scheduler.step s.worker a = some w) :
    Inv task address d c u { s with worker := w } := by
  refine ⟨Scheduler.step_inv _ _ _ hi.worker hw, hi.known, hi.asked, hi.failures, ?_⟩
  rcases hi.clean with h | ⟨id, h, hp⟩
  · exact Or.inl h
  · refine Or.inr ⟨id, h, ?_⟩
    cases hatt : s.attempt with
    | due =>
      rw [hatt] at hp
      rw [Scheduler.step_stopped hp.1] at hw
      cases hw
    | calling k =>
      rw [hatt] at hp
      exact launching_step hi.worker hp hw
    | ended => exact absurd hatt hne

theorem Clean.head (h : Clean d s) (hne : s.attempt ≠ .ended) (head : HeadController.State) :
    Clean d { s with head := head } := by
  rcases h with h | ⟨id, h, hp⟩
  · exact Or.inl h
  · refine Or.inr ⟨id, h, ?_⟩
    cases hatt : s.attempt with
    | due => simpa only [hatt] using hp
    | calling k => simpa only [hatt] using hp
    | ended => exact absurd hatt hne

theorem head_inv (hi : Inv task address d c u s) (hne : s.attempt ≠ .ended)
    {a : HeadController.Act} (hends : ¬ ends task a) {h : HeadController.State}
    (hh : HeadController.step s.head a = some h) :
    Inv task address d c u { s with head := h } := by
  refine ⟨hi.worker, HeadController.step_known _ _ _ hi.known hh, fun _ => ?_, hi.failures,
    hi.clean.head hne h⟩
  refine HeadController.requesting_stays (hi.asked hne) hh ?_ ?_
  · rintro response t rfl
    exact hends (by simp [ends])
  · rintro rfl
    exact hends (by simp [ends])

theorem step_inv (s : State) (a : Act) (s' : State) (hi : Inv task address d c u s)
    (hc : FailureHarmless s a) (hs : step task s a = some s') : Inv task address d c u s' := by
  cases a with
  | reach launch =>
    obtain ⟨hd, hs⟩ := Option.ite_none_right_eq_some.mp hs
    exact reach_inv hi hd hs
  | lose =>
    obtain ⟨hd, hs⟩ := Option.ite_none_right_eq_some.mp hs
    refine raise_inv hi (by simp [hd]) ?_ hs
    rcases hi.clean with h | ⟨id, h, hp⟩
    · exact Or.inl h
    · rw [hd] at hp
      exact Or.inr ⟨id, h, hp.2, Or.inr hp.1⟩
  | fail =>
    simp only [step] at hs
    split at hs
    next k hk =>
      refine raise_inv hi (by simp [hk]) ?_ hs
      rcases hi.clean with h | ⟨id, h, hp⟩
      · exact Or.inl h
      · rw [hk] at hp
        obtain ⟨x, hx, rfl, -⟩ := hp
        exact Or.inr ⟨x.replicaId, h, hc k x hk hx (by simp [h])⟩
    next => cases hs
  | answer t =>
    simp only [step] at hs
    split at hs
    next k hk => exact answer_inv hi hk hs
    next => cases hs
  | worker a =>
    obtain ⟨hne, hs⟩ := Option.ite_none_left_eq_some.mp hs
    obtain ⟨w, hw, rfl⟩ := Option.map_eq_some_iff.mp hs
    exact worker_inv hi hne hw
  | head a =>
    obtain ⟨hn, hs⟩ := Option.ite_none_left_eq_some.mp hs
    obtain ⟨hne, hends⟩ := not_or.mp hn
    obtain ⟨h, hh, rfl⟩ := Option.map_eq_some_iff.mp hs
    exact head_inv hi hne hends hh

/-- A raising attempt whose retries are all lost leaves the worker and the
head's lists as they are. -/
theorem raise_ends (hask : s.head.creations[task]? = some (.requesting address d c u)) :
    ∃ as s' t, raise task s = some s' ∧ Runs.exec (step task) as s' = some t ∧
      t.attempt = .ended ∧ t.launched = s.launched ∧ t.worker = s.worker ∧
      t.head.registry = s.head.registry := by
  induction hn : numAttempts-s.failures generalizing s with
  | zero =>
    refine ⟨[], _, _, raise_eq hask, rfl, ?_⟩
    rw [if_neg (by omega)]
    exact ⟨rfl, rfl, rfl, rfl⟩
  | succ n ih =>
    by_cases hlt : s.failures+1 < numAttempts
    · obtain ⟨as, s', t, hs, hr, hend, hl, hw, hg⟩ :=
        ih (s := { s with failures := s.failures+1, attempt := .due }) hask (by simp only; omega)
      refine ⟨.lose::as, _, t, raise_eq hask, ?_, hend, hl, hw, hg⟩
      rw [if_pos hlt]
      exact Runs.exec_cons.mpr ⟨s', hs, hr⟩
    · refine ⟨[], _, _, raise_eq hask, rfl, ?_⟩
      rw [if_neg hlt]
      exact ⟨rfl, rfl, rfl, rfl⟩

/-- With the worker up, the next attempt launches another replica. -/
theorem relaunched (hi : Inv task address d c u s) (hne : s.attempt ≠ .ended)
    (hup : s.worker.stopped = false) (hlt : s.failures+1 < numAttempts) {id : ℕ}
    (hl : id ∈ s.launched) : ∃ s' t, raise task s = some s' ∧
      step task s' (.reach (some 0)) = some t ∧ ¬ AtMostOnce d t := by
  have hask := hi.asked hne
  obtain ⟨dep, hdep⟩ := Dict.mem_keys.mp (hi.known task address d c u hask)
  refine ⟨{ s with failures := s.failures+1, attempt := .due }, { s with
    worker := Scheduler.createReplica dep.deploymentName d (some 0) s.worker
    failures := s.failures+1
    attempt := .calling s.worker.calls.length
    launched := s.launched ++ [s.worker.replicaNum+1] }, ?_, ?_, fun h => ?_⟩
  · rw [raise_eq hask, if_pos hlt]
  · simp [step, reach, hask, hdep, Scheduler.step, hup]
  · have hpos := List.length_pos_of_mem hl
    have hlen := h.once
    rw [List.length_append, List.length_singleton] at hlen
    omega

theorem harmful_failure_violates (hi : Inv task address d c u s)
    (hs : step task s .fail = some s') (hc : ¬ FailureHarmless s .fail)
    (hun : ∀ id ∈ s.launched, ¬ Listed s.head.registry d (s.key id)) :
    ∃ as t, Runs.exec (step task) as s' = some t ∧ ¬ AtMostOnce d t := by
  simp only [FailureHarmless, not_forall] at hc
  obtain ⟨k, x, hk, hx, hl, hc⟩ := hc
  have hne : s.attempt ≠ .ended := by simp [hk]
  have hs : raise task s = some s' := by simpa only [step, hk] using hs
  by_cases hlast : s.failures+1 = numAttempts ∨ s.worker.stopped
  · have hreg : s.worker.firstPid x.replicaId ≠ none := fun h => hc ⟨h, hlast⟩
    obtain ⟨as, v, t, hv, hr, hend, hlt, hwt, hgt⟩ := raise_ends (hi.asked hne)
    obtain rfl := Option.some.inj (hs.symm.trans hv)
    refine ⟨as, t, hr, fun h => hun _ hl ?_⟩
    have hlist := h.listed hend x.replicaId (hlt ▸ hl) (hwt ▸ hreg)
    rw [State.key, hwt, hgt] at hlist
    exact hlist
  · obtain ⟨hnot, hup⟩ := not_or.mp hlast
    have hlt : s.failures+1 < numAttempts := by
      have h := hi.failures hne
      omega
    obtain ⟨v, t, hv, ht, hbad⟩ := relaunched hi hne (Bool.eq_false_iff.mpr hup) hlt hl
    obtain rfl := Option.some.inj (hs.symm.trans hv)
    exact ⟨[.reach (some 0)], t, Runs.exec_cons.mpr ⟨t, ht, rfl⟩, hbad⟩

theorem start_inv {head : HeadController.State} {worker : Scheduler.State}
    (hw : Scheduler.Inv worker) (hk : HeadController.RequestsKnown head)
    (hask : head.creations[task]? = some (.requesting address d c u)) :
    Inv task address d c u (start head worker) :=
  ⟨hw, hk, fun _ => hask, fun _ => Nat.succ_pos 2, Or.inl rfl⟩

end

/-- In every run whose failing attempts are harmless the call creates at most
once; a harmful one can be continued to a second launch or an unlisted
replica. -/
theorem harmless_failures_create_once (deployments : Dict ℕ DeploymentHandle)
    (bs : List HeadController.Act) (head : HeadController.State)
    (hb : Runs.exec HeadController.step bs (HeadController.initial deployments) = some head)
    (workerId : ℕ) (nodeAddress : String) (ws : List Scheduler.Act) (worker : Scheduler.State)
    (hw : Runs.exec Scheduler.step ws (Scheduler.initial workerId nodeAddress) = some worker)
    (task : ℕ) (address : String) (d c u : ℕ)
    (hask : head.creations[task]? = some (.requesting address d c u))
    (as : List Act) (s : State) (hr : Runs.exec (step task) as (start head worker) = some s)
    (hc : Runs.Along (step task) FailureHarmless as (start head worker)) :
    AtMostOnce d s ∧ ∀ s', step task s .fail = some s' → ¬ FailureHarmless s .fail →
      (∀ id ∈ s.launched, ¬ Listed s.head.registry d (s.key id)) →
      ∃ as' t, Runs.exec (step task) as' s' = some t ∧ ¬ AtMostOnce d t := by
  have hi := Runs.exec_invariant_along step_inv
    (start_inv (Scheduler.reachable_inv hw) (HeadController.reachable_known hb) hask) hc hr
  exact ⟨hi.clean.atMostOnce, fun s' hs hn hun => harmful_failure_violates hi hs hn hun⟩

def asking : List HeadController.Act :=
  [.registerNode sampleNode, .takeQueued, .spawnCreation, .request 0]

def lostOnce : List Act :=
  [.lose, .reach (some 7001), .worker (.registerReplica 0), .worker (.resume 0), .answer 5]

theorem harmless_failures_create_once_sample : ∃ head s,
    Runs.exec HeadController.step asking (HeadController.initial sampleDeployments) = some head ∧
    Runs.exec (step 0) lostOnce (start head (Scheduler.initial 1 "10.0.0.1")) = some s ∧
    AtMostOnce 2 s := by
  refine ⟨_, _, rfl, rfl, (harmless_failures_create_once sampleDeployments asking _ rfl 1
    "10.0.0.1" [] _ rfl 0 _ 2 0 0 rfl lostOnce _ rfl ?_).1⟩
  iterate 4 refine (Runs.along_cons rfl).mpr ⟨trivial, ?_⟩
  exact (Runs.along_cons rfl).mpr ⟨trivial, trivial⟩

def replyLost : List Act :=
  [.reach (some 7001), .worker (.registerReplica 0), .fail, .reach (some 7002),
    .worker (.registerReplica 1), .worker (.resume 1), .answer 5]

/-- Two replicas run for one call, and the head never lists the first. -/
theorem lost_reply_launches_twice : ∃ head s,
    Runs.exec HeadController.step asking (HeadController.initial sampleDeployments) = some head ∧
    Runs.exec (step 0) replyLost (start head (Scheduler.initial 1 "10.0.0.1")) = some s ∧
    s.attempt = .ended ∧ s.launched = [1, 2] ∧ s.worker.firstPid 1 = some 7001 ∧
    ¬ Listed s.head.registry 2 (s.key 1) ∧ ¬ AtMostOnce 2 s := by
  refine ⟨_, _, rfl, rfl, rfl, rfl, rfl, ?_, fun h => absurd h.once (by decide)⟩
  decide +kernel

end ServingSystem.RetriedCreation
