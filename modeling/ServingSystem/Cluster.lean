import ServingSystem.HeadSteps
import ServingSystem.HealthReports
import ServingSystem.RetriedCreation
import ServingSystem.WorkerRegistry

/-!
# The head and its workers

The head with every scheduler it talks to. A scheduler registers, once or
more; the head asks it for a replica, and `try_send_with_retries` asks again
when an attempt raises; a request may arrive at any time after it was sent, or
never; the answer of an attempt counts while no later one has been made.
Health reports arrive late, again or not at all. All other handlers of the
head and of the workers run in between. `registrations` records the workers
whose registrations were handled and is read by no step.
-/

set_option autoImplicit false

namespace ServingSystem.Cluster
open Protos (HealthStatusUpdate RegisterRequest Resource)
open Head DeploymentManager CommandLine
open RetriedCreation (numAttempts)

/-- An attempt of a task: its request, and the worker and the handler that it
reached. -/
structure Attempt where
  task : ℕ
  address : String
  deploymentId : ℕ
  deploymentName : String
  handler : Option (ℕ × ℕ)
  deriving DecidableEq, Repr

structure State where
  head : HeadController.State
  workers : List Scheduler.State
  attempts : List Attempt
  reports : List HealthStatusUpdate
  registrations : List ℕ

def identity (w : Scheduler.State) : ℕ × String := (w.workerId, w.nodeAddress)

def registerRequest (w : Scheduler.State) (resource : Resource) : RegisterRequest :=
  ⟨w.workerId, w.nodeAddress, toString nodePort, resource⟩

def healthStatusUpdate (w : Scheduler.State) : HealthStatusUpdate :=
  ⟨w.workerId, w.nodeAddress, w.replicaRegistry.entries.map (fun e =>
    ⟨e.1, e.2.deploymentId, e.2.status⟩)⟩

def endpoint (address : String) : String := address ++ ":" ++ toString nodePort

inductive Act where
  | register (worker : ℕ) (resource : Resource)
  | attempt (task : ℕ)
  | arrive (attempt worker : ℕ) (launch : Option ℕ)
  | answer (attempt timestampNs : ℕ)
  | giveUp (task : ℕ)
  | report (worker : ℕ)
  | deliver (report timestampNs : ℕ)
  | worker (worker : ℕ) (a : Scheduler.Act)
  | head (a : HeadController.Act)

def State.tries (s : State) (task : ℕ) : ℕ := s.attempts.countP (fun a => a.task = task)

/-- No later attempt of the task has been made. -/
def State.current (s : State) (n task : ℕ) : Bool :=
  (s.attempts.drop (n+1)).all (fun a => a.task ≠ task)

def register (j : ℕ) (resource : Resource) (s : State) : Option State :=
  s.workers[j]?.map (fun w => { s with
    head := HeadController.registerNode (registerRequest w resource) s.head
    registrations := s.registrations ++ [j] })

def attempt (task : ℕ) (s : State) : Option State :=
  match s.head.creations[task]? with
  | some (.requesting address d _ _) =>
    if s.tries task < numAttempts then
      (s.head.registry.deployments.get d).map (fun dep => { s with
        attempts := s.attempts ++ [⟨task, address, d, dep.deploymentName, none⟩] })
    else none
  | _ => none

def arrive (n j : ℕ) (launch : Option ℕ) (s : State) : Option State :=
  s.attempts[n]?.bind (fun a => s.workers[j]?.bind (fun w =>
    if a.handler = none ∧ a.address = endpoint w.nodeAddress then
      (Scheduler.step w (.createReplica a.deploymentName a.deploymentId launch)).map (fun w' =>
        { s with
          workers := s.workers.set j w'
          attempts := s.attempts.set n { a with handler := some (j, w.calls.length) } })
    else none))

def reply (s : State) (h : ℕ × ℕ) : Option Protos.ReplicaCreationReply :=
  s.workers[h.1]?.bind (fun w => w.calls[h.2]?.bind (fun c =>
    match c.progress with
    | .returned reply => some reply
    | _ => none))

def answer (n t : ℕ) (s : State) : Option State :=
  s.attempts[n]?.bind (fun a => (a.handler.bind (reply s)).bind (fun response =>
    if s.current n a.task then
      (HeadController.step s.head (.reply a.task response t)).map (fun h => { s with head := h })
    else none))

def giveUp (task : ℕ) (s : State) : Option State :=
  if s.tries task = numAttempts then
    (HeadController.step s.head (.failed task)).map (fun h => { s with head := h })
  else none

def deliver (i t : ℕ) (s : State) : Option State :=
  s.reports[i]?.bind (fun r =>
    (HeadController.step s.head (.sendHealthStatus r t)).map (fun h => { s with head := h }))

def creates : Scheduler.Act → Bool
  | .createReplica _ _ _ => true
  | _ => false

def step (s : State) : Act → Option State
  | .register j resource => register j resource s
  | .attempt task => attempt task s
  | .arrive n j launch => arrive n j launch s
  | .answer n t => answer n t s
  | .giveUp task => giveUp task s
  | .report j => s.workers[j]?.map (fun w => { s with
      reports := s.reports ++ [healthStatusUpdate w] })
  | .deliver i t => deliver i t s
  | .worker j a =>
    if creates a then none
    else s.workers[j]?.bind (fun w => (Scheduler.step w a).map (fun w' => { s with
      workers := s.workers.set j w' }))
  | .head a =>
    if HeadController.internal a then
      (HeadController.step s.head a).map (fun h => { s with head := h })
    else none

def initial (deployments : Dict ℕ DeploymentHandle) (nodes : List (ℕ × String)) : State :=
  ⟨HeadController.initial deployments, nodes.map (fun n => Scheduler.initial n.1 n.2), [], [], []⟩

theorem attempt_step {s s' : State} {task : ℕ} (hs : attempt task s = some s') :
    ∃ address d c u dep, s.head.creations[task]? = some (.requesting address d c u) ∧
      s.tries task < numAttempts ∧ s.head.registry.deployments.get d = some dep ∧
      s' = { s with attempts := s.attempts ++ [⟨task, address, d, dep.deploymentName, none⟩] } := by
  unfold attempt at hs
  split at hs
  next address d c u hk =>
    obtain ⟨ht, hs⟩ := Option.ite_none_right_eq_some.mp hs
    obtain ⟨dep, hd, rfl⟩ := Option.map_eq_some_iff.mp hs
    exact ⟨address, d, c, u, dep, hk, ht, hd, rfl⟩
  next => cases hs

theorem arrive_step {s s' : State} {n j : ℕ} {launch : Option ℕ}
    (hs : arrive n j launch s = some s') : ∃ a w w', s.attempts[n]? = some a ∧
      s.workers[j]? = some w ∧ a.handler = none ∧ a.address = endpoint w.nodeAddress ∧
      Scheduler.step w (.createReplica a.deploymentName a.deploymentId launch) = some w' ∧
      s' = { s with
        workers := s.workers.set j w'
        attempts := s.attempts.set n { a with handler := some (j, w.calls.length) } } := by
  obtain ⟨a, ha, hs⟩ := Option.bind_eq_some_iff.mp hs
  obtain ⟨w, hw, hs⟩ := Option.bind_eq_some_iff.mp hs
  obtain ⟨⟨hn, haddr⟩, hs⟩ := Option.ite_none_right_eq_some.mp hs
  obtain ⟨w', hw', rfl⟩ := Option.map_eq_some_iff.mp hs
  exact ⟨a, w, w', ha, hw, hn, haddr, hw', rfl⟩

theorem answer_step {s s' : State} {n t : ℕ} (hs : answer n t s = some s') :
    ∃ a j i w c response h, s.attempts[n]? = some a ∧ a.handler = some (j, i) ∧
      s.workers[j]? = some w ∧ w.calls[i]? = some c ∧ c.progress = .returned response ∧
      HeadController.step s.head (.reply a.task response t) = some h ∧
      s' = { s with head := h } := by
  obtain ⟨a, ha, hs⟩ := Option.bind_eq_some_iff.mp hs
  obtain ⟨response, hr, hs⟩ := Option.bind_eq_some_iff.mp hs
  obtain ⟨⟨j, i⟩, hh, hr⟩ := Option.bind_eq_some_iff.mp hr
  obtain ⟨w, hw, hr⟩ := Option.bind_eq_some_iff.mp hr
  obtain ⟨c, hc, hr⟩ := Option.bind_eq_some_iff.mp hr
  obtain ⟨-, hs⟩ := Option.ite_none_right_eq_some.mp hs
  obtain ⟨h, hstep, rfl⟩ := Option.map_eq_some_iff.mp hs
  refine ⟨a, j, i, w, c, response, h, ha, hh, hw, hc, ?_, hstep, rfl⟩
  split at hr
  next r hp => rw [hp, Option.some.inj hr]
  next => cases hr

theorem deliver_step {s s' : State} {i t : ℕ} (hs : deliver i t s = some s') :
    ∃ r h, s.reports[i]? = some r ∧
      HeadController.step s.head (.sendHealthStatus r t) = some h ∧ s' = { s with head := h } := by
  obtain ⟨r, hr, hs⟩ := Option.bind_eq_some_iff.mp hs
  obtain ⟨h, hstep, rfl⟩ := Option.map_eq_some_iff.mp hs
  exact ⟨r, h, hr, hstep, rfl⟩

end ServingSystem.Cluster
