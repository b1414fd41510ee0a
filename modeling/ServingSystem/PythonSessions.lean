import ServingSystem.AsyncLock
import ServingSystem.Runs
import ServingSystem.StreamGenerator

/-!
# The sessions of the Python proxy

Stream generators of any number of requests and the updates of the routing
table, on one event loop. A task is switched only where it waits for the
routing lock or for its stream, or where it has yielded; the text for an
unknown deployment is yielded under the lock. Handles stay in the heap, since
requests keep the handle they found.
-/

set_option autoImplicit false

namespace ServingSystem.PythonProxy.Sessions
open DeploymentHandle StreamGenerator Protos

inductive Task where
  | request (k : ℕ)
  | update (n : ℕ)
  deriving DecidableEq, Repr

/-- `dropped`: the generator was closed, and those below it not yet. -/
inductive Phase where
  | created
  | waiting
  | notFound
  | streaming
  | dropped
  | closed
  | done
  deriving DecidableEq, Repr

/-- `picked` is the handle and the replica whose count the request holds.
`found` and `replies` record the handle as the request found it and what it
has read, and are read by no step. -/
structure Request where
  deploymentName : String
  phase : Phase
  picked : Option (ℕ × String)
  firstTokenReceived : Bool
  yielded : List String
  metrics : List Metric
  found : Option DeploymentHandle
  replies : List ReplicaReply

structure State where
  lock : AsyncLock Task
  heap : List DeploymentHandle
  routingTable : Dict String ℕ
  updates : List (List (ℕ × DeploymentInfoMessage))
  updating : Bool
  requests : List Request

inductive Act where
  | request (deploymentName : String)
  | begin (k : ℕ)
  | receive (update : List (ℕ × DeploymentInfoMessage))
  | next
  | resume (k : ℕ)
  | reply (k : ℕ) (r : ReplicaReply)
  | ends (k : ℕ) (error : Option RpcError)
  | close (k : ℕ)
  | collect (k : ℕ)

def created (deploymentName : String) : Request :=
  ⟨deploymentName, .created, none, false, [], [], none, []⟩

def Request.succeed (r : Request) : Request :=
  { r with
    phase := .done
    metrics := r.metrics ++
      (if r.firstTokenReceived then [.firstTokenLatency r.deploymentName] else []) ++
      [.requestLatency r.deploymentName "success", .requestCount r.deploymentName "success"] }

def Request.fail (r : Request) : Request :=
  { r with
    phase := .done
    yielded := r.yielded ++ [retryText]
    metrics := r.metrics ++
      [.requestLatency r.deploymentName "error", .requestCount r.deploymentName "error"] }

def State.put (s : State) (k : ℕ) (r : Request) : State :=
  { s with requests := s.requests.set k r }

def insertDeployment (out : List DeploymentHandle × Dict String ℕ)
    (entry : ℕ × DeploymentInfoMessage) : List DeploymentHandle × Dict String ℕ :=
  (out.1 ++ [.ofInfo entry.1 entry.2], out.2.set entry.2.deploymentName out.1.length)

def State.applyUpdate (s : State) (update : List (ℕ × DeploymentInfoMessage)) : State :=
  let out := update.foldl insertDeployment (s.heap, Dict.empty)
  { s with heap := out.1, routingTable := out.2, lock := s.lock.release }

def State.lookup (s : State) (deploymentName : String) : Option (ℕ × DeploymentHandle) :=
  (s.routingTable.get deploymentName).bind (fun i => s.heap[i]?.map (fun h => (i, h)))

def Request.attempt (r : Request) (handle : DeploymentHandle) (address replicaId : String) :
    Request :=
  if replicaId = "" ∨ address = "" then r.fail
  else
    match parseReplicaId replicaId with
    | none => r.succeed
    | some _ =>
      if replicaId ∈ handle.replicaCache.keys then { r with phase := .streaming }
      else { r with picked := none }.succeed

def State.serve (s : State) (k : ℕ) (r : Request) : State :=
  match s.lookup r.deploymentName with
  | none => s.put k { r with phase := .notFound, yielded := [notFoundText r.deploymentName] }
  | some (i, handle) =>
    let r := { r with found := some handle }
    let s := { s with lock := s.lock.release }
    match handle.pickNextReplica with
    | (none, _) => s.put k r.fail
    | (some (address, replicaId), counted) =>
      let r := { r with picked := some (i, replicaId) }
      { s with heap := s.heap.set i counted }.put k (r.attempt counted address replicaId)

def State.finish (s : State) (r : Request) : State :=
  match r.picked with
  | some (i, replicaId) => { s with heap := s.heap.modify i (fun h => h.finish replicaId) }
  | none => s

def step (s : State) : Act → Option State
  | .request deploymentName => some { s with requests := s.requests ++ [created deploymentName] }
  | .begin k =>
    match s.requests[k]? with
    | some r =>
      if r.phase = .created then
        let out := s.lock.acquire (.request k)
        if out.1 then some ({ s with lock := out.2 }.serve k r)
        else some ({ s with lock := out.2 }.put k { r with phase := .waiting })
      else none
    | none => none
  | .receive update =>
    if s.updating then none
    else
      let out := s.lock.acquire (.update s.updates.length)
      let s := { s with lock := out.2, updates := s.updates ++ [update] }
      if out.1 then some (s.applyUpdate update) else some { s with updating := true }
  | .next =>
    match s.lock.next with
    | some (.request k, lock) => s.requests[k]?.map (fun r => { s with lock := lock }.serve k r)
    | some (.update n, lock) => s.updates[n]?.map (fun update =>
        { s with lock := lock, updating := false }.applyUpdate update)
    | none => none
  | .resume k =>
    match s.requests[k]? with
    | some r =>
      if r.phase = .notFound then
        some ({ s with lock := s.lock.release }.put k { r with phase := .done })
      else none
    | none => none
  | .reply k reply =>
    match s.requests[k]? with
    | some r =>
      if r.phase = .streaming then
        let r := { r with replies := r.replies ++ [reply] }
        if reply.isError then some ((s.finish r).put k { r with picked := none }.succeed)
        else some (s.put k { r with
          firstTokenReceived := true
          yielded := r.yielded ++ [reply.text] })
      else none
    | none => none
  | .ends k _ =>
    match s.requests[k]? with
    | some r =>
      if r.phase = .streaming then some ((s.finish r).put k { r with picked := none }.succeed)
      else none
    | none => none
  | .close k =>
    match s.requests[k]? with
    | some r =>
      match r.phase with
      | .created => some (s.put k { r with phase := .closed })
      | .waiting => some ({ s with lock := s.lock.cancel (.request k) }.put k
          { r with phase := .closed })
      | .notFound => some ({ s with lock := s.lock.release }.put k { r with phase := .closed })
      | .streaming => some (s.put k { r with phase := .dropped })
      | _ => none
    | none => none
  | .collect k =>
    match s.requests[k]? with
    | some r =>
      if r.phase = .dropped then
        some ((s.finish r).put k { r with picked := none, phase := .closed })
      else none
    | none => none

def initial : State := ⟨.free, [], .empty, [], false, []⟩

inductive Step (s : State) : Act → State → Prop where
  | request (deploymentName : String) : Step s (.request deploymentName)
      { s with requests := s.requests ++ [created deploymentName] }
  | enter (k : ℕ) (r : Request) (lock : AsyncLock Task) (hk : s.requests[k]? = some r)
      (hp : r.phase = .created) (hl : s.lock.acquire (.request k) = (true, lock)) :
      Step s (.begin k) ({ s with lock := lock }.serve k r)
  | wait (k : ℕ) (r : Request) (lock : AsyncLock Task) (hk : s.requests[k]? = some r)
      (hp : r.phase = .created) (hl : s.lock.acquire (.request k) = (false, lock)) :
      Step s (.begin k) ({ s with lock := lock }.put k { r with phase := .waiting })
  | update (update : List (ℕ × DeploymentInfoMessage)) (lock : AsyncLock Task)
      (hu : s.updating = false) (hl : s.lock.acquire (.update s.updates.length) = (true, lock)) :
      Step s (.receive update)
        ({ s with lock := lock, updates := s.updates ++ [update] }.applyUpdate update)
  | hold (update : List (ℕ × DeploymentInfoMessage)) (lock : AsyncLock Task)
      (hu : s.updating = false) (hl : s.lock.acquire (.update s.updates.length) = (false, lock)) :
      Step s (.receive update)
        { s with lock := lock, updates := s.updates ++ [update], updating := true }
  | nextRequest (k : ℕ) (r : Request) (lock : AsyncLock Task)
      (hl : s.lock.next = some (.request k, lock)) (hk : s.requests[k]? = some r) :
      Step s .next ({ s with lock := lock }.serve k r)
  | nextUpdate (n : ℕ) (update : List (ℕ × DeploymentInfoMessage)) (lock : AsyncLock Task)
      (hl : s.lock.next = some (.update n, lock)) (hu : s.updates[n]? = some update) :
      Step s .next ({ s with lock := lock, updating := false }.applyUpdate update)
  | resume (k : ℕ) (r : Request) (hk : s.requests[k]? = some r) (hp : r.phase = .notFound) :
      Step s (.resume k) ({ s with lock := s.lock.release }.put k { r with phase := .done })
  | token (k : ℕ) (r : Request) (reply : ReplicaReply) (hk : s.requests[k]? = some r)
      (hp : r.phase = .streaming) (he : reply.isError = false) :
      Step s (.reply k reply) (s.put k { r with
        replies := r.replies ++ [reply]
        firstTokenReceived := true
        yielded := r.yielded ++ [reply.text] })
  | flagged (k : ℕ) (r : Request) (reply : ReplicaReply) (hk : s.requests[k]? = some r)
      (hp : r.phase = .streaming) (he : reply.isError = true) :
      Step s (.reply k reply) ((s.finish r).put k
        { r with replies := r.replies ++ [reply], picked := none }.succeed)
  | ends (k : ℕ) (r : Request) (error : Option RpcError) (hk : s.requests[k]? = some r)
      (hp : r.phase = .streaming) :
      Step s (.ends k error) ((s.finish r).put k { r with picked := none }.succeed)
  | closeCreated (k : ℕ) (r : Request) (hk : s.requests[k]? = some r) (hp : r.phase = .created) :
      Step s (.close k) (s.put k { r with phase := .closed })
  | closeWaiting (k : ℕ) (r : Request) (hk : s.requests[k]? = some r) (hp : r.phase = .waiting) :
      Step s (.close k) ({ s with lock := s.lock.cancel (.request k) }.put k
        { r with phase := .closed })
  | closeNotFound (k : ℕ) (r : Request) (hk : s.requests[k]? = some r)
      (hp : r.phase = .notFound) :
      Step s (.close k) ({ s with lock := s.lock.release }.put k { r with phase := .closed })
  | closeStreaming (k : ℕ) (r : Request) (hk : s.requests[k]? = some r)
      (hp : r.phase = .streaming) : Step s (.close k) (s.put k { r with phase := .dropped })
  | collect (k : ℕ) (r : Request) (hk : s.requests[k]? = some r) (hp : r.phase = .dropped) :
      Step s (.collect k) ((s.finish r).put k { r with picked := none, phase := .closed })

theorem step_cases {s t : State} {a : Act} (hs : step s a = some t) : Step s a t := by
  cases a with
  | request deploymentName =>
    obtain rfl := Option.some.inj hs
    exact .request deploymentName
  | begin k =>
    simp only [step] at hs
    split at hs
    next r hk =>
      obtain ⟨hp, hs⟩ := Option.ite_none_right_eq_some.mp hs
      rcases hl : s.lock.acquire (.request k) with ⟨taken, lock⟩
      simp only [hl] at hs
      cases taken with
      | true => exact Option.some.inj hs ▸ .enter k r lock hk hp hl
      | false => exact Option.some.inj hs ▸ .wait k r lock hk hp hl
    next => cases hs
  | receive update =>
    obtain ⟨hu, hs⟩ := Option.ite_none_left_eq_some.mp hs
    rw [Bool.not_eq_true] at hu
    rcases hl : s.lock.acquire (.update s.updates.length) with ⟨taken, lock⟩
    simp only [hl] at hs
    cases taken with
    | true => exact Option.some.inj hs ▸ .update update lock hu hl
    | false => exact Option.some.inj hs ▸ .hold update lock hu hl
  | next =>
    simp only [step] at hs
    split at hs
    next k lock hl =>
      obtain ⟨r, hk, rfl⟩ := Option.map_eq_some_iff.mp hs
      exact .nextRequest k r lock hl hk
    next n lock hl =>
      obtain ⟨update, hu, rfl⟩ := Option.map_eq_some_iff.mp hs
      exact .nextUpdate n update lock hl hu
    next => cases hs
  | resume k =>
    simp only [step] at hs
    split at hs
    next r hk =>
      obtain ⟨hp, hs⟩ := Option.ite_none_right_eq_some.mp hs
      exact Option.some.inj hs ▸ .resume k r hk hp
    next => cases hs
  | reply k reply =>
    simp only [step] at hs
    split at hs
    next r hk =>
      obtain ⟨hp, hs⟩ := Option.ite_none_right_eq_some.mp hs
      cases he : reply.isError with
      | true =>
        simp only [he, if_true] at hs
        exact Option.some.inj hs ▸ .flagged k r reply hk hp he
      | false =>
        simp only [he, Bool.false_eq_true, if_false] at hs
        exact Option.some.inj hs ▸ .token k r reply hk hp he
    next => cases hs
  | ends k error =>
    simp only [step] at hs
    split at hs
    next r hk =>
      obtain ⟨hp, hs⟩ := Option.ite_none_right_eq_some.mp hs
      exact Option.some.inj hs ▸ .ends k r error hk hp
    next => cases hs
  | close k =>
    simp only [step] at hs
    split at hs
    next r hk =>
      split at hs
      next hp => exact Option.some.inj hs ▸ .closeCreated k r hk hp
      next hp => exact Option.some.inj hs ▸ .closeWaiting k r hk hp
      next hp => exact Option.some.inj hs ▸ .closeNotFound k r hk hp
      next hp => exact Option.some.inj hs ▸ .closeStreaming k r hk hp
      next => cases hs
    next => cases hs
  | collect k =>
    simp only [step] at hs
    split at hs
    next r hk =>
      obtain ⟨hp, hs⟩ := Option.ite_none_right_eq_some.mp hs
      exact Option.some.inj hs ▸ .collect k r hk hp
    next => cases hs

theorem serve_cases (s : State) (k : ℕ) (r : Request) :
    (s.lookup r.deploymentName = none ∧ s.serve k r =
      s.put k { r with phase := .notFound, yielded := [notFoundText r.deploymentName] }) ∨
    ∃ i h, s.lookup r.deploymentName = some (i, h) ∧
      ((h.pickNextReplica.1 = none ∧ s.serve k r = { s with lock := s.lock.release }.put k
        { r with found := some h }.fail) ∨
      ∃ address id, h.pickNextReplica.1 = some (address, id) ∧ s.serve k r =
        { s with lock := s.lock.release, heap := s.heap.set i h.pickNextReplica.2 }.put k
          ({ r with found := some h, picked := some (i, id) }.attempt h.pickNextReplica.2
            address id)) := by
  unfold State.serve
  rcases hl : s.lookup r.deploymentName with _ | ⟨i, h⟩
  · exact Or.inl ⟨rfl, rfl⟩
  · refine Or.inr ⟨i, h, rfl, ?_⟩
    rcases hp : h.pickNextReplica with ⟨_ | ⟨address, id⟩, counted⟩
    · exact Or.inl ⟨rfl, by simp only [hp]⟩
    · exact Or.inr ⟨address, id, rfl, by simp only [hp]⟩

/-- An id and an address with which no stream is opened. -/
def Malformed (address replicaId : String) : Prop :=
  (replicaId = "" ∨ address = "") ∨ parseReplicaId replicaId = none

theorem attempt_cases (r : Request) {handle : DeploymentHandle} {address id : String}
    (hkey : id ∈ handle.replicaCache.keys) :
    ((id = "" ∨ address = "") ∧ r.attempt handle address id = r.fail) ∨
    (¬ (id = "" ∨ address = "") ∧ parseReplicaId id = none ∧
      r.attempt handle address id = r.succeed) ∨
    (¬ Malformed address id ∧ r.attempt handle address id = { r with phase := .streaming }) := by
  unfold Request.attempt
  by_cases hbad : id = "" ∨ address = ""
  · exact Or.inl ⟨hbad, if_pos hbad⟩
  · rw [if_neg hbad]
    cases hparse : parseReplicaId id with
    | none => exact Or.inr (Or.inl ⟨hbad, rfl, rfl⟩)
    | some parts =>
      refine Or.inr (Or.inr ⟨fun h => ?_, if_pos hkey⟩)
      rcases h with h | h
      · exact hbad h
      · rw [hparse] at h
        cases h

theorem attempt_phase (r : Request) (handle : DeploymentHandle) (address id : String) :
    (r.attempt handle address id).phase = .done ∨
      (r.attempt handle address id).phase = .streaming := by
  unfold Request.attempt
  split
  · exact Or.inl rfl
  · split
    · exact Or.inl rfl
    · split
      · exact Or.inr rfl
      · exact Or.inl rfl

end ServingSystem.PythonProxy.Sessions
