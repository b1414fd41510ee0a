import ServingSystem.RoutingLock
import ServingSystem.SessionCounts

/-!
# The outcomes of the Python proxy's requests

Each request yields and records what `stream_generator` does on its own, in
whatever order the requests and updates take their steps, and nobody waits for
the routing lock for ever if the clients read.
-/

set_option autoImplicit false

namespace ServingSystem.PythonProxy.Sessions
open DeploymentHandle StreamGenerator StateExcept Protos Positions

def tokens (replies : List ReplicaReply) : List String :=
  (replies.takeWhile (fun r => !r.isError)).map ReplicaReply.text

def failed (deploymentName : String) : List String × List Metric :=
  ([retryText], [.requestLatency deploymentName "error", .requestCount deploymentName "error"])

def succeeded (deploymentName : String) (texts : List String) : List String × List Metric :=
  (texts, (if texts = [] then [] else [.firstTokenLatency deploymentName]) ++
    [.requestLatency deploymentName "success", .requestCount deploymentName "success"])

def read (s : StreamGenerator.State) (texts : List String) : StreamGenerator.State :=
  { s with
    firstTokenReceived := s.firstTokenReceived || !texts.isEmpty
    yielded := s.yielded ++ texts }

theorem readStream_final (actualReplicaId workerId : String) (error : Option RpcError)
    (replies : List ReplicaReply) (s : StreamGenerator.State) :
    finalState (readStream actualReplicaId workerId error onToken replies s) =
      read s (tokens replies) := by
  induction replies generalizing s with
  | nil => cases error <;> simp [readStream, read, tokens, finalState, pure_apply, throw_apply]
  | cons r rest ih =>
    by_cases hr : r.isError = true
    · rw [readStream, if_pos hr]
      simp [read, tokens, hr, finalState, throw_apply]
    · have htoken : onToken r.text s = .ok () (read s [r.text]) := by
        simp [onToken, emit, read, modify_bind, modify_apply]
      rw [readStream, if_neg hr, bind_ok htoken, ih]
      simp [read, tokens, hr]

theorem finalState_rethrow {α : Type} (x : Py α) (f : Exn → Exn) (s : StreamGenerator.State) :
    finalState (tryCatch x (fun e => throw (f e)) s) = finalState (x s) := by
  cases h : x s with
  | ok a t => rw [tryCatch_ok h]
  | error e t =>
    rw [tryCatch_error h]
    rfl

theorem swallowed (x : Py Unit) (s : StreamGenerator.State) :
    tryCatch x (fun _ => pure ()) s = .ok () (finalState (x s)) := by
  cases h : x s with
  | ok a t => rw [tryCatch_ok h]; rfl
  | error e t => rw [tryCatch_error h]; rfl

theorem attemptStreaming_final (stream : ReplicaStream) {address id : String}
    {s : StreamGenerator.State} (hgood : ¬ (id = "" ∨ address = ""))
    (hkey : id ∈ s.handle.replicaCache.keys) :
    ∃ h, finalState (attemptStreaming stream onToken id address s) =
      { read s (if parseReplicaId id = none then [] else tokens stream.replies) with
        handle := h } := by
  rw [attemptStreaming, if_neg hgood]
  cases hparse : parseReplicaId id with
  | none => exact ⟨s.handle, by simp [read, finalState, throw_apply]⟩
  | some parts =>
    refine ⟨s.handle.finish id, ?_⟩
    simp only [finalState_finallyDo, finalState_rethrow, get_bind, if_pos hkey, readStream_final,
      modify_apply, reduceCtorEq, if_false]
    rfl

theorem recordSuccess_eq (deploymentName : String) (s : StreamGenerator.State) :
    recordSuccess deploymentName s = .ok () { s with metrics := s.metrics ++
      (if s.firstTokenReceived then [.firstTokenLatency deploymentName] else []) ++
      [.requestLatency deploymentName "success", .requestCount deploymentName "success"] } := by
  obtain ⟨handle, first, yielded, metrics⟩ := s
  cases first <;>
    simp [recordSuccess, observe, get_bind, modify_apply]

/-- What the generator yields and records, run alone. -/
theorem streamGenerator_eq {table : Dict String DeploymentHandle} {deploymentName : String}
    {h : DeploymentHandle} (hk : table.get deploymentName = some h) (stream : ReplicaStream) :
    (h.pickNextReplica.1 = none →
      streamGenerator table deploymentName stream = failed deploymentName) ∧
    ∀ address id, h.pickNextReplica.1 = some (address, id) →
      streamGenerator table deploymentName stream =
        if id = "" ∨ address = "" then failed deploymentName
        else succeeded deploymentName
          (if parseReplicaId id = none then [] else tokens stream.replies) := by
  have hfail : ∀ e t, sendRequest stream onToken (start h) = .error e t → t.yielded = [] →
      t.metrics = [] → streamGenerator table deploymentName stream = failed deploymentName := by
    intro e t hs hy hm
    have hforward : forward deploymentName stream (start h) = recordError deploymentName t :=
      tryCatch_error (bind_error hs)
    simp [streamGenerator, hk, hforward, recordError, observe, emit, modify_bind, modify_apply,
      finalState, failed, hy, hm]
  constructor
  · intro hp
    obtain ⟨e, he⟩ := pick_none (s := start h) hp
    exact hfail e _ (bind_error he) rfl rfl
  · intro address id hp
    obtain ⟨handle, hrun, hkey⟩ := pick_some (s := start h) hp
    by_cases hgood : id = "" ∨ address = ""
    · rw [if_pos hgood]
      refine hfail (.exception "No valid replicas found") { start h with handle := handle } ?_ rfl
        rfl
      rw [sendRequest, bind_ok hrun]
      have hbad : ¬ (id ≠ "" ∧ address ≠ "") := by
        rintro ⟨hi, ha⟩
        exact hgood.elim hi ha
      exact congrFun (if_neg hbad) _
    · rw [if_neg hgood]
      have hne : id ≠ "" ∧ address ≠ "" := not_or.mp hgood
      have hsend : sendRequest stream onToken (start h) =
          .ok () (finalState (attemptStreaming stream onToken id address
            { start h with handle := handle })) := by
        rw [sendRequest, bind_ok hrun]
        exact (congrFun (if_pos hne) _).trans (swallowed _ _)
      obtain ⟨g, hg⟩ := attemptStreaming_final stream (s := { start h with handle := handle })
        hgood hkey
      rw [hg] at hsend
      have hforward : forward deploymentName stream (start h) = .ok () _ :=
        tryCatch_ok ((bind_ok hsend).trans (recordSuccess_eq deploymentName _))
      rw [streamGenerator_known hk stream hforward]
      generalize (if parseReplicaId id = none then [] else tokens stream.replies) = texts
      cases texts <;> simp [succeeded, read, start]

def tableOf (r : Request) : Dict String DeploymentHandle :=
  match r.found with
  | none => .empty
  | some h => Dict.empty.set r.deploymentName h

/-- The request yields and records what it would if it were alone, with the
handle as it found it and the replies it has read. -/
def Request.Alone (r : Request) : Prop := ∃ error,
  (r.yielded, r.metrics) = streamGenerator (tableOf r) r.deploymentName ⟨r.replies, error⟩

/-- The request was given a replica with an id or an address that opens no
stream. -/
def Request.Misdirected (r : Request) : Prop := ∃ h address id, r.found = some h ∧
  h.pickNextReplica.1 = some (address, id) ∧ Malformed address id

structure Request.Open (r : Request) (h : DeploymentHandle) (address id : String) : Prop where
  found : r.found = some h
  pick : h.pickNextReplica.1 = some (address, id)
  wellFormed : ¬ Malformed address id
  unflagged : ∀ reply ∈ r.replies, reply.isError = false
  yielded : r.yielded = r.replies.map ReplicaReply.text
  first : r.firstTokenReceived = !r.yielded.isEmpty
  metrics : r.metrics = []

def Request.Ok (r : Request) : Prop :=
  match r.phase with
  | .created => r = created r.deploymentName
  | .waiting => r = { created r.deploymentName with phase := .waiting }
  | .notFound => r = { created r.deploymentName with
      phase := .notFound, yielded := [notFoundText r.deploymentName] }
  | .streaming => ∃ h address id, r.Open h address id
  | .dropped => True
  | .closed => r.picked = none
  | .done => r.Alone ∧ (r.picked ≠ none → r.Misdirected)

section
variable {r : Request} {h : DeploymentHandle} {address id : String}

theorem tableOf_get (hf : r.found = some h) : (tableOf r).get r.deploymentName = some h := by
  rw [tableOf, hf]
  exact Dict.get_set_self _ _ _

theorem tokens_unflagged {replies rest : List ReplicaReply}
    (hu : ∀ reply ∈ replies, reply.isError = false)
    (hr : rest = [] ∨ ∃ reply, rest = [reply] ∧ reply.isError = true) :
    tokens (replies ++ rest) = replies.map ReplicaReply.text := by
  rw [tokens, List.takeWhile_append_of_pos (fun x hx => by simp [hu x hx])]
  rcases hr with rfl | ⟨reply, rfl, he⟩
  · simp
  · simp [he]

theorem Request.Open.succeed_ok (ho : r.Open h address id) {rest : List ReplicaReply}
    (hr : rest = [] ∨ ∃ reply, rest = [reply] ∧ reply.isError = true) :
    Request.Ok { r with replies := r.replies ++ rest, picked := none }.succeed := by
  refine ⟨⟨none, ?_⟩, fun hn => absurd rfl hn⟩
  have hparse : parseReplicaId id ≠ none := fun hn => ho.wellFormed (Or.inr hn)
  have hgood : ¬ (id = "" ∨ address = "") := fun hb => ho.wellFormed (Or.inl hb)
  have halone := (streamGenerator_eq (tableOf_get ho.found)
    ⟨r.replies ++ rest, none⟩).2 address id ho.pick
  refine Eq.trans ?_ halone.symm
  rw [if_neg hgood, if_neg hparse, tokens_unflagged ho.unflagged hr, ← ho.yielded]
  simp only [Request.succeed, succeeded, ho.first, ho.metrics, List.nil_append]
  cases r.yielded <;> rfl

theorem put_ok {s : State} {k : ℕ} (hs : ∀ x ∈ s.requests, x.Ok) (hr : r.Ok) :
    ∀ x ∈ (s.put k r).requests, x.Ok := by
  intro x hx
  rcases mem_set hx with rfl | hx
  · exact hr
  · exact hs x hx

theorem serve_ok {s : State} {k : ℕ} (hs : ∀ x ∈ s.requests, x.Ok) {p : Phase}
    (hr : r = { created r.deploymentName with phase := p }) :
    ∀ x ∈ (s.serve k r).requests, x.Ok := by
  rcases serve_cases s k r with ⟨-, he⟩ | ⟨i, h, -, ⟨hp, he⟩ | ⟨address, id, hp, he⟩⟩
  · rw [he, hr]
    exact put_ok hs rfl
  · rw [he]
    refine put_ok hs ⟨⟨none, ?_⟩, fun hn => absurd ?_ hn⟩
    · rw [hr]
      exact ((streamGenerator_eq (Dict.get_set_self _ _ _) _).1 hp).symm
    · rw [hr]
      rfl
  · rw [he]
    refine put_ok hs ?_
    rw [hr]
    have halone := fun stream => (streamGenerator_eq
      (Dict.get_set_self Dict.empty r.deploymentName h) stream).2 address id hp
    rcases attempt_cases { created r.deploymentName with
        phase := p, found := some h, picked := some (i, id) } (pick_spec hp).1 with
      ⟨hbad, ha⟩ | ⟨hgood, hparse, ha⟩ | ⟨hwell, ha⟩
    · rw [ha]
      refine ⟨⟨none, ((halone _).trans (if_pos hbad)).symm⟩, fun _ => ?_⟩
      exact ⟨h, address, id, rfl, hp, Or.inl hbad⟩
    · rw [ha]
      refine ⟨⟨none, ?_⟩, fun _ => ⟨h, address, id, rfl, hp, Or.inr hparse⟩⟩
      exact ((halone _).trans ((if_neg hgood).trans (by rw [if_pos hparse]; rfl))).symm
    · rw [ha]
      exact ⟨h, address, id, rfl, hp, hwell, fun _ h => (nomatch h), rfl, rfl, rfl⟩

end

structure Inv (s : State) : Prop where
  lock : s.LockOk
  counted : Counted s
  requests : ∀ r ∈ s.requests, r.Ok
  current : Current s.heap s.routingTable s.applied

section
variable {s t : State}

theorem Inv.finish_current (hi : Inv s) (r : Request) :
    Current (s.finish r).heap s.routingTable s.applied := by
  refine hi.current.keep (fun i h hh => ?_)
  unfold State.finish
  split
  next =>
    refine ⟨_, List.getElem?_modify .. |>.trans (congrArg _ hh), ?_⟩
    split
    · exact finish_built h _
    · exact ⟨rfl, rfl⟩
  next => exact ⟨h, hh, rfl, rfl⟩

theorem lookup_heap {name : String} {i : ℕ} {h : DeploymentHandle}
    (hl : s.lookup name = some (i, h)) :
    s.routingTable.get name = some i ∧ s.heap[i]? = some h := by
  obtain ⟨j, hj, hl⟩ := Option.bind_eq_some_iff.mp hl
  obtain ⟨g, hg, he⟩ := Option.map_eq_some_iff.mp hl
  obtain ⟨rfl, rfl⟩ := Prod.mk.inj he
  exact ⟨hj, hg⟩

theorem Inv.serve (hi : Inv s) {k : ℕ} {r : Request} {lock : AsyncLock Task}
    (hk : s.requests[k]? = some r) {p : Phase}
    (hr : r = { created r.deploymentName with phase := p })
    (hlock : ({ s with lock := lock }.serve k r).LockOk) :
    Inv ({ s with lock := lock }.serve k r) := by
  have hnone : r.picked = none := by
    rw [hr]
    rfl
  refine ⟨hlock, ?_, serve_ok (s := { s with lock := lock }) hi.requests hr, ?_⟩
  · rcases serve_cases { s with lock := lock } k r with
      ⟨-, he⟩ | ⟨i, h, hl, ⟨-, he⟩ | ⟨address, id, hp, he⟩⟩
    · rw [he]
      exact hi.counted.keep rfl rfl hk rfl
    · rw [he]
      exact hi.counted.keep rfl rfl hk rfl
    · rw [he]
      refine hi.counted.picked hk hnone (lookup_heap hl).2 hp ?_ rfl rfl
      have hpicked : ∀ (x : Request) h a, (x.attempt h a id).picked = x.picked ∨
          id ∉ h.replicaCache.keys := by
        intro x h a
        unfold Request.attempt
        split
        · exact Or.inl rfl
        · split
          · exact Or.inl rfl
          · split
            · exact Or.inl rfl
            · exact Or.inr ‹_›
      exact (hpicked _ _ _).resolve_right (fun hn => hn (pick_spec hp).1)
  · rcases serve_cases { s with lock := lock } k r with
      ⟨-, he⟩ | ⟨i, h, hl, ⟨-, he⟩ | ⟨address, id, hp, he⟩⟩
    · rw [he]
      exact hi.current
    · rw [he]
      exact hi.current
    · rw [he]
      refine hi.current.keep (fun j g hg => ?_)
      obtain ⟨-, hh⟩ := lookup_heap hl
      by_cases hij : i = j
      · subst hij
        obtain rfl := Option.some.inj (hh.symm.trans hg)
        obtain ⟨-, -, -, hid, hreplicas⟩ := pick_spec hp
        exact ⟨_, List.getElem?_set_self (List.getElem?_eq_some_iff.mp hg).1, hid, hreplicas⟩
      · exact ⟨g, (List.getElem?_set_ne hij).trans hg, rfl, rfl⟩

theorem Inv.put (hi : Inv s) {k : ℕ} {r r' : Request} {lock : AsyncLock Task}
    (hk : s.requests[k]? = some r) (hlock : ({ s with lock := lock }.put k r').LockOk)
    (hp : r'.picked = r.picked) (hok : r.Ok → r'.Ok) : Inv ({ s with lock := lock }.put k r') :=
  ⟨hlock, hi.counted.keep rfl rfl hk hp,
    put_ok hi.requests (hok (hi.requests r (List.mem_of_getElem? hk))), hi.current⟩

theorem Inv.finish (hi : Inv s) {k : ℕ} {r r' : Request} (hk : s.requests[k]? = some r)
    (hlock : ((s.finish r).put k r').LockOk) (hp : r'.picked = none) (hok : r.Ok → r'.Ok) :
    Inv ((s.finish r).put k r') := by
  obtain ⟨-, hreq, hupdates, hupdating, htable⟩ := finish_keeps s r
  refine ⟨hlock, hi.counted.finish hk hp, put_ok (hreq ▸ hi.requests)
    (hok (hi.requests r (List.mem_of_getElem? hk))), ?_⟩
  have happ : ((s.finish r).put k r').applied = s.applied := by
    simp only [State.applied, State.put, hupdates, hupdating]
  rw [happ]
  change Current (s.finish r).heap (s.finish r).routingTable _
  rw [htable]
  exact hi.finish_current r

theorem Inv.applyUpdate {u : State} (hi : Inv s) (update : List (ℕ × DeploymentInfoMessage))
    (hlock : (u.applyUpdate update).LockOk) (hheap : u.heap = s.heap)
    (hreq : u.requests = s.requests) (happ : (u.applyUpdate update).applied = update) :
    Inv (u.applyUpdate update) := by
  refine ⟨hlock, ?_, fun r hr => hi.requests r (hreq ▸ hr), ?_⟩
  · refine hi.counted.appended update hreq ?_
    rw [← hheap]
    exact insert_heap u.heap update
  · rw [happ]
    exact insert_current u.heap update

theorem step_inv (s : State) (a : Act) (t : State) (hi : Inv s) (hs : step s a = some t) :
    Inv t := by
  have hlock := step_lockOk s a t hi.lock hs
  cases step_cases hs with
  | request deploymentName =>
    refine ⟨hlock, hi.counted.created deploymentName, fun r hr => ?_, hi.current⟩
    rcases List.mem_append.mp hr with hr | hr
    · exact hi.requests r hr
    · rw [List.mem_singleton.mp hr]
      rfl
  | enter k r lock hk hp hl =>
    have hok := hi.requests r (List.mem_of_getElem? hk)
    rw [Request.Ok, hp] at hok
    exact hi.serve hk hok hlock
  | wait k r lock hk hp hl =>
    refine hi.put hk hlock rfl (fun hok => ?_)
    rw [Request.Ok, hp] at hok
    rw [hok]
    rfl
  | update update lock hu hl =>
    refine hi.applyUpdate update hlock rfl rfl ?_
    simp [State.applied, State.applyUpdate, hu]
  | hold update lock hu hl =>
    refine ⟨hlock, ⟨hi.counted.counts, hi.counted.keys⟩, hi.requests, ?_⟩
    have happ : State.applied { s with
        lock := lock, updates := s.updates ++ [update], updating := true } = s.applied := by
      simp [State.applied, hu]
    rw [happ]
    exact hi.current
  | nextRequest k r lock hl hk =>
    have hwait : .request k ∈ s.lock.waiters := by
      obtain ⟨-, waiters, hw, -⟩ := AsyncLock.next_eq_some hl
      rw [hw]
      exact List.mem_cons_self
    have hphase := (hi.lock.waiting k).mp hwait
    rw [phases_get hk] at hphase
    have hok := hi.requests r (List.mem_of_getElem? hk)
    rw [Request.Ok, Option.some.inj hphase] at hok
    exact hi.serve hk hok hlock
  | nextUpdate n update lock hl hu =>
    have hwait : .update n ∈ s.lock.waiters := by
      obtain ⟨-, waiters, hw, -⟩ := AsyncLock.next_eq_some hl
      rw [hw]
      exact List.mem_cons_self
    have hn := ((hi.lock.updating n).mp hwait).2
    refine hi.applyUpdate update hlock rfl rfl ?_
    have hlast : s.updates.getLast? = some update := by
      rw [List.getLast?_eq_getElem?, ← hn, Nat.add_sub_cancel, hu]
    simp [State.applied, State.applyUpdate, hlast]
  | resume k r hk hp =>
    refine hi.put hk hlock rfl (fun hok => ?_)
    rw [Request.Ok, hp] at hok
    rw [hok]
    exact ⟨⟨none, rfl⟩, fun hn => absurd rfl hn⟩
  | token k r reply hk hp he =>
    refine hi.put hk hlock rfl (fun hok => ?_)
    rw [Request.Ok, hp] at hok
    obtain ⟨h, address, id, ho⟩ := hok
    simp only [Request.Ok, hp]
    refine ⟨h, address, id, ho.found, ho.pick, ho.wellFormed, fun x hx => ?_, ?_, ?_, ho.metrics⟩
    · rcases List.mem_append.mp hx with hx | hx
      · exact ho.unflagged x hx
      · rw [List.mem_singleton.mp hx, he]
    · simp [ho.yielded]
    · simp
  | flagged k r reply hk hp he =>
    refine hi.finish hk hlock rfl (fun hok => ?_)
    rw [Request.Ok, hp] at hok
    obtain ⟨h, address, id, ho⟩ := hok
    exact ho.succeed_ok (Or.inr ⟨reply, rfl, he⟩)
  | ends k r error hk hp =>
    refine hi.finish hk hlock rfl (fun hok => ?_)
    rw [Request.Ok, hp] at hok
    obtain ⟨h, address, id, ho⟩ := hok
    have hsucceed := ho.succeed_ok (Or.inl rfl)
    rwa [List.append_nil] at hsucceed
  | closeCreated k r hk hp =>
    refine hi.put hk hlock rfl (fun hok => ?_)
    rw [Request.Ok, hp] at hok
    rw [hok]
    rfl
  | closeWaiting k r hk hp =>
    refine hi.put hk hlock rfl (fun hok => ?_)
    rw [Request.Ok, hp] at hok
    rw [hok]
    rfl
  | closeNotFound k r hk hp =>
    refine hi.put hk hlock rfl (fun hok => ?_)
    rw [Request.Ok, hp] at hok
    rw [hok]
    rfl
  | closeStreaming k r hk hp => exact hi.put hk hlock rfl (fun _ => trivial)
  | collect k r hk hp => exact hi.finish hk hlock rfl (fun _ => rfl)

theorem initial_inv : Inv initial where
  lock := initial_lockOk
  counted := ⟨fun _ _ h => (nomatch h), fun _ h => (nomatch h)⟩
  requests := fun _ h => (nomatch h)
  current := ⟨fun _ _ _ h => (nomatch h), fun _ _ h => (nomatch h)⟩

theorem reachable_inv {as : List Act} (hr : Runs.exec step as initial = some s) : Inv s :=
  Runs.exec_invariant step_inv initial_inv hr

theorem Inv.next_waiter (hi : Inv s) (hl : s.lock.locked = false) {w : Task}
    {waiters : List Task} (hw : s.lock.waiters = w::waiters) :
    ∃ t, step s .next = some t ∧ t.lock.waiters = waiters := by
  have hnext : s.lock.next = some (w, { s.lock with
      locked := true, waiters, served := s.lock.served ++ [w] }) := by
    simp [AsyncLock.next, hl, hw]
  have hmem : w ∈ s.lock.waiters := hw ▸ List.mem_cons_self
  cases w with
  | request k =>
    have hphase := (hi.lock.waiting k).mp hmem
    rw [State.phases, List.getElem?_map] at hphase
    obtain ⟨r, hk, -⟩ := Option.map_eq_some_iff.mp hphase
    refine ⟨_, by simp only [step, hnext, hk]; rfl, ?_⟩
    obtain ⟨p, -, -, -, ⟨-, h⟩ | ⟨-, h⟩⟩ := serve_lock { s with lock := _ } k r
    · rw [h]
    · rw [h]
      rfl
  | update n =>
    have hn := ((hi.lock.updating n).mp hmem).2
    have hlt : n < s.updates.length := by omega
    exact ⟨_, by simp only [step, hnext, List.getElem?_eq_getElem hlt]; rfl, rfl⟩

/-- The request that holds the lock is given its text and lets go. -/
theorem Inv.holder_resumes (hi : Inv s) (hl : s.lock.locked = true) :
    ∃ k t, step s (.resume k) = some t ∧ t.lock = s.lock.release := by
  have hcount := hi.lock.holder
  rw [hl] at hcount
  obtain ⟨p, hp, hnf⟩ := List.countP_pos_iff.mp (hcount.symm ▸ Nat.one_pos :
    0 < s.phases.countP (· = Phase.notFound))
  obtain ⟨r, hr, rfl⟩ := List.mem_map.mp hp
  obtain ⟨k, hk⟩ := List.getElem?_of_mem hr
  have hphase : r.phase = .notFound := by simpa using hnf
  exact ⟨k, _, by simp only [step, hk, hphase, if_true]; rfl, rfl⟩

def Unhindered (as : List Act) : Prop := ∀ a ∈ as, a = .next ∨ ∃ k, a = .resume k

theorem Inv.unlocks (hi : Inv s) : ∃ as t, Unhindered as ∧ as.length ≤ 1 ∧
    Runs.exec step as s = some t ∧ t.lock.waiters = s.lock.waiters ∧ t.lock.locked = false := by
  cases hl : s.lock.locked with
  | false => exact ⟨[], s, fun _ h => (nomatch h), Nat.zero_le _, rfl, rfl, hl⟩
  | true =>
    obtain ⟨k, t, hs, ht⟩ := hi.holder_resumes hl
    refine ⟨[.resume k], t, fun a ha => Or.inr ⟨k, List.mem_singleton.mp ha⟩, Nat.le_refl _,
      Runs.exec_cons.mpr ⟨t, hs, rfl⟩, ?_, ?_⟩
    · rw [ht]
      rfl
    · rw [ht]
      rfl

theorem Inv.drains (hi : Inv s) : ∃ as t, Unhindered as ∧
    as.length ≤ 2*s.lock.waiters.length+1 ∧ Runs.exec step as s = some t ∧
    t.lock.waiters = [] ∧ t.lock.locked = false := by
  obtain ⟨waiters, hw⟩ : ∃ waiters, s.lock.waiters = waiters := ⟨_, rfl⟩
  induction waiters generalizing s with
  | nil =>
    obtain ⟨as, t, hu, hlen, hr, hwt, hl⟩ := hi.unlocks
    exact ⟨as, t, hu, by omega, hr, hwt.trans hw, hl⟩
  | cons w waiters ih =>
    obtain ⟨as, t, hu, hlen, hr, hwt, hl⟩ := hi.unlocks
    have hit : Inv t := Runs.exec_invariant step_inv hi hr
    obtain ⟨u, hs, hwu⟩ := hit.next_waiter hl (hwt.trans hw)
    obtain ⟨bs, v, hv, hlenb, hrb, hdone⟩ := ih (step_inv t .next u hit hs) hwu
    refine ⟨as ++ .next::bs, v, fun a ha => ?_, ?_, ?_, hdone⟩
    · rcases List.mem_append.mp ha with ha | ha
      · exact hu a ha
      · rcases List.mem_cons.mp ha with rfl | ha
        · exact Or.inl rfl
        · exact hv a ha
    · rw [hwu] at hlenb
      rw [hw, List.length_append, List.length_cons, List.length_cons]
      omega
    · rw [Runs.exec_append, hr]
      exact Runs.exec_cons.mpr ⟨u, hs, hrb⟩

end

/-- A request yields and records what it would alone; the count of a replica
is the number of requests that hold it, and one that is over holds it only if
it was misdirected. -/
structure Sound (s : State) : Prop where
  alone : ∀ r ∈ s.requests, r.phase = .done → r.Alone
  counts : ∀ (i : ℕ) h, s.heap[i]? = some h →
    ∀ id, h.count id = s.requests.countP (holds i id)
  returned : ∀ r ∈ s.requests, r.phase = .done ∨ r.phase = .closed → r.picked ≠ none →
    r.Misdirected
  current : Current s.heap s.routingTable s.applied

theorem requests_as_alone (as : List Act) (s : State)
    (hr : Runs.exec step as initial = some s) : Sound s := by
  have hi := reachable_inv hr
  refine ⟨fun r hm hp => ?_, hi.counted.counts, fun r hm hp hn => ?_, hi.current⟩
  · have hok := hi.requests r hm
    rw [Request.Ok, hp] at hok
    exact hok.1
  · have hok := hi.requests r hm
    rcases hp with hp | hp
    · rw [Request.Ok, hp] at hok
      exact hok.2 hn
    · rw [Request.Ok, hp] at hok
      exact absurd hok hn

/-- Only a client that has not taken its text for an unknown deployment holds
the lock between steps; then nobody else gets on. Nobody is overtaken, and the
waiters all get the lock if the clients take their texts. -/
structure Serves (s : State) : Prop where
  holder : s.requests.countP (fun r => r.phase = .notFound) = if s.lock.locked then 1 else 0
  waiting : s.lock.locked = true → ∀ k t, step s (.begin k) = some t →
    ∃ r, t.requests[k]? = some r ∧ r.phase = .waiting
  order : ∀ a b, [a, b].Sublist s.lock.arrived → a ∈ s.lock.waiters → b ∉ s.lock.served
  drains : ∃ as t, Unhindered as ∧ as.length ≤ 2*s.lock.waiters.length+1 ∧
    Runs.exec step as s = some t ∧ t.lock.waiters = [] ∧ t.lock.locked = false

theorem routing_lock_serves (as : List Act) (s : State)
    (hr : Runs.exec step as initial = some s) : Serves s := by
  have hi := reachable_inv hr
  refine ⟨?_, fun hl k t hs => ?_, fun a b hab ha => hi.lock.inOrder.not_overtaken hab ha,
    hi.drains⟩
  · have hholder := hi.lock.holder
    rwa [State.phases, List.countP_map] at hholder
  · cases step_cases hs with
    | enter k r lock hk hp ha =>
      rcases s.lock.acquire_cases (.request k) with ⟨hfree, -⟩ | ⟨-, h⟩
      · cases hl.symm.trans hfree
      · cases (Prod.mk.inj (ha.symm.trans h)).1
    | wait k r lock hk hp ha =>
      exact ⟨_, List.getElem?_set_self (List.getElem?_eq_some_iff.mp hk).1, rfl⟩

def unread : List Act :=
  [.receive [(1, ⟨1, "/chat", "1", "ACTIVE", [⟨"1#1", "10.0.0.1:50101", "RUNNING"⟩]⟩)],
    .request "/none", .request "/chat", .begin 0, .begin 1, .receive [], .resume 0, .next,
    .reply 1 ⟨"ok", false⟩, .next, .ends 1 none]

theorem requests_as_alone_sample : ∃ s, Runs.exec step unread initial = some s ∧
    s.requests.map (fun r => (r.phase, r.yielded)) =
      [(.done, [notFoundText "/none"]), (.done, ["ok"])] ∧ s.routingTable.keys = [] ∧ Sound s := by
  have h : ((Runs.exec step unread initial).map (fun s => (s.requests.map (fun r =>
      (r.phase, r.yielded)), s.routingTable.keys))) =
      some ([(.done, [notFoundText "/none"]), (.done, ["ok"])], []) := by decide +kernel
  obtain ⟨s, hr, hs⟩ := Option.map_eq_some_iff.mp h
  obtain ⟨hreq, hkeys⟩ := Prod.mk.inj hs
  exact ⟨s, hr, hreq, hkeys, requests_as_alone unread s hr⟩

theorem routing_lock_serves_sample : ∃ s, Runs.exec step (unread.take 6) initial = some s ∧
    s.lock.waiters = [.request 1, .update 1] ∧ Serves s := by
  have h : ((Runs.exec step (unread.take 6) initial).map (fun s => s.lock.waiters)) =
      some [.request 1, .update 1] := by decide +kernel
  obtain ⟨s, hr, hs⟩ := Option.map_eq_some_iff.mp h
  exact ⟨s, hr, hs, routing_lock_serves _ s hr⟩

end ServingSystem.PythonProxy.Sessions
