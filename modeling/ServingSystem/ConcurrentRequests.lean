import ServingSystem.SendRequest
import ServingSystem.Runs

/-!
# Concurrent requests on one handle

Any number of `send_request` calls interleave action by action on the shared
handle. A call picks atomically when it starts; afterwards each step performs
its next action, in the order of its own coroutine. A call has exited when no
action is left.
-/

set_option autoImplicit false

namespace ServingSystem.Proxy.ConcurrentRequests
open DeploymentHandle Positions StateExcept

structure Call where
  picked : Option ReplicaConnection
  rpc : Rpc
  throws : List Action → Bool
  done : List Action
  todo : List Action

structure State where
  handle : DeploymentHandle
  calls : List Call

inductive Act where
  | start (rpc : Rpc) (throws : List Action → Bool) (t : ℤ)
  | resume (call : ℕ) (t : ℤ)

def perform (t : ℤ) : Action → DeploymentHandle → DeploymentHandle
  | .mark id, h => h.markReplicaUnhealthy id t
  | .release i, h => h.releaseReplica i
  | .token _, h => h
  | .error _, h => h

def step (s : State) : Act → Option State
  | .start rpc throws t =>
    let out := s.handle.pickNextReplica t
    some ⟨out.2, s.calls ++ [⟨out.1, rpc, throws, [], callTrace out.1 rpc throws⟩]⟩
  | .resume k t =>
    match s.calls[k]? with
    | none => none
    | some c =>
      match c.todo with
      | [] => none
      | a::rest =>
        some ⟨perform t a s.handle, s.calls.set k { c with done := c.done ++ [a], todo := rest }⟩

def fresh (h : DeploymentHandle) : State := ⟨h, []⟩

def holds (i : ℕ) (c : Call) : Bool :=
  c.picked.map ReplicaConnection.info = some i ∧ c.todo ≠ []

def inFlight (calls : List Call) (i : ℕ) : ℤ := calls.countP (holds i)

def callbacks (l : List Action) : List Action :=
  l.filter (fun a => match a with | .token _ => true | .error _ => true | _ => false)

def releases (l : List Action) : List ℕ :=
  l.filterMap (fun a => match a with | .release i => some i | _ => none)

def marks (l : List Action) : List String :=
  l.filterMap (fun a => match a with | .mark id => some id | _ => none)

/-- The call did not start, or its stream was read to the end and finished
with an error. -/
def Failed (c : Call) : Prop :=
  c.rpc.started = false ∨ (ReadToEnd c.rpc c.throws ∧ c.rpc.status.ok = false)

/-- What the callback of a call gets when it throws at no token. -/
def due (picked : Option ReplicaConnection) (rpc : Rpc) : List Action :=
  match picked with
  | none => [.error ⟨unavailable, "No replicas available"⟩]
  | some _ =>
    if rpc.started then tokens rpc.replies ++ (if rpc.status.ok then [] else [.error rpc.status])
    else [.error rpc.status]

/-- What one call has done to its replica and to its caller. -/
structure Protocol (c : Call) : Prop where
  callbacks_in_order : callbacks c.done <+: due c.picked c.rpc
  callbacks_on_exit : c.todo = [] →
    c.picked = none ∨ c.rpc.started = false ∨ ReadToEnd c.rpc c.throws →
      callbacks c.done = due c.picked c.rpc
  stopped_on_exit : c.todo = [] → c.picked ≠ none → c.rpc.started = true →
    ∀ n, ThrowsAt c.rpc c.throws n → callbacks c.done = tokens (c.rpc.replies.take (n+1))
  release_on_exit : c.todo = [] → releases c.done = (c.picked.map ReplicaConnection.info).toList
  release_only_on_exit : c.todo ≠ [] → releases c.done = []
  marks_on_exit : c.todo = [] → ∀ id, id ∈ marks c.done ↔
    ∃ connection, c.picked = some connection ∧ id = connection.replicaId ∧ Failed c

structure Accounting (s : State) : Prop where
  load : ∀ (i : ℕ) (r : ReplicaInfo), s.handle.replicas[i]? = some r →
    r.activeRequests = inFlight s.calls i
  nonneg : ∀ r ∈ s.handle.replicas, 0 ≤ r.activeRequests
  idle : (∀ c ∈ s.calls, c.todo = []) → ∀ r ∈ s.handle.replicas, r.activeRequests = 0
  picked : ∀ c ∈ s.calls, ∀ connection, c.picked = some connection →
    s.handle.ids[connection.info]? = some connection.replicaId
  protocol : ∀ c ∈ s.calls, Protocol c
  marked : ∀ (k : ℕ) t c a rest, s.calls[k]? = some c → c.todo = a::rest →
    ∃ s', step s (.resume k t) = some s' ∧ ∀ (i : ℕ) r, s.handle.replicas[i]? = some r →
      ∃ r', s'.handle.replicas[i]? = some r' ∧
        if a = .mark r.replicaId then r'.healthStatus = .unhealthy ∧ r'.lastFailureTime = t
        else r'.healthStatus = r.healthStatus ∧ r'.lastFailureTime = r.lastFailureTime

section
variable (rs : List ReplicaReply) (is : List ℕ)

theorem callbacks_append (l m : List Action) :
    callbacks (l ++ m) = callbacks l ++ callbacks m := List.filter_append ..

theorem releases_append (l m : List Action) :
    releases (l ++ m) = releases l ++ releases m := List.filterMap_append ..

theorem marks_append (l m : List Action) : marks (l ++ m) = marks l ++ marks m :=
  List.filterMap_append ..

theorem callbacks_tokens : callbacks (tokens rs) = tokens rs := by simp [callbacks, tokens]

theorem releases_tokens : releases (tokens rs) = [] := by simp [releases, tokens]

theorem releases_releases : releases (is.map .release) = is := by
  simp [releases, List.filterMap_map]

theorem marks_tokens : marks (tokens rs) = [] := by simp [marks, tokens]

theorem marks_releases : marks (is.map .release) = [] := by simp [marks]

end

/-- Callbacks, then the release of whatever was picked, with the mark of a
failed call among them. -/
theorem callTrace_shape (picked : Option ReplicaConnection) (rpc : Rpc)
    (throws : List Action → Bool) :
    ∃ body, callTrace picked rpc throws =
        body ++ (picked.map ReplicaConnection.info).toList.map .release ∧ releases body = [] ∧
      ∀ id, id ∈ marks body ↔ ∃ c, picked = some c ∧ id = c.replicaId ∧
        (rpc.started = false ∨ (ReadToEnd rpc throws ∧ rpc.status.ok = false)) := by
  rcases callTrace_cases picked rpc throws with ⟨rfl, h⟩ | ⟨c, rfl, h⟩
  · exact ⟨_, by simpa using h, rfl, by simp [marks]⟩
  rcases h with ⟨hs, h⟩ | ⟨hs, n, ht, h⟩ | ⟨hs, hr, hok, h⟩ | ⟨hs, hr, hok, h⟩
  · exact ⟨[.mark c.replicaId, .error rpc.status], by simpa using h, rfl, by simp [marks, hs]⟩
  · have hnot : ¬ ReadToEnd rpc throws := fun hr => hr.not_throwsAt ht
    exact ⟨_, by simpa using h, releases_tokens _, by simp [marks_tokens, hs, hnot]⟩
  · exact ⟨_, by simpa using h, releases_tokens _, by simp [marks_tokens, hs, hok]⟩
  · refine ⟨tokens rpc.replies ++ [.mark c.replicaId, .error rpc.status], by simpa using h, ?_, ?_⟩
    · rw [releases_append, releases_tokens]
      rfl
    · rw [marks_append, marks_tokens]
      simp [marks, hs, hr, hok]

/-- All that is due unless a token callback throws, and then what is due up to
that one. -/
theorem callTrace_callbacks (picked : Option ReplicaConnection) (rpc : Rpc)
    (throws : List Action → Bool) :
    callbacks (callTrace picked rpc throws) = due picked rpc ∨
    ∃ n, picked ≠ none ∧ rpc.started = true ∧ ThrowsAt rpc throws n ∧
      callbacks (callTrace picked rpc throws) = tokens (rpc.replies.take (n+1)) := by
  rcases callTrace_cases picked rpc throws with ⟨rfl, h⟩ | ⟨c, rfl, h⟩
  · exact Or.inl (h ▸ rfl)
  rcases h with ⟨hs, h⟩ | ⟨hs, n, ht, h⟩ | ⟨hs, -, hok, h⟩ | ⟨hs, -, hok, h⟩
  · left
    rw [h, due, hs]
    rfl
  · refine Or.inr ⟨n, nofun, hs, ht, ?_⟩
    rw [h, callbacks_append, callbacks_tokens]
    exact List.append_nil _
  · left
    rw [h, callbacks_append, callbacks_tokens]
    simp [due, hs, hok, callbacks]
  · left
    rw [h, callbacks_append, callbacks_tokens]
    simp [due, hs, hok, callbacks]

/-- A token callback that throws cuts off what follows its reply. -/
theorem tokens_due {c : ReplicaConnection} {rpc : Rpc} (hs : rpc.started = true) (n : ℕ) :
    tokens (rpc.replies.take n) <+: due (some c) rpc := by
  have htake : tokens (rpc.replies.take n) <+: tokens rpc.replies := by
    rw [tokens, tokens, List.map_take]
    exact List.take_prefix n _
  simp only [due, hs, if_true]
  exact htake.trans (List.prefix_append _ _)

theorem callTrace_ne_nil (picked : Option ReplicaConnection) (rpc : Rpc)
    (throws : List Action → Bool) : callTrace picked rpc throws ≠ [] := by
  rcases callTrace_cases picked rpc throws with ⟨-, h⟩ | ⟨c, -, h⟩
  · simp [h]
  · rcases h with ⟨-, h⟩ | ⟨-, n, -, h⟩ | ⟨-, -, -, h⟩ | ⟨-, -, -, h⟩ <;> simp [h]

/-- The release of the picked replica is the last action and the only one. -/
theorem callTrace_release (c : ReplicaConnection) (rpc : Rpc) (throws : List Action → Bool) :
    ∃ pre, callTrace (some c) rpc throws = pre ++ [.release c.info] ∧ releases pre = [] := by
  obtain ⟨body, h, hr, -⟩ := callTrace_shape (some c) rpc throws
  exact ⟨body, h, hr⟩

theorem callTrace_none (rpc : Rpc) (throws : List Action → Bool) :
    callTrace none rpc throws = [.error ⟨unavailable, "No replicas available"⟩] := by
  rcases callTrace_cases none rpc throws with ⟨-, h⟩ | ⟨c, hc, -⟩
  · exact h
  · cases hc

/-- The call's next action is its release exactly when nothing follows it. -/
theorem next_action {picked : Option ReplicaConnection} {rpc : Rpc}
    {throws : List Action → Bool} {done rest : List Action} {a : Action}
    (h : done ++ a::rest = callTrace picked rpc throws) :
    (∃ c, picked = some c ∧ a = .release c.info ∧ rest = []) ∨
      ((∀ i, a ≠ .release i) ∧ (picked = none ∨ rest ≠ [])) := by
  cases picked with
  | none =>
    rw [callTrace_none] at h
    have ha : a ∈ ([.error ⟨unavailable, "No replicas available"⟩] : List Action) := by
      rw [← h]; simp
    exact Or.inr ⟨by simp [List.mem_singleton.mp ha], Or.inl rfl⟩
  | some c =>
    obtain ⟨pre, hp, hr⟩ := callTrace_release c rpc throws
    rcases split_snoc (h.trans hp) with ⟨rfl, -, rfl⟩ | ⟨rest', rfl, rfl⟩
    · exact Or.inl ⟨c, rfl, rfl, rfl⟩
    · refine Or.inr ⟨?_, Or.inr (by simp)⟩
      rintro i rfl
      simp [releases] at hr

theorem protocol_of_trace {c : Call}
    (h : c.done ++ c.todo = callTrace c.picked c.rpc c.throws) : Protocol c := by
  obtain ⟨body, ht, hbody, hids⟩ := callTrace_shape c.picked c.rpc c.throws
  have hcb : callbacks (c.done ++ c.todo) = callbacks (callTrace c.picked c.rpc c.throws) :=
    congrArg callbacks h
  have hrel : releases (c.done ++ c.todo) = (c.picked.map ReplicaConnection.info).toList := by
    rw [h, ht, releases_append, hbody, releases_releases, List.nil_append]
  have hmark : marks (c.done ++ c.todo) = marks body := by
    rw [h, ht, marks_append, marks_releases, List.append_nil]
  have hgot := callTrace_callbacks c.picked c.rpc c.throws
  refine ⟨?_, fun hx hend => ?_, fun hx hp hs n hn => ?_, fun hx => by simpa [hx] using hrel,
    fun hx => ?_, fun hx id => ?_⟩
  · have hdone : callbacks c.done <+: callbacks (callTrace c.picked c.rpc c.throws) := by
      rw [← hcb, callbacks_append]
      exact List.prefix_append _ _
    rcases hgot with he | ⟨n, hp, hs, -, he⟩
    · exact he ▸ hdone
    · obtain ⟨connection, hc⟩ := Option.ne_none_iff_exists'.mp hp
      rw [he] at hdone
      rw [hc]
      exact hdone.trans (tokens_due hs _)
  · rw [hx, List.append_nil] at hcb
    rcases hgot with he | ⟨n, hp, hs, hn, -⟩
    · exact hcb.trans he
    · rcases hend with hnone | hns | hr
      · exact absurd hnone hp
      · rw [hs] at hns
        cases hns
      · exact absurd hn hr.not_throwsAt
  · rw [hx, List.append_nil] at hcb
    rcases callTrace_cases c.picked c.rpc c.throws with ⟨hnone, -⟩ | ⟨connection, -, htr⟩
    · exact absurd hnone hp
    rcases htr with ⟨hns, -⟩ | ⟨-, m, hm, htr⟩ | ⟨-, hr, -⟩ | ⟨-, hr, -⟩
    · rw [hs] at hns
      cases hns
    · obtain rfl := hn.unique hm
      rw [hcb, htr, callbacks_append, callbacks_tokens]
      exact List.append_nil _
    · exact absurd hn hr.not_throwsAt
    · exact absurd hn hr.not_throwsAt
  · obtain ⟨a, rest, hrest⟩ := List.exists_cons_of_ne_nil hx
    rw [hrest] at h
    cases hpick : c.picked with
    | none =>
      rw [releases_append, hpick] at hrel
      exact (List.append_eq_nil_iff.mp hrel).1
    | some conn =>
      obtain ⟨pre, hpre, hr⟩ := callTrace_release conn c.rpc c.throws
      rw [hpick, hpre] at h
      rcases split_snoc h with ⟨-, hd, -⟩ | ⟨rest', -, rfl⟩
      · exact hd ▸ hr
      · rw [releases_append] at hr
        exact (List.append_eq_nil_iff.mp hr).1
  · rw [hx, List.append_nil] at hmark
    rw [hmark]
    exact hids id

structure Inv (ids : List String) (s : State) : Prop where
  ids_eq : s.handle.ids = ids
  load : ∀ (i : ℕ) (r : ReplicaInfo), s.handle.replicas[i]? = some r →
    r.activeRequests = inFlight s.calls i
  picked : ∀ c ∈ s.calls, ∀ connection, c.picked = some connection →
    ids[connection.info]? = some connection.replicaId
  trace : ∀ c ∈ s.calls, c.done ++ c.todo = callTrace c.picked c.rpc c.throws

theorem fresh_inv (info : Protos.DeploymentInfoMessage) :
    Inv (info.replicas.map Protos.ReplicaInfo.replicaId) (fresh (ofInfo info)) where
  ids_eq := ofInfo_ids info
  load i r hr := by
    simp only [fresh, ofInfo_replicas, List.getElem?_map, Option.map_eq_some_iff] at hr
    obtain ⟨p, -, rfl⟩ := hr
    rfl
  picked := by simp [fresh]
  trace := by simp [fresh]

theorem start_inv {ids : List String} {s : State} (rpc : Rpc) (throws : List Action → Bool)
    (t : ℤ) (hi : Inv ids s) :
    Inv ids ⟨(s.handle.pickNextReplica t).2, s.calls ++ [⟨(s.handle.pickNextReplica t).1, rpc,
      throws, [], callTrace (s.handle.pickNextReplica t).1 rpc throws⟩]⟩ where
  ids_eq := (pick_ids _ _).trans hi.ids_eq
  load i r' hr' := by
    rw [pick_getElem?, Option.map_eq_some_iff] at hr'
    obtain ⟨r, hr, rfl⟩ := hr'
    simp only [inFlight, List.countP_append, List.countP_singleton, holds, callTrace_ne_nil,
      Nat.cast_add, ne_eq, not_false_eq_true, and_true, decide_eq_true_eq]
    have hl := hi.load i r hr
    simp only [inFlight] at hl
    split <;> simp [acquire, hl]
  picked c hc connection hp := by
    rcases List.mem_append.mp hc with hc | hc
    · exact hi.picked c hc connection hp
    · obtain rfl := List.mem_singleton.mp hc
      obtain ⟨r, hr, hid, -⟩ := pick_eq_some hp
      rw [← hi.ids_eq, DeploymentHandle.ids, List.getElem?_map, hr.at_index, hid]
      rfl
  trace c hc := by
    rcases List.mem_append.mp hc with hc | hc
    · exact hi.trace c hc
    · obtain rfl := List.mem_singleton.mp hc
      rfl

theorem perform_ids (t : ℤ) (a : Action) (h : DeploymentHandle) :
    (perform t a h).ids = h.ids := by
  cases a <;> simp [perform]

theorem perform_load {h : DeploymentHandle} (hn : h.ids.Nodup) (t : ℤ) (a : Action) (i : ℕ) :
    (perform t a h).replicas[i]?.map ReplicaInfo.activeRequests =
      h.replicas[i]?.map (fun r => r.activeRequests-(if a = .release i then 1 else 0)) := by
  cases a with
  | token text => simp [perform]
  | error status => simp [perform]
  | mark id =>
    simp only [perform, mark_getElem? h hn, Option.map_map, reduceCtorEq, if_false, sub_zero]
    congr 1
    funext r
    simp only [Function.comp_def]
    split <;> rfl
  | release j =>
    simp only [perform, release_getElem?, Option.map_map, Action.release.injEq]
    congr 1
    funext r
    simp only [Function.comp_def]
    split <;> simp [release]

theorem resume_inv {ids : List String} (hn : ids.Nodup) {s : State} {k : ℕ} {c : Call}
    {a : Action} {rest : List Action} (hc : s.calls[k]? = some c) (ht : c.todo = a::rest)
    (t : ℤ) (hi : Inv ids s) :
    Inv ids ⟨perform t a s.handle,
      s.calls.set k { c with done := c.done ++ [a], todo := rest }⟩ := by
  have htr : c.done ++ a::rest = callTrace c.picked c.rpc c.throws :=
    ht ▸ hi.trace c (List.mem_of_getElem? hc)
  refine ⟨(perform_ids _ _ _).trans hi.ids_eq, fun i r' hr' => ?_, fun d hd => ?_,
    fun d hd => ?_⟩
  · have hl := perform_load (hi.ids_eq ▸ hn) t a i
    rw [hr', Option.map_some, eq_comm, Option.map_eq_some_iff] at hl
    obtain ⟨r, hr, hl⟩ := hl
    rw [← hl, hi.load i r hr, inFlight, inFlight, countP_set _ hc]
    have hold : (if holds i c then 1 else 0 : ℤ) =
        (if a = .release i then 1 else 0)+(if holds i
          { c with done := c.done ++ [a], todo := rest } then 1 else 0) := by
      rcases next_action htr with ⟨conn, hp, rfl, rfl⟩ | ⟨ha, hp | hp⟩
      · simp [holds, hp, ht]
      · simp [holds, hp, ha]
      · simp [holds, hp, ha, ht]
    omega
  · rcases mem_set hd with rfl | hd
    · exact hi.picked c (List.mem_of_getElem? hc)
    · exact hi.picked d hd
  · rcases mem_set hd with rfl | hd
    · simpa using htr
    · exact hi.trace d hd

theorem step_inv {ids : List String} (hn : ids.Nodup) (s : State) (a : Act) (s' : State)
    (hi : Inv ids s) (hs : step s a = some s') : Inv ids s' := by
  cases a with
  | start rpc throws t =>
    obtain rfl := Option.some.inj hs
    exact start_inv rpc throws t hi
  | resume k t =>
    simp only [step] at hs
    split at hs
    · cases hs
    next c hc =>
      split at hs
      · cases hs
      next a rest ht =>
        obtain rfl := Option.some.inj hs
        exact resume_inv hn hc ht t hi

theorem perform_health {h : DeploymentHandle} (hn : h.ids.Nodup) (t : ℤ) (a : Action) {i : ℕ}
    {r : ReplicaInfo} (hr : h.replicas[i]? = some r) :
    ∃ r', (perform t a h).replicas[i]? = some r' ∧
      if a = .mark r.replicaId then r'.healthStatus = .unhealthy ∧ r'.lastFailureTime = t
      else r'.healthStatus = r.healthStatus ∧ r'.lastFailureTime = r.lastFailureTime := by
  cases a with
  | token text => exact ⟨r, hr, by simp⟩
  | error status => exact ⟨r, hr, by simp⟩
  | mark id =>
    refine ⟨_, (mark_getElem? h hn id t i).trans (congrArg _ hr), ?_⟩
    by_cases hid : r.replicaId = id
    · simp [hid, fail]
    · simp [hid, Ne.symm hid]
  | release j =>
    refine ⟨_, (release_getElem? h j i).trans (congrArg _ hr), ?_⟩
    simp only [reduceCtorEq, if_false]
    split <;> exact ⟨rfl, rfl⟩

theorem Inv.accounting {ids : List String} (hn : ids.Nodup) {s : State} (hi : Inv ids s) :
    Accounting s where
  load := hi.load
  nonneg r hr := by
    obtain ⟨i, hr⟩ := List.getElem?_of_mem hr
    rw [hi.load i r hr]
    exact Int.natCast_nonneg _
  idle h r hr := by
    obtain ⟨i, hr⟩ := List.getElem?_of_mem hr
    rw [hi.load i r hr, inFlight, Int.natCast_eq_zero, List.countP_eq_zero]
    intro c hc
    simp [holds, h c hc]
  picked c hc connection hp := hi.ids_eq ▸ hi.picked c hc connection hp
  protocol c hc := protocol_of_trace (hi.trace c hc)
  marked k t c a rest hc ht := by
    refine ⟨⟨perform t a s.handle,
      s.calls.set k { c with done := c.done ++ [a], todo := rest }⟩, ?_, fun i r hr =>
        perform_health (hi.ids_eq ▸ hn) t a hr⟩
    simp only [step, hc, ht]

/-- In every state any interleaving of calls reaches from a fresh handle,
loads count the calls in flight and every call keeps its protocol. -/
theorem requests_accounted (info : Protos.DeploymentInfoMessage)
    (hn : (info.replicas.map Protos.ReplicaInfo.replicaId).Nodup) (as : List Act) (s : State)
    (hr : Runs.exec step as (fresh (ofInfo info)) = some s) : Accounting s :=
  (Runs.exec_invariant (step_inv hn) (fresh_inv info) hr).accounting hn

/-- Two calls on two replicas, one of which does not start; both exit. -/
theorem requests_accounted_sample : ∃ s,
    Runs.exec step [.start ⟨true, [⟨[104, 105], false⟩], ⟨0, ""⟩⟩ (fun _ => false) 0,
      .start ⟨false, [], ⟨unavailable, ""⟩⟩ (fun _ => false) 1, .resume 0 2, .resume 1 3,
      .resume 1 4, .resume 0 5, .resume 1 6]
      (fresh (ofInfo sampleInfo)) = some s ∧ Accounting s :=
  ⟨_, rfl, requests_accounted sampleInfo (by decide)
    [.start ⟨true, [⟨[104, 105], false⟩], ⟨0, ""⟩⟩ (fun _ => false) 0,
      .start ⟨false, [], ⟨unavailable, ""⟩⟩ (fun _ => false) 1, .resume 0 2, .resume 1 3,
      .resume 1 4, .resume 0 5, .resume 1 6] _ rfl⟩

end ServingSystem.Proxy.ConcurrentRequests
