import ServingSystem.GenerateStream

/-!
# The queue between the engine and the replica's answer

`ReplicaServer::SendRequest` starts `generate_stream` on the event loop and
reads the queue that its callback fills. The items of one call and the loop
step in any order; a reply may be refused by the transport, which ends the
loop.
-/

set_option autoImplicit false

namespace ServingSystem.ClosedQueue
open Proxy Proxy.HttpSession TokenPipeline ReplicaManager

/-- The loop of `SendRequest` between two of its calls: `returned` after the
queue gave nothing, `stopped` after a refused reply. -/
inductive Server where
  | getting
  | writing (item : Bytes)
  | returned
  | stopped
  deriving DecidableEq, Repr

structure State where
  pending : List (Option (List Char))
  queue : ThreadSafeQueue
  server : Server
  replies : List ReplicaReply

inductive Act where
  | put
  | get
  | write (accepted : Bool)
  deriving DecidableEq, Repr

def formatted (prompt : List Char) : List Char :=
  "<|user|>\n".toList ++ prompt ++ "<|end|>\n<|assistant|>\n".toList

def cppPut (queue : ThreadSafeQueue) : Option (List Char) → ThreadSafeQueue
  | none => queue.close
  | some text => queue.put (utf8 text)

def step (s : State) : Act → Option State
  | .put =>
    match s.pending with
    | item::pending => some { s with pending := pending, queue := cppPut s.queue item }
    | [] => none
  | .get =>
    match s.server, s.queue.get with
    | .getting, some (some item, queue) => some { s with queue := queue, server := .writing item }
    | .getting, some (none, queue) => some { s with queue := queue, server := .returned }
    | _, _ => none
  | .write accepted =>
    match s.server with
    | .writing item =>
      if accepted then
        some { s with server := .getting, replies := s.replies ++ [reply item] }
      else some { s with server := .stopped }
    | _ => none

def start (items : List (Option (List Char))) : State := ⟨items, ⟨[], false⟩, .getting, []⟩

/-- The sentinel is put once and last, no run is longer than the items allow,
and a run that cannot be continued has closed the queue and, unless a reply
was refused, has answered with every text and reached the end. -/
structure QueueClosed (items : List (Option (List Char))) : Prop where
  sentinel : ∃ texts : List (List Char), items = texts.map some ++ [none]
  bounded : ∀ as s, Runs.exec step as (start items) = some s → as.length ≤ 4*items.length+1
  ends : ∀ as s, Runs.exec step as (start items) = some s → (∀ a, step s a = none) →
    s.queue.closed = true ∧ (s.server ≠ .stopped → s.server = .returned ∧
      s.replies = (items.filterMap id).map (fun text => reply (utf8 text)))

def Server.held : Server → List Bytes
  | .writing item => [item]
  | _ => []

structure Inv (texts : List (List Char)) (s : State) : Prop where
  flow : s.server ≠ .stopped → s.replies ++ (s.server.held ++ s.queue.items ++
    (s.pending.filterMap id).map utf8).map reply = texts.map (fun text => reply (utf8 text))
  pending : (s.queue.closed = false ∧ ∃ rest : List (List Char),
    s.pending = rest.map some ++ [none]) ∨ (s.queue.closed = true ∧ s.pending = [])
  returned : s.server = .returned → s.queue.closed = true ∧ s.queue.items = []

theorem filterMap_texts (texts : List (List Char)) :
    (texts.map some ++ [none]).filterMap id = texts := by
  simp [List.filterMap_append, List.filterMap_map]

theorem start_inv (texts : List (List Char)) : Inv texts (start (texts.map some ++ [none])) where
  flow _ := by
    show ([] ++ [] ++ ((texts.map some ++ [none]).filterMap id).map utf8).map reply = _
    rw [filterMap_texts, List.nil_append, List.nil_append, List.map_map]
    rfl
  pending := Or.inl ⟨rfl, texts, rfl⟩
  returned h := by cases h

theorem step_put {s s' : State} (hs : step s .put = some s') : ∃ item pending,
    s.pending = item::pending ∧
      s' = { s with pending := pending, queue := cppPut s.queue item } := by
  simp only [step] at hs
  split at hs
  next item pending hp => exact ⟨item, pending, hp, (Option.some.inj hs).symm⟩
  · cases hs

theorem step_get {s s' : State} (hs : step s .get = some s') : s.server = .getting ∧
    ((∃ item q, s.queue.items = item::q.items ∧ q.closed = s.queue.closed ∧
        s' = { s with queue := q, server := .writing item }) ∨
      (s.queue.items = [] ∧ s.queue.closed = true ∧ s' = { s with server := .returned })) := by
  simp only [step] at hs
  split at hs
  next item q hg hq =>
    obtain ⟨hitems, hclosed⟩ := get_item hq
    exact ⟨hg, Or.inl ⟨item, q, hitems, hclosed, (Option.some.inj hs).symm⟩⟩
  next q hg hq =>
    obtain ⟨rfl, hitems, hclosed⟩ := get_end hq
    exact ⟨hg, Or.inr ⟨hitems, hclosed, (Option.some.inj hs).symm⟩⟩
  · cases hs

theorem step_write {s s' : State} {accepted : Bool} (hs : step s (.write accepted) = some s') :
    ∃ item, s.server = .writing item ∧ s' = if accepted then
      { s with server := .getting, replies := s.replies ++ [reply item] }
      else { s with server := .stopped } := by
  simp only [step] at hs
  split at hs
  next item hw =>
    refine ⟨item, hw, ?_⟩
    cases accepted with
    | true => exact (Option.some.inj hs).symm
    | false => exact (Option.some.inj hs).symm
  · cases hs

theorem put_inv {texts : List (List Char)} {s s' : State} (hi : Inv texts s)
    (hs : step s .put = some s') : Inv texts s' := by
  obtain ⟨item, pending, hp, rfl⟩ := step_put hs
  rcases hi.pending with ⟨hc, rest, hr⟩ | ⟨-, hnil⟩
  · have hnr : s.server ≠ .returned := fun h => by simp [(hi.returned h).1] at hc
    have hf := hi.flow
    rw [hp] at hr
    cases rest with
    | nil =>
      obtain ⟨rfl, rfl⟩ := List.cons.inj hr
      rw [hp] at hf
      exact ⟨hf, Or.inr ⟨rfl, rfl⟩, fun h => absurd h hnr⟩
    | cons text rest =>
      obtain ⟨rfl, rfl⟩ := List.cons.inj hr
      refine ⟨fun h => ?_, Or.inl ⟨hc, rest, rfl⟩, fun h => absurd h hnr⟩
      rw [← hf h, hp]
      simp [cppPut, ThreadSafeQueue.put]
  · rw [hp] at hnil
    cases hnil

theorem get_inv {texts : List (List Char)} {s s' : State} (hi : Inv texts s)
    (hs : step s .get = some s') : Inv texts s' := by
  obtain ⟨hg, ⟨item, q, hitems, hclosed, rfl⟩ | ⟨hitems, hclosed, rfl⟩⟩ := step_get hs
  · have hf := hi.flow (by simp [hg])
    rw [hg, hitems] at hf
    exact ⟨fun _ => hf, hclosed ▸ hi.pending, fun h => by cases h⟩
  · have hf := hi.flow (by simp [hg])
    rw [hg] at hf
    exact ⟨fun _ => hf, hi.pending, fun _ => ⟨hclosed, hitems⟩⟩

theorem write_inv {texts : List (List Char)} {s s' : State} {accepted : Bool} (hi : Inv texts s)
    (hs : step s (.write accepted) = some s') : Inv texts s' := by
  obtain ⟨item, hw, rfl⟩ := step_write hs
  have hf := hi.flow (by simp [hw])
  cases accepted with
  | true =>
    refine ⟨fun _ => ?_, hi.pending, fun h => by cases h⟩
    rw [← hf, hw]
    simp [Server.held]
  | false => exact ⟨fun h => absurd rfl h, hi.pending, fun h => by cases h⟩

theorem step_inv {texts : List (List Char)} (s : State) (a : Act) (s' : State) (hi : Inv texts s)
    (hs : step s a = some s') : Inv texts s' := by
  cases a with
  | put => exact put_inv hi hs
  | get => exact get_inv hi hs
  | write accepted => exact write_inv hi hs

def Server.cost : Server → ℕ
  | .getting => 1
  | .writing _ => 3
  | .returned => 0
  | .stopped => 0

def remaining (s : State) : ℕ :=
  4*s.pending.length+3*s.queue.items.length+s.server.cost

theorem cppPut_length (queue : ThreadSafeQueue) (item : Option (List Char)) :
    (cppPut queue item).items.length ≤ queue.items.length+1 := by
  cases item with
  | none => exact Nat.le_succ _
  | some text => simp [cppPut, ThreadSafeQueue.put]

theorem step_remaining (s : State) (a : Act) (s' : State) (hs : step s a = some s') :
    remaining s' < remaining s := by
  cases a with
  | put =>
    obtain ⟨item, pending, hp, rfl⟩ := step_put hs
    have hl := cppPut_length s.queue item
    simp only [remaining, hp, List.length_cons]
    omega
  | get =>
    obtain ⟨hg, ⟨item, q, hitems, -, rfl⟩ | ⟨-, -, rfl⟩⟩ := step_get hs
    · simp only [remaining, hg, hitems, Server.cost, List.length_cons]
      omega
    · simp only [remaining, hg, Server.cost]
      omega
  | write accepted =>
    obtain ⟨item, hw, rfl⟩ := step_write hs
    cases accepted with
    | true =>
      simp only [remaining, hw, if_true, Server.cost]
      omega
    | false =>
      simp only [remaining, hw, Bool.false_eq_true, if_false, Server.cost]
      omega

theorem Inv.at_rest {texts : List (List Char)} {s : State} (hi : Inv texts s)
    (hrest : ∀ a, step s a = none) : s.queue.closed = true ∧ (s.server ≠ .stopped →
      s.server = .returned ∧ s.replies = texts.map (fun text => reply (utf8 text))) := by
  have hp : s.pending = [] := by
    cases h : s.pending with
    | nil => rfl
    | cons item pending =>
      have hput := hrest .put
      simp [step, h] at hput
  have hc : s.queue.closed = true := by
    rcases hi.pending with ⟨-, rest, hr⟩ | ⟨hc, -⟩
    · rw [hp] at hr
      simp at hr
    · exact hc
  refine ⟨hc, fun hns => ?_⟩
  cases hserver : s.server with
  | stopped => exact absurd hserver hns
  | writing item =>
    have hw := hrest (.write true)
    simp [step, hserver] at hw
  | getting =>
    have hg := hrest .get
    cases hq : s.queue.items with
    | nil => simp [step, hserver, ThreadSafeQueue.get, hq, hc] at hg
    | cons item items => simp [step, hserver, ThreadSafeQueue.get, hq] at hg
  | returned =>
    have hf := hi.flow hns
    rw [hserver, hp, (hi.returned hserver).2] at hf
    refine ⟨rfl, ?_⟩
    simpa [Server.held] using hf

theorem queueClosed_of_sentinel (texts : List (List Char)) :
    QueueClosed (texts.map some ++ [none]) where
  sentinel := ⟨texts, rfl⟩
  bounded as s hr := by
    have hle := Runs.exec_length_le step_remaining hr
    have hstart : remaining (start (texts.map some ++ [none])) =
        4*(texts.map some ++ [none] : List (Option (List Char))).length+1 := rfl
    omega
  ends as s hr hrest := by
    rw [filterMap_texts]
    exact (Runs.exec_invariant step_inv (start_inv texts) hr).at_rest hrest

/-- Without a sentinel the loop waits for ever. -/
theorem unput_waits {as : List Act} {s : State} (hr : Runs.exec step as (start []) = some s) :
    s = start [] := by
  cases as with
  | nil => exact (Option.some.inj hr).symm
  | cons a as =>
    obtain ⟨t, ht, -⟩ := Runs.exec_cons.mp hr
    cases a <;> simp [step, start, ThreadSafeQueue.get] at ht

theorem not_queueClosed_nil : ¬ QueueClosed [] := by
  rintro ⟨⟨texts, h⟩, -, -⟩
  simp at h

/-- The queue of a request is closed, and its loop reaches the end, exactly
when the engine was built and the call of `engine.generate` itself returned. -/
theorem queue_closed_iff (m : Manager) (prompt : List Char) (requestId : String) :
    QueueClosed (produced m (formatted prompt) requestId) ↔
      ∃ engine outputs ending, m.engine = some engine ∧
        engine (formatted prompt) samplingParams requestId = .yields outputs ending := by
  constructor
  · intro hc
    cases he : m.engine with
    | none =>
      rw [produced_unbuilt he] at hc
      exact absurd hc not_queueClosed_nil
    | some engine =>
      cases hg : engine (formatted prompt) samplingParams requestId with
      | raises e =>
        rw [produced_raises he hg] at hc
        exact absurd hc not_queueClosed_nil
      | yields outputs ending => exact ⟨engine, outputs, ending, rfl, hg⟩
  · rintro ⟨engine, outputs, ending, he, hg⟩
    obtain ⟨texts, ht⟩ := produced_yields he hg
    rw [ht]
    exact queueClosed_of_sentinel texts

/-- The constructor goes on without an engine, and the first request is never
answered. -/
theorem unbuilt_engine_never_closes : ∃ m,
    create "/v1/chat/tinyllama" 2 8000 (fun _ => .error (exception "CUDA out of memory")) (.ok ())
      = .ok m ∧
    ¬ QueueClosed (produced m (formatted ['h', 'i']) "request") ∧
    ∀ as s, Runs.exec step as (start (produced m (formatted ['h', 'i']) "request")) = some s →
      s.server = .getting ∧ s.queue.closed = false := by
  refine ⟨_, rfl, ?_, fun as s hr => ?_⟩
  · exact not_queueClosed_nil
  · rw [unput_waits hr]
    exact ⟨rfl, rfl⟩

end ServingSystem.ClosedQueue
