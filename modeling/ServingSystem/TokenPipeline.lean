import ServingSystem.HttpSession
import ServingSystem.Runs
import Mathlib.Data.List.Infix

/-!
# Token streaming from the engine to the client

One request passes four stages: `generate_stream` cuts each cumulative text
at the position already sent, a queue carries the pieces to the loop of
`ReplicaServer::SendRequest`, its replies cross the RPC in order, and the
session writes each as a chunk. The stages step independently and the socket
takes the bytes in any portions. Every reply is accepted by the transport
and every byte by the socket. The tokens, the replies read and the text
generated are recorded and read by no stage.
-/

set_option autoImplicit false

namespace ServingSystem.TokenPipeline
open ChunkedCoding StateExcept Proxy Proxy.HttpSession

structure ThreadSafeQueue where
  items : List Bytes
  closed : Bool
  deriving DecidableEq, Repr

namespace ThreadSafeQueue

def put (q : ThreadSafeQueue) (val : Bytes) : ThreadSafeQueue :=
  { q with items := q.items ++ [val] }

def close (q : ThreadSafeQueue) : ThreadSafeQueue := { q with closed := true }

def get (q : ThreadSafeQueue) : Option (Option Bytes × ThreadSafeQueue) :=
  match q.items with
  | val::items => some (some val, { q with items := items })
  | [] => if q.closed then some (none, q) else none

end ThreadSafeQueue

inductive Server where
  | getting
  | writing (item : Bytes)
  | returned
  deriving DecidableEq, Repr

/-- The session after its head: waiting for a reply, with the rest of a
chunk to write, with the rest of the terminator to write, or closed. -/
inductive Client where
  | reading
  | writing (rest : Bytes)
  | ending (rest : Bytes)
  | closed
  deriving DecidableEq, Repr

structure State where
  outputs : List (List Char)
  failure : Option (List Char)
  sentPosition : ℕ
  queue : ThreadSafeQueue
  server : Server
  inFlight : List ReplicaReply
  client : Client
  body : Bytes
  tokens : List (List Char)
  replies : List ReplicaReply
  generated : List Char

inductive Act where
  | generate
  | except
  | finish
  | get
  | write
  | read
  | send (bytes : ℕ)
  deriving DecidableEq, Repr

def errorMark : List Char := "[PYTHON ERROR]".toList

def putText (s : State) (text : List Char) : State :=
  { s with queue := s.queue.put (utf8 text), tokens := s.tokens ++ [text] }

def generate (s : State) (currentText : List Char) (outputs : List (List Char)) : State :=
  let newText := currentText.drop s.sentPosition
  if newText ≠ [] then
    { putText s newText with
      outputs := outputs, sentPosition := currentText.length, generated := currentText }
  else { s with outputs := outputs, generated := currentText }

def reply (item : Bytes) : ReplicaReply := ⟨item, decide (utf8 errorMark <:+: item)⟩

def step (s : State) : Act → Option State
  | .generate =>
    match s.outputs with
    | currentText::outputs => some (generate s currentText outputs)
    | [] => none
  | .except =>
    match s.outputs, s.failure with
    | [], some e => some { putText s (errorMark ++ ' '::e) with failure := none }
    | _, _ => none
  | .finish =>
    if s.outputs = [] ∧ s.failure = none ∧ ¬ s.queue.closed then
      some { s with queue := s.queue.close }
    else none
  | .get =>
    match s.server, s.queue.get with
    | .getting, some (some item, queue) => some { s with queue := queue, server := .writing item }
    | .getting, some (none, queue) => some { s with queue := queue, server := .returned }
    | _, _ => none
  | .write =>
    match s.server with
    | .writing item => some { s with server := .getting, inFlight := s.inFlight ++ [reply item] }
    | _ => none
  | .read =>
    match s.client, s.inFlight with
    | .reading, r::inFlight =>
      some { s with
        inFlight := inFlight, client := .writing (chunk r.text), replies := s.replies ++ [r] }
    | .reading, [] =>
      if s.server = .returned then some { s with client := .ending terminator } else none
    | _, _ => none
  | .send n =>
    match s.client with
    | .writing rest =>
      if 0 < n ∧ n ≤ rest.length then
        some { s with
          body := s.body ++ rest.take n
          client := if n = rest.length then .reading else .writing (rest.drop n) }
      else none
    | .ending rest =>
      if 0 < n ∧ n ≤ rest.length then
        some { s with
          body := s.body ++ rest.take n
          client := if n = rest.length then .closed else .ending (rest.drop n) }
      else none
    | _ => none

def initial (outputs : List (List Char)) : State where
  outputs := outputs
  failure := none
  sentPosition := 0
  queue := ⟨[], false⟩
  server := .getting
  inFlight := []
  client := .reading
  body := []
  tokens := []
  replies := []
  generated := []

/-- The texts between the engine and the client, oldest first. -/
def Server.held : Server → List Bytes
  | .writing item => [item]
  | _ => []

def Client.rest : Client → Bytes
  | .reading => []
  | .writing rest => rest
  | .ending rest => rest
  | .closed => []

def Client.Ended : Client → Prop
  | .ending _ => True
  | .closed => True
  | _ => False

instance : DecidablePred Client.Ended
  | .reading => inferInstanceAs (Decidable False)
  | .writing _ => inferInstanceAs (Decidable False)
  | .ending _ => inferInstanceAs (Decidable True)
  | .closed => inferInstanceAs (Decidable True)

def carried (s : State) : List Bytes :=
  (s.replies ++ s.inFlight).map ReplicaReply.text ++ s.server.held ++ s.queue.items

def committed (s : State) : Bytes :=
  (s.replies.map ReplicaReply.text).flatMap chunk ++ (if s.client.Ended then terminator else [])

structure Inv (text : List Char) (s : State) : Prop where
  failure : s.failure = none
  position : s.sentPosition = s.generated.length
  chain : (s.generated::s.outputs).IsChain (· <+: ·)
  last : (s.generated::s.outputs).getLast? = some text
  tokens : s.tokens.flatten = s.generated
  nonempty : ∀ t ∈ s.tokens, t ≠ []
  flow : carried s = s.tokens.map utf8
  body : s.body ++ s.client.rest = committed s
  unfinished : ∀ rest, s.client = .writing rest ∨ s.client = .ending rest → rest ≠ []
  closed : s.queue.closed → s.outputs = []
  returned : s.server = .returned → s.queue.closed ∧ s.queue.items = []
  ended : s.client.Ended → s.server = .returned ∧ s.inFlight = []

theorem utf8_append (a b : List Char) : utf8 (a ++ b) = utf8 a ++ utf8 b := List.flatMap_append ..

theorem utf8_flatten (ts : List (List Char)) : (ts.map utf8).flatten = utf8 ts.flatten := by
  induction ts with
  | nil => rfl
  | cons t ts ih => rw [List.map_cons, List.flatten_cons, ih, List.flatten_cons, utf8_append]

theorem utf8_ne_nil {t : List Char} (h : t ≠ []) : utf8 t ≠ [] := by
  cases t with
  | nil => exact absurd rfl h
  | cons c t =>
    have hc : String.utf8EncodeChar c ≠ [] :=
      List.ne_nil_of_length_pos (by rw [String.length_utf8EncodeChar]; exact Char.utf8Size_pos c)
    simp [utf8, hc]

theorem chunk_ne_nil (data : Bytes) : chunk data ≠ [] := by
  intro h
  simp [chunk, crlf] at h

theorem initial_inv {outputs : List (List Char)} (hc : outputs.IsChain (· <+: ·)) :
    Inv ((outputs.getLast?).getD []) (initial outputs) where
  failure := rfl
  position := rfl
  chain := by
    cases outputs with
    | nil => exact List.IsChain.singleton _
    | cons t ts => exact List.IsChain.cons_cons List.nil_prefix hc
  last := by
    cases outputs with
    | nil => rfl
    | cons t ts => simp [initial, List.getLast?_cons]
  tokens := rfl
  nonempty := by simp [initial]
  flow := rfl
  body := rfl
  unfinished rest h := by simp [initial] at h
  closed h := by simp [initial] at h
  returned h := by simp [initial] at h
  ended h := h.elim

/-- The next cumulative text is what was generated with the new piece. -/
theorem generate_inv {text currentText : List Char} {outputs : List (List Char)} {s : State}
    (hi : Inv text s) (ho : s.outputs = currentText::outputs) :
    Inv text (generate s currentText outputs) := by
  have hch := hi.chain
  have hl := hi.last
  rw [ho] at hch hl
  obtain ⟨⟨newText, hnew⟩, hch⟩ := List.isChain_cons_cons.mp hch
  have hdrop : currentText.drop s.sentPosition = newText := by
    rw [hi.position, ← hnew, List.drop_left]
  have hnc : ¬ s.queue.closed := fun hc => by simp [hi.closed hc] at ho
  have hnr : s.server ≠ .returned := fun hr => hnc (hi.returned hr).1
  unfold generate
  rw [hdrop]
  by_cases h : newText = []
  · subst h
    rw [List.append_nil] at hnew
    simp only [ne_eq, not_true, if_false]
    exact { hi with
      position := hnew ▸ hi.position
      chain := hch
      last := by simpa [List.getLast?_cons_cons] using hl
      tokens := hnew ▸ hi.tokens
      closed := fun hc => absurd hc hnc }
  · simp only [ne_eq, h, not_false_eq_true, if_true]
    exact { hi with
      position := rfl
      chain := hch
      last := by simpa [List.getLast?_cons_cons] using hl
      tokens := by simp [putText, hi.tokens, hnew]
      nonempty := by
        intro t ht
        rcases List.mem_append.mp ht with ht | ht
        · exact hi.nonempty t ht
        · exact List.mem_singleton.mp ht ▸ h
      flow := by
        have hc := hi.flow
        simp only [carried] at hc
        simp only [carried, putText, ThreadSafeQueue.put, List.map_append, List.map_singleton,
          ← hc, List.append_assoc]
      closed := fun hc => absurd hc hnc
      returned := fun hr => absurd hr hnr }

theorem finish_inv {text : List Char} {s : State} (hi : Inv text s) (ho : s.outputs = []) :
    Inv text { s with queue := s.queue.close } :=
  { hi with
    closed := fun _ => ho
    returned := fun hr => ⟨rfl, (hi.returned hr).2⟩ }

theorem get_item {q q' : ThreadSafeQueue} {item : Bytes} (h : q.get = some (some item, q')) :
    q.items = item::q'.items ∧ q'.closed = q.closed := by
  obtain ⟨items, closed⟩ := q
  cases items with
  | nil =>
    obtain ⟨-, he⟩ := Option.ite_none_right_eq_some.mp h
    cases he
  | cons i items =>
    obtain ⟨hi, rfl⟩ := Prod.mk.inj (Option.some.inj h)
    obtain rfl := Option.some.inj hi
    exact ⟨rfl, rfl⟩

theorem get_end {q q' : ThreadSafeQueue} (h : q.get = some (none, q')) :
    q' = q ∧ q.items = [] ∧ q.closed := by
  obtain ⟨items, closed⟩ := q
  cases items with
  | nil =>
    obtain ⟨hc, he⟩ := Option.ite_none_right_eq_some.mp h
    obtain ⟨-, rfl⟩ := Prod.mk.inj (Option.some.inj he)
    exact ⟨rfl, rfl, hc⟩
  | cons i items =>
    obtain ⟨hi, -⟩ := Prod.mk.inj (Option.some.inj h)
    cases hi

theorem get_inv {text : List Char} {s : State} {item : Bytes} {q : ThreadSafeQueue}
    (hi : Inv text s) (hs : s.server = .getting) (hq : s.queue.items = item::q.items)
    (hqc : q.closed = s.queue.closed) :
    Inv text { s with queue := q, server := .writing item } :=
  { hi with
    flow := by
      have hc := hi.flow
      simpa [carried, hs, hq, Server.held] using hc
    closed := fun hc => hi.closed (hqc ▸ hc)
    returned := fun hr => by cases hr
    ended := fun he => Server.noConfusion (hs.symm.trans (hi.ended he).1) }

theorem return_inv {text : List Char} {s : State} (hi : Inv text s)
    (hs : s.server = .getting) (hq : s.queue.items = []) (hc : s.queue.closed) :
    Inv text { s with server := .returned } :=
  { hi with
    flow := by
      have hc := hi.flow
      simpa [carried, hs, Server.held] using hc
    returned := fun _ => ⟨hc, hq⟩
    ended := fun he => Server.noConfusion (hs.symm.trans (hi.ended he).1) }

theorem write_inv {text : List Char} {s : State} {item : Bytes} (hi : Inv text s)
    (hs : s.server = .writing item) :
    Inv text { s with server := .getting, inFlight := s.inFlight ++ [reply item] } :=
  { hi with
    flow := by
      have hc := hi.flow
      simpa [carried, hs, Server.held, reply] using hc
    returned := fun hr => by cases hr
    ended := fun he => Server.noConfusion (hs.symm.trans (hi.ended he).1) }

theorem read_inv {text : List Char} {s : State} {r : ReplicaReply} {inFlight : List ReplicaReply}
    (hi : Inv text s) (hc : s.client = .reading) (hf : s.inFlight = r::inFlight) :
    Inv text { s with
      inFlight := inFlight, client := .writing (chunk r.text), replies := s.replies ++ [r] } :=
  { hi with
    flow := by
      have hc := hi.flow
      simpa [carried, hf] using hc
    body := by
      have hb := hi.body
      simp only [committed, hc, Client.rest, Client.Ended, if_false, List.append_nil] at hb
      simp [committed, Client.rest, Client.Ended, hb]
    unfinished := fun rest hr => by
      rcases hr with hr | hr
      · exact Client.writing.inj hr ▸ chunk_ne_nil r.text
      · cases hr
    ended := fun he => he.elim }

theorem end_inv {text : List Char} {s : State} (hi : Inv text s) (hc : s.client = .reading)
    (hf : s.inFlight = []) (hs : s.server = .returned) :
    Inv text { s with client := .ending terminator } :=
  { hi with
    body := by
      have hb := hi.body
      simp only [committed, hc, Client.rest, Client.Ended, if_false, List.append_nil] at hb
      simp [committed, Client.rest, Client.Ended, hb]
    unfinished := fun rest hr => by
      rcases hr with hr | hr
      · cases hr
      · exact Client.ending.inj hr ▸ (by decide)
    ended := fun _ => ⟨hs, hf⟩ }

theorem send_inv {text : List Char} {s : State} {rest : Bytes} {n : ℕ} {next : Client}
    (hi : Inv text s) (hrest : s.client.rest = rest)
    (hnext : next.rest = rest.drop n) (hended : next.Ended ↔ s.client.Ended)
    (hun : ∀ r, next = .writing r ∨ next = .ending r → r ≠ []) :
    Inv text { s with body := s.body ++ rest.take n, client := next } :=
  { hi with
    body := by
      have hb := hi.body
      rw [hrest] at hb
      simp only [committed, hended]
      rw [hnext, List.append_assoc, List.take_append_drop]
      exact hb
    unfinished := hun
    ended := fun he => hi.ended (hended.mp he) }

theorem step_generate {s t : State} (hs : step s .generate = some t) :
    ∃ currentText outputs, s.outputs = currentText::outputs ∧
      t = generate s currentText outputs := by
  simp only [step] at hs
  split at hs
  next currentText outputs ho => exact ⟨currentText, outputs, ho, (Option.some.inj hs).symm⟩
  next => cases hs

theorem step_except {s t : State} (hs : step s .except = some t) :
    ∃ e, s.failure = some e ∧ t = { putText s (errorMark ++ ' '::e) with failure := none } := by
  simp only [step] at hs
  split at hs
  next e _ hf => exact ⟨e, hf, (Option.some.inj hs).symm⟩
  next => cases hs

theorem step_get {s t : State} (hs : step s .get = some t) : s.server = .getting ∧
    ((∃ item q, s.queue.items = item::q.items ∧ q.closed = s.queue.closed ∧
        t = { s with queue := q, server := .writing item }) ∨
      (s.queue.items = [] ∧ s.queue.closed ∧ t = { s with server := .returned })) := by
  simp only [step] at hs
  split at hs
  next item q hg hq =>
    obtain ⟨hitems, hclosed⟩ := get_item hq
    exact ⟨hg, Or.inl ⟨item, q, hitems, hclosed, (Option.some.inj hs).symm⟩⟩
  next q hg hq =>
    obtain ⟨rfl, hitems, hclosed⟩ := get_end hq
    exact ⟨hg, Or.inr ⟨hitems, hclosed, (Option.some.inj hs).symm⟩⟩
  next => cases hs

theorem step_write {s t : State} (hs : step s .write = some t) :
    ∃ item, s.server = .writing item ∧
      t = { s with server := .getting, inFlight := s.inFlight ++ [reply item] } := by
  simp only [step] at hs
  split at hs
  next item hw => exact ⟨item, hw, (Option.some.inj hs).symm⟩
  next => cases hs

theorem step_read {s t : State} (hs : step s .read = some t) : s.client = .reading ∧
    ((∃ r inFlight, s.inFlight = r::inFlight ∧ t = { s with
        inFlight := inFlight, client := .writing (chunk r.text), replies := s.replies ++ [r] }) ∨
      (s.inFlight = [] ∧ s.server = .returned ∧ t = { s with client := .ending terminator })) := by
  simp only [step] at hs
  split at hs
  next r inFlight hc hf =>
    exact ⟨hc, Or.inl ⟨r, inFlight, hf, (Option.some.inj hs).symm⟩⟩
  next hc hf =>
    obtain ⟨hr, rfl⟩ := Option.ite_some_none_eq_some.mp hs
    exact ⟨hc, Or.inr ⟨hf, hr, rfl⟩⟩
  next => cases hs

theorem step_send {s t : State} {n : ℕ} (hs : step s (.send n) = some t) :
    ∃ rest next, 0 < n ∧ n ≤ rest.length ∧
      t = { s with body := s.body ++ rest.take n, client := next } ∧
      ((s.client = .writing rest ∧
          next = if n = rest.length then .reading else .writing (rest.drop n)) ∨
        (s.client = .ending rest ∧
          next = if n = rest.length then .closed else .ending (rest.drop n))) := by
  simp only [step] at hs
  split at hs
  next rest hc =>
    obtain ⟨⟨hn, hle⟩, rfl⟩ := Option.ite_some_none_eq_some.mp hs
    exact ⟨rest, _, hn, hle, rfl, Or.inl ⟨hc, rfl⟩⟩
  next rest hc =>
    obtain ⟨⟨hn, hle⟩, rfl⟩ := Option.ite_some_none_eq_some.mp hs
    exact ⟨rest, _, hn, hle, rfl, Or.inr ⟨hc, rfl⟩⟩
  next => cases hs

theorem drop_ne_nil {rest : Bytes} {n : ℕ} (hle : n ≤ rest.length) (h : n ≠ rest.length) :
    rest.drop n ≠ [] := by
  simpa [List.drop_eq_nil_iff] using lt_of_le_of_ne hle h

theorem sent_inv {text : List Char} {s t : State} {n : ℕ} (hi : Inv text s)
    (hs : step s (.send n) = some t) : Inv text t := by
  obtain ⟨rest, next, hn, hle, rfl, ⟨hc, rfl⟩ | ⟨hc, rfl⟩⟩ := step_send hs
  · by_cases h : n = rest.length
    · rw [if_pos h]
      exact send_inv hi (by rw [hc]; rfl) (by simp [Client.rest, h]) (by rw [hc]; rfl) (by simp)
    · rw [if_neg h]
      refine send_inv hi (by rw [hc]; rfl) rfl (by rw [hc]; rfl) (fun r hr => ?_)
      simp only [Client.writing.injEq, reduceCtorEq, or_false] at hr
      exact hr ▸ drop_ne_nil hle h
  · by_cases h : n = rest.length
    · rw [if_pos h]
      exact send_inv hi (by rw [hc]; rfl) (by simp [Client.rest, h]) (by rw [hc]; rfl) (by simp)
    · rw [if_neg h]
      refine send_inv hi (by rw [hc]; rfl) rfl (by rw [hc]; rfl) (fun r hr => ?_)
      simp only [Client.ending.injEq, reduceCtorEq, false_or] at hr
      exact hr ▸ drop_ne_nil hle h

theorem step_inv {text : List Char} (s : State) (a : Act) (t : State) (hi : Inv text s)
    (hs : step s a = some t) : Inv text t := by
  cases a with
  | generate =>
    obtain ⟨_, _, ho, rfl⟩ := step_generate hs
    exact generate_inv hi ho
  | except =>
    obtain ⟨e, hf, -⟩ := step_except hs
    exact absurd (hf.symm.trans hi.failure) (by simp)
  | finish =>
    obtain ⟨⟨ho, -, -⟩, rfl⟩ := Option.ite_some_none_eq_some.mp hs
    exact finish_inv hi ho
  | get =>
    obtain ⟨hg, ⟨_, _, hitems, hclosed, rfl⟩ | ⟨hitems, hclosed, rfl⟩⟩ := step_get hs
    · exact get_inv hi hg hitems hclosed
    · exact return_inv hi hg hitems hclosed
  | write =>
    obtain ⟨_, hw, rfl⟩ := step_write hs
    exact write_inv hi hw
  | read =>
    obtain ⟨hc, ⟨_, _, hf, rfl⟩ | ⟨hf, hr, rfl⟩⟩ := step_read hs
    · exact read_inv hi hc hf
    · exact end_inv hi hc hf hr
  | send n => exact sent_inv hi hs

def weight (item : Bytes) : ℕ := (chunk item).length

def outputsCost : ℕ → List (List Char) → ℕ
  | _, [] => 0
  | sentPosition, currentText::outputs =>
    if currentText.drop sentPosition ≠ [] then
      weight (utf8 (currentText.drop sentPosition))+4+outputsCost currentText.length outputs
    else 1+outputsCost sentPosition outputs

def failureCost : Option (List Char) → ℕ
  | none => 0
  | some e => weight (utf8 (errorMark ++ ' '::e))+4

def Server.cost : Server → ℕ
  | .getting => 1
  | .writing item => weight item+3
  | .returned => 0

def Client.cost : Client → ℕ
  | .reading => terminator.length+1
  | .writing rest => rest.length+terminator.length+1
  | .ending rest => rest.length
  | .closed => 0

/-- A bound on the steps still possible. -/
def remaining (s : State) : ℕ :=
  outputsCost s.sentPosition s.outputs+failureCost s.failure+(if s.queue.closed then 0 else 1)+
    (s.queue.items.map (fun item => weight item+3)).sum+s.server.cost+
    (s.inFlight.map (fun r => weight r.text+1)).sum+s.client.cost

theorem step_remaining (s : State) (a : Act) (t : State) (hs : step s a = some t) :
    remaining t < remaining s := by
  cases a with
  | generate =>
    obtain ⟨currentText, outputs, ho, rfl⟩ := step_generate hs
    by_cases h : currentText.drop s.sentPosition ≠ []
    · simp only [generate, remaining, ho, outputsCost, if_pos h, putText, ThreadSafeQueue.put,
        List.map_append, List.sum_append, List.map_singleton, List.sum_singleton]
      omega
    · simp only [generate, remaining, ho, outputsCost, if_neg h]
      omega
  | except =>
    obtain ⟨e, hf, rfl⟩ := step_except hs
    simp only [remaining, hf, failureCost, putText, ThreadSafeQueue.put, List.map_append,
      List.sum_append, List.map_singleton, List.sum_singleton]
    omega
  | finish =>
    obtain ⟨⟨-, -, hc⟩, rfl⟩ := Option.ite_some_none_eq_some.mp hs
    simp only [remaining, ThreadSafeQueue.close, if_neg hc, if_true]
    omega
  | get =>
    obtain ⟨hg, ⟨item, q, hitems, hclosed, rfl⟩ | ⟨-, -, rfl⟩⟩ := step_get hs
    · simp only [remaining, hg, hitems, hclosed, Server.cost, List.map_cons, List.sum_cons]
      omega
    · simp only [remaining, hg, Server.cost]
      omega
  | write =>
    obtain ⟨item, hw, rfl⟩ := step_write hs
    simp only [remaining, hw, Server.cost, List.map_append, List.sum_append, List.map_singleton,
      List.sum_singleton, reply]
    omega
  | read =>
    obtain ⟨hc, ⟨r, inFlight, hf, rfl⟩ | ⟨-, -, rfl⟩⟩ := step_read hs
    · simp only [remaining, hc, hf, Client.cost, List.map_cons, List.sum_cons, weight]
      omega
    · simp only [remaining, hc, Client.cost]
      omega
  | send n =>
    obtain ⟨rest, next, hn, hle, rfl, ⟨hc, rfl⟩ | ⟨hc, rfl⟩⟩ := step_send hs
    · by_cases h : n = rest.length
      · simp only [remaining, hc, if_pos h, Client.cost]
        omega
      · simp only [remaining, hc, if_neg h, Client.cost, List.length_drop]
        omega
    · by_cases h : n = rest.length
      · simp only [remaining, hc, if_pos h, Client.cost]
        omega
      · simp only [remaining, hc, if_neg h, Client.cost, List.length_drop]
        omega

/-- No stage waits for ever while the client is still connected. -/
theorem step_enabled {text : List Char} {s : State} (hi : Inv text s)
    (hc : s.client ≠ .closed) : ∃ a t, step s a = some t := by
  cases hcl : s.client with
  | closed => exact absurd hcl hc
  | writing rest =>
    have hl := List.length_pos_of_ne_nil (hi.unfinished rest (Or.inl hcl))
    exact ⟨.send rest.length, _, by simp only [step, hcl]; exact if_pos ⟨hl, le_rfl⟩⟩
  | ending rest =>
    have hl := List.length_pos_of_ne_nil (hi.unfinished rest (Or.inr hcl))
    exact ⟨.send rest.length, _, by simp only [step, hcl]; exact if_pos ⟨hl, le_rfl⟩⟩
  | reading =>
    cases hf : s.inFlight with
    | cons r inFlight => exact ⟨.read, _, by simp only [step, hcl, hf]; rfl⟩
    | nil =>
      cases hs : s.server with
      | returned => exact ⟨.read, _, by simp only [step, hcl, hf, hs, if_true]; rfl⟩
      | writing item => exact ⟨.write, _, by simp only [step, hs]; rfl⟩
      | getting =>
        cases hq : s.queue.items with
        | cons item items => exact ⟨.get, _, by simp only [step, hs, ThreadSafeQueue.get, hq]; rfl⟩
        | nil =>
          by_cases hcd : s.queue.closed
          · exact ⟨.get, _, by simp only [step, hs, ThreadSafeQueue.get, hq, hcd, if_true]; rfl⟩
          · cases ho : s.outputs with
            | cons currentText outputs => exact ⟨.generate, _, by simp only [step, ho]; rfl⟩
            | nil => exact ⟨.finish, _, if_pos ⟨ho, hi.failure, hcd⟩⟩

structure Streams (text : List Char) (s : State) : Prop where
  so_far : ∃ received, received <+: s.generated ∧ (decode s.body).1 = utf8 received
  whole : s.client = .closed → ∃ rest, decode s.body = (utf8 text, some rest)
  session : s.client = .closed → ∀ env req c message,
    Known env req ⟨some c, ⟨true, s.replies, ⟨0, message⟩⟩⟩ →
      written env none = okHead req.version ++ s.body
  moves : s.client ≠ .closed → ∃ a t, step s a = some t

theorem Inv.replies_eq {text : List Char} {s : State} (hi : Inv text s) : ∃ k,
    s.replies.map ReplicaReply.text = (s.tokens.take k).map utf8 := by
  refine ⟨s.replies.length, ?_⟩
  have hc := congrArg (List.take s.replies.length) hi.flow
  simp only [carried, List.map_append, List.append_assoc, ← List.map_take] at hc
  rw [← hc, List.take_left' (List.length_map _)]

theorem Inv.replies_ne {text : List Char} {s : State} (hi : Inv text s) :
    ∀ d ∈ s.replies.map ReplicaReply.text, d ≠ [] := by
  obtain ⟨k, hk⟩ := hi.replies_eq
  rw [hk]
  intro d hd
  obtain ⟨t, ht, rfl⟩ := List.mem_map.mp hd
  exact utf8_ne_nil (hi.nonempty t (List.mem_of_mem_take ht))

/-- Once the client has ended, everything generated has reached it. -/
theorem Inv.ended_text {text : List Char} {s : State} (hi : Inv text s) (he : s.client.Ended) :
    (s.replies.map ReplicaReply.text).flatten = utf8 text := by
  obtain ⟨hs, hf⟩ := hi.ended he
  obtain ⟨hcl, hq⟩ := hi.returned hs
  have hc := hi.flow
  simp only [carried, hf, hs, hq, Server.held, List.append_nil] at hc
  have hl := hi.last
  rw [hi.closed hcl, List.getLast?_singleton] at hl
  rw [hc, utf8_flatten, hi.tokens, Option.some.inj hl]

theorem Inv.streams {text : List Char} {s : State} (hi : Inv text s) : Streams text s where
  so_far := by
    have hp : s.body <+: (s.replies.map ReplicaReply.text).flatMap chunk ++ lastChunk ++ [0] := by
      refine (List.prefix_append s.body s.client.rest).trans ?_
      rw [hi.body, committed]
      split
      · rw [terminator, List.append_assoc]
      · rw [List.append_nil, List.append_assoc]
        exact List.prefix_append _ _
    obtain ⟨j, hj⟩ := decode_cut hi.replies_ne [0] hp
    obtain ⟨k, hk⟩ := hi.replies_eq
    refine ⟨((s.tokens.take k).take j).flatten, ?_, ?_⟩
    · rw [← hi.tokens]
      exact List.IsPrefix.flatten ((List.take_prefix _ _).trans (List.take_prefix _ _))
    · rw [hj, hk, ← List.map_take, utf8_flatten]
  whole hc := by
    have he : s.client.Ended := by rw [hc]; trivial
    have hb := hi.body
    rw [hc, Client.rest, List.append_nil, committed, if_pos (hc ▸ he), terminator,
      ← List.append_assoc] at hb
    refine ⟨[0], ?_⟩
    rw [hb, List.append_assoc, decode_chunks hi.replies_ne, decode_lastChunk, hi.ended_text he,
      List.append_nil]
  session hc env req c message hk := by
    have he : s.client.Ended := by rw [hc]; trivial
    have hb := hi.body
    rw [hc, Client.rest, List.append_nil, committed, if_pos (hc ▸ he)] at hb
    rw [written_known hk, hb]
    simp [clip, delivered]
  moves := step_enabled hi

/-- Under every schedule of the four stages the client decodes a prefix of
the text generated so far, no run is longer than the texts allow, and a run
that cannot be continued has delivered the last cumulative text. -/
theorem stream_delivers_text (outputs : List (List Char)) (hc : outputs.IsChain (· <+: ·))
    (as : List Act) (s : State) (hr : Runs.exec step as (initial outputs) = some s) :
    Streams (outputs.getLast?.getD []) s ∧ as.length ≤ remaining (initial outputs) :=
  ⟨(Runs.exec_invariant step_inv (initial_inv hc) hr).streams,
    le_of_add_le_left (Runs.exec_length_le step_remaining hr)⟩

def sampleRun : List Act :=
  [.generate, .get, .generate, .write, .read, .send 6, .finish, .get, .write, .get, .read,
    .send 6, .read, .send 6]

theorem stream_delivers_text_sample : ∃ s,
    Runs.exec step sampleRun (initial [['H'], ['H', 'i']]) = some s ∧
    Streams ['H', 'i'] s ∧ sampleRun.length ≤ remaining (initial [['H'], ['H', 'i']]) :=
  ⟨_, rfl, stream_delivers_text [['H'], ['H', 'i']] (by decide) sampleRun _ rfl⟩

end ServingSystem.TokenPipeline
