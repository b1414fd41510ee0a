import ServingSystem.ChunkedCoding
import ServingSystem.SendRequest
import Mathlib.Data.List.TakeWhile

/-!
# The HTTP session of the proxy

`HttpProxy::http_session` as one coroutine over the bytes it has written,
what its socket still takes, its local variables and its metrics. A socket
that refuses a byte takes none afterwards. The request, the routing table
and the outcome of each call come from the environment.
-/

set_option autoImplicit false

namespace ServingSystem.Proxy.HttpSession
open ChunkedCoding StateExcept

def utf8 (text : List Char) : Bytes := text.flatMap String.utf8EncodeChar

inductive HttpVersion where
  | http10
  | http11
  deriving DecidableEq, Repr

def HttpVersion.text : HttpVersion → String
  | .http10 => "HTTP/1.0"
  | .http11 => "HTTP/1.1"

structure Request where
  target : String
  version : HttpVersion
  body : Bytes
  deriving DecidableEq, Repr

/-- How a request to one deployment goes: what its pick returns and how the
call to that replica ends. -/
structure Handling where
  picked : Option ReplicaConnection
  rpc : Rpc
  deriving DecidableEq, Repr

structure Env where
  request : Except Exn Request
  metricsText : Bytes
  routingTable : String → Option Handling

inductive Metric where
  | activeRequests (delta : ℤ)
  | firstTokenLatency (deploymentName : String)
  | interTokenLatency (deploymentName : String)
  | requestLatency (deploymentName status : String)
  | requestCount (deploymentName status : String)
  deriving DecidableEq, Repr

structure Session where
  sent : Bytes
  accepts : Option ℕ
  deploymentName : String
  firstToken : Bool
  lastTokenReceived : Bool
  metrics : List Metric
  calls : List Action
  deriving DecidableEq, Repr

def start (accepts : Option ℕ) : Session := ⟨[], accepts, "unknown", true, false, [], []⟩

def observe (metric : Metric) : Co Session Unit :=
  modify (fun s => { s with metrics := s.metrics ++ [metric] })

def asyncWrite (data : Bytes) : Co Session Unit := fun s =>
  match s.accepts with
  | none => .ok () { s with sent := s.sent ++ data }
  | some n =>
    if data.length ≤ n then
      .ok () { s with sent := s.sent ++ data, accepts := some (n-data.length) }
    else .error ⟨"async_write"⟩ { s with sent := s.sent ++ data.take n, accepts := some 0 }

def headText (version : HttpVersion) (status : String) (fields : List (String × String)) :
    List Char :=
  version.text.toList ++ " ".toList ++ status.toList ++ "\r\n".toList ++
    fields.flatMap (fun f => f.1.toList ++ ": ".toList ++ f.2.toList ++ "\r\n".toList) ++
    "\r\n".toList

def stringResponse (version : HttpVersion) (status : String) (fields : List (String × String))
    (body : Bytes) : Bytes :=
  utf8 (headText version status (fields ++ [("Content-Length", toString body.length)])) ++ body

def okHead (version : HttpVersion) : Bytes :=
  utf8 (headText version "200 OK"
    [("Server", "http-proxy"), ("Content-Type", "text/plain"), ("Transfer-Encoding", "chunked")])

def notFound (version : HttpVersion) : Bytes :=
  stringResponse version "404 Not Found" [("Server", "http-proxy")]
    (utf8 "Deployment not found".toList)

def serveMetrics (metricsText : Bytes) : Co Session Unit :=
  tryCatch (asyncWrite (stringResponse .http11 "200 OK"
    [("Server", "http-proxy"), ("Content-Type", "text/plain; version=0.0.4")] metricsText))
    (fun _ => pure ())

def observeFirstToken : Co Session Unit := do
  if (← get).firstToken then
    observe (.firstTokenLatency (← get).deploymentName)
    modify (fun s => { s with firstToken := false })

def observeInterToken : Co Session Unit := do
  if (← get).lastTokenReceived then
    observe (.interTokenLatency (← get).deploymentName)
  modify (fun s => { s with lastTokenReceived := true })

def onTokenReceived : OnToken Session := fun expectedToken => do
  observeFirstToken
  match expectedToken with
  | .ok token =>
    asyncWrite (chunk token)
    observeInterToken
  | .error _ => throw ⟨"gRPC stream error"⟩

def handleOps (picked : Option ReplicaConnection) : HandleOps Session where
  pickNextReplica := pure picked
  markReplicaUnhealthy id := modify (fun s => { s with calls := s.calls ++ [.mark id] })
  releaseReplica i s := { s with calls := s.calls ++ [.release i] }

def recordOutcome (status : String) : Co Session Unit := do
  observe (.requestLatency (← get).deploymentName status)
  observe (.requestCount (← get).deploymentName status)

def streamResponse (version : HttpVersion) (handle : Handling) : Co Session Unit := do
  asyncWrite (okHead version)
  sendRequest (handleOps handle.picked) handle.rpc onTokenReceived
  recordOutcome "success"

def tryBlock (env : Env) : Co Session Bool := do
  let req ← (match env.request with
    | .ok req => pure req
    | .error e => throw e : Co Session Request)
  if req.target = "/metrics" then
    serveMetrics env.metricsText
    return true
  modify (fun s => { s with deploymentName := req.target })
  match env.routingTable req.target with
  | none =>
    asyncWrite (notFound req.version)
    throw ⟨"Deployment not found"⟩
  | some handle =>
    streamResponse req.version handle
    return false

/-- The literal `"0\r\n\r\n"` with the null character that ends its array. -/
def terminator : Bytes := lastChunk ++ [0]

def writeTerminator : Co Session Unit := tryCatch (asyncWrite terminator) (fun _ => pure ())

def guarded (env : Env) : Co Session Bool :=
  tryCatch (tryBlock env) (fun _ => do
    recordOutcome "error"
    return false)

def httpSession (env : Env) : Co Session Unit := do
  observe (.activeRequests 1)
  let served ← guarded env
  if !served then
    writeTerminator
  observe (.activeRequests (-1))

def written (env : Env) (accepts : Option ℕ) : Bytes :=
  (finalState (httpSession env (start accepts))).sent

/-- The texts passed to the callback while no write fails. -/
def delivered (h : Handling) : List Bytes :=
  if h.picked.isSome ∧ h.rpc.started then h.rpc.replies.map ReplicaReply.text else []

def Fails (h : Handling) : Prop :=
  h.picked = none ∨ h.rpc.started = false ∨ h.rpc.status.ok = false

instance decidableFails (h : Handling) : Decidable (Fails h) :=
  inferInstanceAs (Decidable (h.picked = none ∨ h.rpc.started = false ∨ h.rpc.status.ok = false))

def clip (accepts : Option ℕ) (data : Bytes) : Bytes :=
  match accepts with
  | none => data
  | some n => data.take n

structure Wrote (data : Bytes) (s t : Session) : Prop where
  sent : t.sent = s.sent ++ clip s.accepts data
  accepts : t.accepts = s.accepts.map (fun n => n-data.length)

def Writes {α : Type} (x : Co Session α) (data : Bytes) : Prop :=
  ∀ s, Wrote data s (finalState (x s)) ∧ ∀ e t, x s = .error e t → t.accepts = some 0

/-- The code writes that data and may throw afterwards. -/
def Ends {α : Type} (x : Co Session α) (data : Bytes) : Prop :=
  ∀ s, Wrote data s (finalState (x s))

theorem Wrote.of_eq {s t : Session} (hs : t.sent = s.sent) (ha : t.accepts = s.accepts) :
    Wrote [] s t where
  sent := by cases h : s.accepts <;> simp [hs, clip]
  accepts := by cases h : s.accepts <;> simp [ha, h]

theorem Wrote.trans {a b : Bytes} {s t u : Session} (h : Wrote a s t) (g : Wrote b t u) :
    Wrote (a ++ b) s u where
  sent := by
    rw [g.sent, h.sent, h.accepts]
    cases s.accepts <;> simp [clip, List.take_append]
  accepts := by
    rw [g.accepts, h.accepts]
    cases s.accepts <;> simp [Nat.sub_sub]

/-- Nothing reaches a failed socket, so anything may be said to be written. -/
theorem Wrote.failed {data : Bytes} {s t : Session} (h : Wrote data s t)
    (ht : t.accepts = some 0) (more : Bytes) : Wrote (data ++ more) s t :=
  h.trans ⟨by simp [ht, clip], by simp [ht]⟩

theorem Writes.ends {α : Type} {x : Co Session α} {data : Bytes} (h : Writes x data) :
    Ends x data := fun s => (h s).1

theorem asyncWrite_writes (data : Bytes) : Writes (asyncWrite data) data := by
  intro s
  unfold asyncWrite
  cases h : s.accepts with
  | none => exact ⟨⟨by simp [finalState, h, clip], by simp [finalState, h]⟩, by simp⟩
  | some n =>
    by_cases hn : data.length ≤ n
    · simp only [if_pos hn]
      exact ⟨⟨by simp [finalState, h, clip, List.take_of_length_le hn], by simp [finalState, h]⟩,
        by simp⟩
    · simp only [if_neg hn]
      refine ⟨⟨by simp [finalState, h, clip], by simp [finalState, h]; omega⟩, fun e t he => ?_⟩
      cases he
      rfl

theorem pure_writes {α : Type} (a : α) : Writes (pure a) [] :=
  fun _ => ⟨.of_eq rfl rfl, fun _ _ h => by cases h⟩

theorem get_writes : Writes (get : Co Session Session) [] :=
  fun _ => ⟨.of_eq rfl rfl, fun _ _ h => by cases h⟩

theorem modify_writes {f : Session → Session} (hs : ∀ s, (f s).sent = s.sent)
    (ha : ∀ s, (f s).accepts = s.accepts) : Writes (modify f : Co Session Unit) [] :=
  fun s => ⟨.of_eq (hs s) (ha s), fun _ _ h => by cases h⟩

theorem observe_writes (metric : Metric) : Writes (observe metric) [] :=
  modify_writes (fun _ => rfl) (fun _ => rfl)

theorem throw_ends {α : Type} (e : Exn) : Ends (throw e : Co Session α) [] :=
  fun _ => .of_eq rfl rfl

theorem Writes.bind_ends {α β : Type} {x : Co Session α} {f : α → Co Session β} {a b : Bytes}
    (hx : Writes x a) (hf : ∀ v, Ends (f v) b) : Ends (x >>= f) (a ++ b) := by
  intro s
  obtain ⟨hw, hd⟩ := hx s
  cases h : x s with
  | ok v t =>
    rw [h] at hw
    rw [finalState_bind_ok h]
    exact hw.trans (hf v t)
  | error e t =>
    rw [h] at hw
    rw [finalState_bind_error h]
    exact hw.failed (hd e t h) b

theorem Writes.bind {α β : Type} {x : Co Session α} {f : α → Co Session β} {a b : Bytes}
    (hx : Writes x a) (hf : ∀ v, Writes (f v) b) : Writes (x >>= f) (a ++ b) := by
  intro s
  refine ⟨hx.bind_ends (fun v => (hf v).ends) s, fun e u he => ?_⟩
  cases h : x s with
  | ok v t =>
    refine (hf v t).2 e u ?_
    rwa [bind_ok h] at he
  | error e' t =>
    rw [bind_error h] at he
    cases he
    exact (hx s).2 e u h

theorem Ends.bind {α β : Type} {x : Co Session α} {f : α → Co Session β} {a : Bytes}
    (hx : Ends x a) (hf : ∀ v, Ends (f v) []) : Ends (x >>= f) a := by
  intro s
  have hw := hx s
  cases h : x s with
  | ok v t =>
    rw [h] at hw
    rw [finalState_bind_ok h, ← List.append_nil a]
    exact hw.trans (hf v t)
  | error e t =>
    rw [h] at hw
    rwa [finalState_bind_error h]

theorem asyncWrite_caught (data : Bytes) :
    Writes (tryCatch (asyncWrite data) (fun _ => pure ())) data := by
  intro s
  obtain ⟨hw, -⟩ := asyncWrite_writes data s
  cases h : asyncWrite data s with
  | ok v t =>
    rw [h] at hw
    rw [tryCatch_ok h]
    exact ⟨hw, fun _ _ he => by cases he⟩
  | error e t =>
    rw [h] at hw
    rw [tryCatch_error h]
    exact ⟨hw, fun _ _ he => by cases he⟩

theorem observeFirstToken_writes : Writes observeFirstToken [] := by
  refine get_writes.bind (fun s => ?_)
  split
  · exact get_writes.bind (fun s => (observe_writes _).bind (fun _ =>
      modify_writes (fun _ => rfl) (fun _ => rfl)))
  · exact pure_writes _

theorem observeInterToken_writes : Writes observeInterToken [] := by
  have hm : Writes (modify (fun s : Session => { s with lastTokenReceived := true })
      : Co Session Unit) [] := modify_writes (fun _ => rfl) (fun _ => rfl)
  refine get_writes.bind (fun s => ?_)
  split
  · exact get_writes.bind (fun s => (observe_writes _).bind (fun _ => hm))
  · exact hm

theorem onTokenReceived_writes (token : Bytes) :
    Writes (onTokenReceived (.ok token)) (chunk token) := by
  have h := observeFirstToken_writes.bind (fun _ =>
    (asyncWrite_writes (chunk token)).bind (fun _ => observeInterToken_writes))
  rwa [List.nil_append, List.append_nil] at h

theorem onTokenReceived_error (status : Status) :
    Ends (onTokenReceived (.error status)) [] :=
  observeFirstToken_writes.bind_ends (fun _ => throw_ends _)

theorem readLoop_writes (replies : List ReplicaReply) :
    Writes (readLoop onTokenReceived replies)
      ((replies.map ReplicaReply.text).flatMap chunk) := by
  induction replies with
  | nil => exact pure_writes _
  | cons r rest ih => exact (onTokenReceived_writes r.text).bind (fun _ => ih)

theorem mark_writes (picked : Option ReplicaConnection) (id : String) :
    Writes ((handleOps picked).markReplicaUnhealthy id) [] :=
  modify_writes (fun _ => rfl) (fun _ => rfl)

theorem failure_ends (picked : Option ReplicaConnection) (id : String) (status : Status) :
    Ends (do
      (handleOps picked).markReplicaUnhealthy id
      onTokenReceived (.error status)) [] :=
  (mark_writes picked id).bind_ends (fun _ => onTokenReceived_error status)

theorem withReleaser_ends {picked : Option ReplicaConnection} {i : ℕ} {body : Co Session Unit}
    {data : Bytes} (h : Ends body data) :
    Ends (withReleaser ((handleOps picked).releaseReplica i) body) data := by
  intro s
  rw [finalState_withReleaser]
  exact ⟨(h s).sent, (h s).accepts⟩

/-- Whatever becomes of the call, the session forwards the texts delivered
to it, each as a chunk. -/
theorem sendRequest_ends (h : Handling) :
    Ends (sendRequest (handleOps h.picked) h.rpc onTokenReceived)
      ((delivered h).flatMap chunk) := by
  obtain ⟨picked, rpc⟩ := h
  cases picked with
  | none => exact onTokenReceived_error ⟨unavailable, "No replicas available"⟩
  | some c =>
    refine withReleaser_ends (?_ : Ends _ _)
    cases hs : rpc.started with
    | false =>
      simp only [delivered, hs, Bool.false_eq_true, and_false, if_false]
      exact failure_ends _ _ _
    | true =>
      have hr := readLoop_writes rpc.replies
      simp only [delivered, hs, Option.isSome_some, and_self, if_true]
      rw [← List.append_nil ((rpc.replies.map ReplicaReply.text).flatMap chunk)]
      refine hr.bind_ends (fun _ => ?_)
      cases rpc.status.ok with
      | true => exact (pure_writes _).ends
      | false => exact failure_ends _ _ _

theorem recordOutcome_writes (status : String) : Writes (recordOutcome status) [] :=
  get_writes.bind (fun _ => (observe_writes _).bind (fun _ =>
    get_writes.bind (fun _ => observe_writes _)))

theorem streamResponse_ends (version : HttpVersion) (h : Handling) :
    Ends (streamResponse version h) (okHead version ++ (delivered h).flatMap chunk) :=
  (asyncWrite_writes _).bind_ends (fun _ =>
    (sendRequest_ends h).bind (fun _ => (recordOutcome_writes _).ends))

structure Known (env : Env) (req : Request) (h : Handling) : Prop where
  request : env.request = .ok req
  target : req.target ≠ "/metrics"
  found : env.routingTable req.target = some h

theorem Known.tryBlock_eq {env : Env} {req : Request} {h : Handling} (hk : Known env req h) :
    tryBlock env = (do
      modify (fun s => { s with deploymentName := req.target })
      streamResponse req.version h
      return false) := by
  simp only [tryBlock, hk.request, pure_bind, hk.target, if_false, hk.found]

def opened (accepts : Option ℕ) : Session :=
  { start accepts with metrics := [.activeRequests 1] }

def failed (t : Session) : Session :=
  { t with metrics := t.metrics ++ [.requestLatency t.deploymentName "error"] ++
      [.requestCount t.deploymentName "error"] }

theorem guarded_ok {env : Env} {s t : Session} {served : Bool}
    (h : tryBlock env s = .ok served t) : guarded env s = .ok served t :=
  tryCatch_ok h

theorem guarded_error {env : Env} {s t : Session} {e : Exn}
    (h : tryBlock env s = .error e t) : guarded env s = .ok false (failed t) :=
  tryCatch_error h

section
variable {env : Env} {req : Request} {h : Handling} (hk : Known env req h) {s t u : Session}
include hk

theorem Known.guarded_unheaded {e : Exn}
    (hhead : asyncWrite (okHead req.version) { s with deploymentName := req.target } =
      .error e t) : guarded env s = .ok false (failed t) := by
  apply guarded_error (e := e)
  rw [hk.tryBlock_eq, modify_bind, streamResponse]
  exact bind_error (bind_error hhead)

theorem Known.guarded_raised {e : Exn}
    (hhead : asyncWrite (okHead req.version) { s with deploymentName := req.target } = .ok () t)
    (hcall : sendRequest (handleOps h.picked) h.rpc onTokenReceived t = .error e u) :
    guarded env s = .ok false (failed u) := by
  apply guarded_error (e := e)
  rw [hk.tryBlock_eq, modify_bind, streamResponse]
  exact bind_error ((bind_ok hhead).trans (bind_error hcall))

theorem Known.guarded_returned
    (hhead : asyncWrite (okHead req.version) { s with deploymentName := req.target } = .ok () t)
    (hcall : sendRequest (handleOps h.picked) h.rpc onTokenReceived t = .ok () u) :
    guarded env s = .ok false (finalState (recordOutcome "success" u)) := by
  apply guarded_ok
  rw [hk.tryBlock_eq, modify_bind, streamResponse]
  exact bind_ok ((bind_ok hhead).trans ((bind_ok hcall).trans rfl))

end

theorem Known.served {env : Env} {req : Request} {h : Handling} (hk : Known env req h)
    (s : Session) : ∃ t, guarded env s = .ok false t ∧
      Wrote (okHead req.version ++ (delivered h).flatMap chunk) s t := by
  let named : Session := { s with deploymentName := req.target }
  have hw := streamResponse_ends req.version h named
  cases hs : streamResponse req.version h named with
  | ok v t =>
    rw [hs] at hw
    have hb : tryBlock env s = .ok false t := by
      rw [hk.tryBlock_eq, modify_bind]
      exact bind_ok hs
    exact ⟨t, guarded_ok hb, hw.sent, hw.accepts⟩
  | error e t =>
    rw [hs] at hw
    have hb : tryBlock env s = .error e t := by
      rw [hk.tryBlock_eq, modify_bind]
      exact bind_error hs
    exact ⟨failed t, guarded_error hb, hw.sent, hw.accepts⟩

theorem httpSession_unserved {env : Env} {accepts : Option ℕ} {t : Session}
    (h : guarded env (opened accepts) = .ok false t) :
    finalState (httpSession env (start accepts)) =
      finalState ((writeTerminator >>= fun _ => observe (.activeRequests (-1))) t) := by
  have ho : observe (.activeRequests 1) (start accepts) = .ok () (opened accepts) := rfl
  rw [httpSession, finalState_bind_ok ho, finalState_bind_ok h]
  rfl

theorem written_unserved {env : Env} {accepts : Option ℕ} {t : Session} {data : Bytes}
    (h : guarded env (opened accepts) = .ok false t) (hw : Wrote data (opened accepts) t) :
    written env accepts = clip accepts (data ++ terminator) := by
  have hepilogue : Ends (writeTerminator >>= fun _ => observe (.activeRequests (-1)))
      terminator := by
    have h := (asyncWrite_caught terminator).bind (fun _ => observe_writes (.activeRequests (-1)))
    rw [List.append_nil] at h
    exact h.ends
  rw [written, httpSession_unserved h, (hw.trans (hepilogue t)).sent]
  rfl

/-- The bytes of every session on a known deployment, whether its call
succeeds or fails: the head, the chunks delivered and the terminator. -/
theorem written_known {env : Env} {req : Request} {h : Handling} (hk : Known env req h)
    (accepts : Option ℕ) : written env accepts =
      clip accepts (okHead req.version ++ (delivered h).flatMap chunk ++ terminator) := by
  obtain ⟨t, ht, hw⟩ := hk.served (opened accepts)
  exact written_unserved ht hw

def responseEnd (version : HttpVersion) (h : Handling) : ℕ :=
  (okHead version).length+
    (((delivered h).takeWhile (fun d => d ≠ [])).flatMap chunk).length+5

theorem okHead_split (version : HttpVersion) :
    ∃ h, splitHead (okHead version) = some (h, []) ∧ statusCode h = [50, 48, 48] := by
  cases version <;> exact ⟨_, rfl, rfl⟩

/-- The client sees a complete response exactly when the socket took
everything up to the first chunk of length zero. -/
theorem completeOk_iff {env : Env} {req : Request} {h : Handling} (hk : Known env req h)
    (accepts : Option ℕ) :
    CompleteOk (written env accepts) ↔ ∀ n, accepts = some n → responseEnd req.version h ≤ n := by
  obtain ⟨head, hs, hok⟩ := okHead_split req.version
  obtain ⟨rest, hbody⟩ := chunks_takeWhile (delivered h) [0]
  have hwritten : okHead req.version ++ (delivered h).flatMap chunk ++ terminator =
      okHead req.version ++ (((delivered h).takeWhile (fun d => d ≠ [])).flatMap chunk ++
        lastChunk ++ rest) := by
    rw [← hbody]
    simp only [terminator, List.append_assoc]
  have hne : ∀ d ∈ (delivered h).takeWhile (fun d => d ≠ []), d ≠ [] := fun d hd => by
    simpa using List.mem_takeWhile_imp hd
  have hcut : ∀ n, CompleteOk ((okHead req.version ++ (delivered h).flatMap chunk ++
      terminator).take n) ↔ responseEnd req.version h ≤ n := by
    intro n
    rw [hwritten, completeOk_take hs hok, decode_take_complete hne, responseEnd]
    omega
  rw [written_known hk]
  cases accepts with
  | some n => simpa [clip] using hcut n
  | none =>
    have hall := (hcut (max (responseEnd req.version h)
      (okHead req.version ++ (delivered h).flatMap chunk ++ terminator).length)).mpr
      (le_max_left _ _)
    rw [List.take_of_length_le (le_max_right _ _)] at hall
    simpa [clip] using hall

/-- A failed session looks complete to the client unless its socket broke
before the first chunk of length zero was written. -/
theorem failed_session_incomplete_iff (env : Env) (req : Request) (h : Handling)
    (hk : Known env req h) (accepts : Option ℕ) :
    (Fails h → ¬ CompleteOk (written env accepts)) ↔
      (Fails h → ∃ n, accepts = some n ∧ n < responseEnd req.version h) := by
  apply forall_congr'
  intro _
  rw [completeOk_iff hk]
  push Not
  rfl

def sampleRequest : Request := ⟨"/chat", .http11, []⟩

def sampleEnv (h : Handling) : Env where
  request := .ok sampleRequest
  metricsText := []
  routingTable target := if target = "/chat" then some h else none

def brokenStream : Handling where
  picked := some ⟨0, "1#1", none⟩
  rpc := ⟨true, [⟨[111, 107], false⟩], ⟨unavailable, "Socket closed"⟩⟩

theorem sampleEnv_known (h : Handling) : Known (sampleEnv h) sampleRequest h :=
  ⟨rfl, by decide, by simp [sampleEnv, sampleRequest]⟩

theorem failed_session_incomplete_iff_sample :
    (Fails brokenStream → ¬ CompleteOk (written (sampleEnv brokenStream) (some 105))) ↔
      (Fails brokenStream → ∃ n, some 105 = some n ∧ n < responseEnd .http11 brokenStream) :=
  failed_session_incomplete_iff _ _ _ (sampleEnv_known brokenStream) (some 105)

def truncated (h : Handling) : Handling where
  picked := some ⟨0, "", none⟩
  rpc := ⟨true, (delivered h).map (fun text => ⟨text, false⟩), ⟨0, ""⟩⟩

theorem truncated_succeeds (h : Handling) : ¬ Fails (truncated h) := by
  simp [Fails, truncated, Status.ok]

theorem truncated_delivered (h : Handling) : delivered (truncated h) = delivered h := by
  simp [delivered, truncated, List.map_map, Function.comp_def]

/-- A failed session writes what a successful one with the truncated text
writes to the same socket. -/
theorem failed_session_bytes {env env' : Env} {req : Request} {h : Handling}
    (hk : Known env req h) (hk' : Known env' req (truncated h)) (accepts : Option ℕ) :
    written env accepts = written env' accepts := by
  rw [written_known hk, written_known hk', truncated_delivered]

/-- The broken stream is answered by the bytes of a successful session that
generated `ok`, and they are a complete response. -/
theorem broken_stream_looks_complete : Fails brokenStream ∧ ¬ Fails (truncated brokenStream) ∧
    CompleteOk (written (sampleEnv brokenStream) none) ∧
    written (sampleEnv brokenStream) none = written (sampleEnv (truncated brokenStream)) none :=
  ⟨Or.inr (Or.inr rfl), truncated_succeeds _,
    (completeOk_iff (sampleEnv_known brokenStream) none).mpr (by simp),
    failed_session_bytes (sampleEnv_known _) (sampleEnv_known _) none⟩

def Throws {α : Type} (x : Co Session α) : Prop := ∀ s, ∃ e t, x s = .error e t

theorem Throws.bind_right {α β : Type} (x : Co Session α) {f : α → Co Session β}
    (hf : ∀ v, Throws (f v)) : Throws (x >>= f) := by
  intro s
  cases h : x s with
  | ok v t =>
    obtain ⟨e, u, hu⟩ := hf v t
    exact ⟨e, u, (bind_ok h).trans hu⟩
  | error e t => exact ⟨e, t, bind_error h⟩

theorem Throws.bind_left {α β : Type} {x : Co Session α} (hx : Throws x)
    (f : α → Co Session β) : Throws (x >>= f) := by
  intro s
  obtain ⟨e, t, h⟩ := hx s
  exact ⟨e, t, bind_error h⟩

theorem onTokenReceived_throws (status : Status) : Throws (onTokenReceived (.error status)) :=
  Throws.bind_right _ (fun _ s => ⟨_, s, rfl⟩)

theorem sendRequest_throws {h : Handling} (hf : Fails h) :
    Throws (sendRequest (handleOps h.picked) h.rpc onTokenReceived) := by
  obtain ⟨picked, rpc⟩ := h
  cases picked with
  | none => exact onTokenReceived_throws ⟨unavailable, "No replicas available"⟩
  | some c =>
    have hbody : Throws (if !rpc.started then do
        (handleOps (some c)).markReplicaUnhealthy c.replicaId
        onTokenReceived (.error rpc.status)
      else do
        readLoop onTokenReceived rpc.replies
        if !rpc.status.ok then
          (handleOps (some c)).markReplicaUnhealthy c.replicaId
          onTokenReceived (.error rpc.status)) := by
      rcases hf with hf | hf | hf
      · cases hf
      · change rpc.started = false at hf
        simp only [hf]
        exact .bind_right _ (fun _ => onTokenReceived_throws _)
      · change rpc.status.ok = false at hf
        simp only [hf]
        split
        · exact .bind_right _ (fun _ => onTokenReceived_throws _)
        · exact .bind_right _ (fun _ => .bind_right _ (fun _ => onTokenReceived_throws _))
    intro s
    obtain ⟨e, t, hb⟩ := hbody s
    refine ⟨e, { t with calls := t.calls ++ [.release c.info] }, ?_⟩
    change withReleaser _ _ s = _
    rw [withReleaser, hb]
    rfl

theorem epilogue_metrics (s : Session) :
    (finalState ((writeTerminator >>= fun _ => observe (.activeRequests (-1))) s)).metrics =
      s.metrics ++ [.activeRequests (-1)] := by
  simp only [bind, EStateM.bind, writeTerminator, tryCatch, tryCatchThe, MonadExceptOf.tryCatch,
    EStateM.tryCatch, asyncWrite]
  cases s.accepts with
  | none => rfl
  | some n =>
    by_cases hn : terminator.length ≤ n
    · simp only [if_pos hn]
      rfl
    · simp only [if_neg hn]
      rfl

/-- The session itself counts as an error what its client may take for a
success. -/
theorem failed_session_recorded {env : Env} {req : Request} {h : Handling}
    (hk : Known env req h) (hf : Fails h) (accepts : Option ℕ) :
    ∃ name, .requestCount name "error" ∈
      (finalState (httpSession env (start accepts))).metrics := by
  have hthrows : Throws (tryBlock env) := by
    rw [hk.tryBlock_eq]
    exact .bind_right _ (fun _ => .bind_left
      (.bind_right _ (fun _ => .bind_left (sendRequest_throws hf) _)) _)
  obtain ⟨e, t, ht⟩ := hthrows (opened accepts)
  refine ⟨t.deploymentName, ?_⟩
  rw [httpSession_unserved (guarded_error ht), epilogue_metrics]
  simp [failed]

end ServingSystem.Proxy.HttpSession
