import ServingSystem.PythonHandle
import ServingSystem.StateExcept

/-!
# The stream generator of the Python proxy

`stream_generator` over the two generators below it, run to their ends:
`send_request` of the handle and the streaming attempt with its `finally`
block. A text yielded by one passes through those above it.
-/

set_option autoImplicit false

namespace ServingSystem.PythonProxy.StreamGenerator
open DeploymentHandle StateExcept

structure ReplicaReply where
  text : String
  isError : Bool
  deriving DecidableEq, Repr

structure RpcError where
  code : String
  details : String
  deriving DecidableEq, Repr

structure ReplicaStream where
  replies : List ReplicaReply
  error : Option RpcError
  deriving DecidableEq, Repr

inductive Exn where
  | rpcError (e : RpcError)
  | exception (message : String)
  deriving DecidableEq, Repr

inductive Metric where
  | firstTokenLatency (deploymentName : String)
  | requestLatency (deploymentName status : String)
  | requestCount (deploymentName status : String)
  deriving DecidableEq, Repr

structure State where
  handle : DeploymentHandle
  firstTokenReceived : Bool
  yielded : List String
  metrics : List Metric

abbrev Py := EStateM Exn State

def emit (text : String) : Py Unit := modify (fun s => { s with yielded := s.yielded ++ [text] })

def observe (metric : Metric) : Py Unit :=
  modify (fun s => { s with metrics := s.metrics ++ [metric] })

def flaggedReply (actualReplicaId workerId text : String) : Exn :=
  .exception ("Error Replica " ++ actualReplicaId ++ ": from worker " ++ workerId ++ ": " ++ text)

def readStream (actualReplicaId workerId : String) (error : Option RpcError)
    (token : String → Py Unit) : List ReplicaReply → Py Unit
  | [] =>
    match error with
    | none => pure ()
    | some e => throw (.rpcError e)
  | reply::rest =>
    if reply.isError then throw (flaggedReply actualReplicaId workerId reply.text)
    else do
      token reply.text
      readStream actualReplicaId workerId error token rest

def reraise (address actualReplicaId : String) : Exn → Exn
  | .rpcError e => .exception ("gRPC error with Replica at " ++ address ++ " for replica " ++
      actualReplicaId ++ ": " ++ e.code ++ " - " ++ e.details)
  | .exception message => .exception ("Error in streaming request to Replica for replica " ++
      actualReplicaId ++ ": " ++ message)

def attemptStreaming (stream : ReplicaStream) (token : String → Py Unit)
    (fullReplicaId address : String) : Py Unit :=
  if fullReplicaId = "" ∨ address = "" then pure ()
  else
    match parseReplicaId fullReplicaId with
    | none => throw (.exception "list index out of range")
    | some (workerId, actualReplicaId) =>
      finallyDo
        (tryCatch
          (do
            if fullReplicaId ∈ (← get).handle.replicaCache.keys then
              readStream actualReplicaId workerId stream.error token stream.replies)
          (fun e => throw (reraise address actualReplicaId e)))
        (modify (fun s => { s with handle := s.handle.finish fullReplicaId }))

def pick : Py (String × String) := fun s =>
  match s.handle.pickNextReplica with
  | (none, _) => .error (.exception "min() iterable argument is empty") s
  | (some picked, handle) => .ok picked { s with handle := handle }

def sendRequest (stream : ReplicaStream) (token : String → Py Unit) : Py Unit := do
  let (address, replicaId) ← pick
  if replicaId ≠ "" ∧ address ≠ "" then
    tryCatch (attemptStreaming stream token replicaId address) (fun _ => pure ())
  else
    throw (.exception "No valid replicas found")

def onToken (text : String) : Py Unit := do
  modify (fun s => { s with firstTokenReceived := true })
  emit text

def recordSuccess (deploymentName : String) : Py Unit := do
  if (← get).firstTokenReceived then
    observe (.firstTokenLatency deploymentName)
  observe (.requestLatency deploymentName "success")
  observe (.requestCount deploymentName "success")

def retryText : String := "Error in streaming, retry"

def recordError (deploymentName : String) : Py Unit := do
  observe (.requestLatency deploymentName "error")
  observe (.requestCount deploymentName "error")
  emit retryText

def forward (deploymentName : String) (stream : ReplicaStream) : Py Unit :=
  tryCatch
    (do
      sendRequest stream onToken
      recordSuccess deploymentName)
    (fun _ => recordError deploymentName)

def notFoundText (deploymentName : String) : String :=
  "data: \x7b'error': 'Deployment " ++ deploymentName ++ " not found', 'is_complete': true\x7d\n\n"

def start (handle : DeploymentHandle) : State := ⟨handle, false, [], []⟩

def streamGenerator (routingTable : Dict String DeploymentHandle) (deploymentName : String)
    (stream : ReplicaStream) : List String × List Metric :=
  match routingTable.get deploymentName with
  | none => ([notFoundText deploymentName], [])
  | some handle =>
    let s := finalState (forward deploymentName stream (start handle))
    (s.yielded, s.metrics)

def ReplicaStream.Fails (stream : ReplicaStream) : Prop :=
  (∃ r ∈ stream.replies, r.isError = true) ∨ stream.error ≠ none

/-- The replica of a request whose attempt is made: a replica was picked, and
it has an id and an address. -/
def Attempted (handle : DeploymentHandle) (address replicaId : String) : Prop :=
  handle.pickNextReplica.1 = some (address, replicaId) ∧ replicaId ≠ "" ∧ address ≠ ""

def AttemptFails (stream : ReplicaStream) (replicaId : String) : Prop :=
  parseReplicaId replicaId = none ∨ stream.Fails

def RequestFails (handle : DeploymentHandle) (stream : ReplicaStream) : Prop :=
  ∀ address replicaId, Attempted handle address replicaId → AttemptFails stream replicaId

def counts (metrics : List Metric) : List (String × String) :=
  metrics.filterMap (fun metric =>
    match metric with
    | .requestCount deploymentName status => some (deploymentName, status)
    | _ => none)

/-- A failed request is counted once, as an error, and ends with the retry
text; any other is counted once, as a success, and yields the reply texts. -/
structure Reports (routingTable : Dict String DeploymentHandle) (deploymentName : String)
    (handle : DeploymentHandle) (stream : ReplicaStream) : Prop where
  failed : RequestFails handle stream →
    counts (streamGenerator routingTable deploymentName stream).2 =
      [(deploymentName, "error")] ∧
    (streamGenerator routingTable deploymentName stream).1.getLast? = some retryText
  succeeded : ¬ RequestFails handle stream →
    counts (streamGenerator routingTable deploymentName stream).2 =
      [(deploymentName, "success")] ∧
    (streamGenerator routingTable deploymentName stream).1 =
      stream.replies.map ReplicaReply.text

structure Forwards (texts : List String) (s t : State) : Prop where
  yielded : t.yielded = s.yielded ++ texts
  metrics : t.metrics = s.metrics

theorem Forwards.trans {a b : List String} {s t u : State} (h : Forwards a s t)
    (g : Forwards b t u) : Forwards (a ++ b) s u where
  yielded := by rw [g.yielded, h.yielded, List.append_assoc]
  metrics := g.metrics.trans h.metrics

/-- The loop over the replies ends at the first flagged one, or with the
stream. -/
theorem readStream_run (actualReplicaId workerId : String) (error : Option RpcError)
    (replies : List ReplicaReply) (s : State) :
    (¬ ReplicaStream.Fails ⟨replies, error⟩ ∧ ∃ t,
      Forwards (replies.map ReplicaReply.text) s t ∧
      readStream actualReplicaId workerId error onToken replies s = .ok () t) ∨
    (ReplicaStream.Fails ⟨replies, error⟩ ∧ ∃ texts e t, Forwards texts s t ∧
      readStream actualReplicaId workerId error onToken replies s = .error e t) := by
  induction replies generalizing s with
  | nil =>
    cases error with
    | none => exact Or.inl ⟨by simp [ReplicaStream.Fails], s, ⟨by simp, rfl⟩, rfl⟩
    | some e => exact Or.inr ⟨Or.inr (by simp), [], _, s, ⟨by simp, rfl⟩, rfl⟩
  | cons r rest ih =>
    by_cases hr : r.isError = true
    · refine Or.inr ⟨Or.inl ⟨r, List.mem_cons_self, hr⟩, [],
        flaggedReply actualReplicaId workerId r.text, s, ⟨by simp, rfl⟩, ?_⟩
      rw [readStream, if_pos hr]
      rfl
    · let u : State := { s with firstTokenReceived := true, yielded := s.yielded ++ [r.text] }
      have hu : Forwards [r.text] s u := ⟨rfl, rfl⟩
      have htoken : onToken r.text s = .ok () u := rfl
      have hstep : readStream actualReplicaId workerId error onToken (r::rest) s =
          readStream actualReplicaId workerId error onToken rest u := by
        rw [readStream, if_neg hr]
        exact bind_ok htoken
      have hfails : ReplicaStream.Fails ⟨r::rest, error⟩ ↔ ReplicaStream.Fails ⟨rest, error⟩ := by
        simp [ReplicaStream.Fails, hr]
      rw [hstep, hfails]
      rcases ih u with ⟨hends, t, ht, hrun⟩ | ⟨hfail, texts, e, t, ht, hrun⟩
      · exact Or.inl ⟨hends, t, hu.trans ht, hrun⟩
      · exact Or.inr ⟨hfail, _, e, t, hu.trans ht, hrun⟩

/-- The attempt raises exactly when it fails, and releases its replica either
way. -/
theorem attemptStreaming_run (stream : ReplicaStream) {address replicaId : String} {s : State}
    (hi : replicaId ≠ "") (ha : address ≠ "") (hkey : replicaId ∈ s.handle.replicaCache.keys) :
    (¬ AttemptFails stream replicaId ∧ ∃ t, Forwards (stream.replies.map ReplicaReply.text) s t ∧
      attemptStreaming stream onToken replicaId address s = .ok () t) ∨
    (AttemptFails stream replicaId ∧ ∃ texts e t, Forwards texts s t ∧
      attemptStreaming stream onToken replicaId address s = .error e t) := by
  rw [attemptStreaming, if_neg (not_or.mpr ⟨hi, ha⟩)]
  cases hparse : parseReplicaId replicaId with
  | none => exact Or.inr ⟨Or.inl hparse, [], _, s, ⟨by simp, rfl⟩, rfl⟩
  | some parts =>
    obtain ⟨workerId, actualReplicaId⟩ := parts
    have hfails : AttemptFails stream replicaId ↔ stream.Fails := by
      simp [AttemptFails, hparse]
    have hbody : (do
        if replicaId ∈ (← get).handle.replicaCache.keys then
          readStream actualReplicaId workerId stream.error onToken stream.replies : Py Unit) s =
        readStream actualReplicaId workerId stream.error onToken stream.replies s := by
      rw [get_bind, if_pos hkey]
    rw [hfails]
    rcases readStream_run actualReplicaId workerId stream.error stream.replies s with
      ⟨hends, t, ht, hrun⟩ | ⟨hfail, texts, e, t, ht, hrun⟩
    · refine Or.inl ⟨hends, { t with handle := t.handle.finish replicaId },
        ⟨ht.yielded, ht.metrics⟩, ?_⟩
      simp only [finallyDo]
      rw [tryCatch_ok (hbody.trans hrun)]
      rfl
    · refine Or.inr ⟨hfail, texts, reraise address actualReplicaId e,
        { t with handle := t.handle.finish replicaId }, ⟨ht.yielded, ht.metrics⟩, ?_⟩
      simp only [finallyDo]
      rw [tryCatch_error (hbody.trans hrun)]
      rfl

theorem pick_none {s : State} (h : s.handle.pickNextReplica.1 = none) :
    ∃ e, pick s = .error e s := by
  unfold pick
  split
  · exact ⟨_, rfl⟩
  next heq => rw [heq] at h; cases h

theorem pick_some {s : State} {address replicaId : String}
    (h : s.handle.pickNextReplica.1 = some (address, replicaId)) :
    ∃ handle, pick s = .ok (address, replicaId) { s with handle := handle } ∧
      replicaId ∈ handle.replicaCache.keys := by
  cases hmin : LeastScan.firstMin (fun r => s.handle.count r.replicaId)
      (s.handle.replicas.filter (fun r => r.state = "RUNNING")) with
  | none =>
    simp only [pickNextReplica, hmin] at h
    cases h
  | some selected =>
    simp only [pickNextReplica, hmin] at h
    cases h
    let counted : DeploymentHandle :=
      { s.handle with
        replicaCache :=
          s.handle.replicaCache.set selected.replicaId (s.handle.count selected.replicaId+1) }
    refine ⟨counted, ?_, Dict.mem_keys.mpr ⟨_, Dict.get_set_self _ _ _⟩⟩
    simp only [pick, pickNextReplica, hmin]
    rfl

/-- A request whose attempt is made returns, also when the attempt fails. -/
theorem sendRequest_attempted (stream : ReplicaStream) {address replicaId : String} {s : State}
    (h : Attempted s.handle address replicaId) :
    ∃ texts t, Forwards texts s t ∧ sendRequest stream onToken s = .ok () t ∧
      (¬ AttemptFails stream replicaId → texts = stream.replies.map ReplicaReply.text) := by
  obtain ⟨hpick, hi, ha⟩ := h
  obtain ⟨handle, hrun, hkey⟩ := pick_some hpick
  let u : State := { s with handle := handle }
  have hgood : replicaId ≠ "" ∧ address ≠ "" := ⟨hi, ha⟩
  have hsend : sendRequest stream onToken s =
      tryCatch (attemptStreaming stream onToken replicaId address) (fun _ => pure ()) u := by
    rw [sendRequest, bind_ok hrun]
    exact congrFun (if_pos hgood) u
  rcases attemptStreaming_run stream (s := u) hi ha hkey with
    ⟨-, t, ht, hok⟩ | ⟨hfail, texts, e, t, ht, herr⟩
  · exact ⟨stream.replies.map ReplicaReply.text, t, ⟨ht.yielded, ht.metrics⟩,
      hsend.trans (tryCatch_ok hok), fun _ => rfl⟩
  · exact ⟨texts, t, ⟨ht.yielded, ht.metrics⟩, hsend.trans (tryCatch_error herr),
      fun hends => absurd hfail hends⟩

theorem sendRequest_unattempted (stream : ReplicaStream) {s : State}
    (h : ∀ address replicaId, ¬ Attempted s.handle address replicaId) :
    ∃ e t, Forwards [] s t ∧ sendRequest stream onToken s = .error e t := by
  cases hpick : s.handle.pickNextReplica.1 with
  | none =>
    obtain ⟨e, he⟩ := pick_none hpick
    exact ⟨e, s, ⟨by simp, rfl⟩, bind_error he⟩
  | some picked =>
    obtain ⟨address, replicaId⟩ := picked
    obtain ⟨handle, hrun, -⟩ := pick_some hpick
    have hbad : ¬ (replicaId ≠ "" ∧ address ≠ "") := fun hgood => h address replicaId ⟨hpick, hgood⟩
    refine ⟨.exception "No valid replicas found", { s with handle := handle }, ⟨by simp, rfl⟩, ?_⟩
    rw [sendRequest, bind_ok hrun]
    exact congrFun (if_neg hbad) _

theorem recordSuccess_run (deploymentName : String) (s : State) :
    ∃ t, recordSuccess deploymentName s = .ok () t ∧ t.yielded = s.yielded ∧
      counts t.metrics = counts s.metrics ++ [(deploymentName, "success")] := by
  obtain ⟨handle, firstTokenReceived, yielded, metrics⟩ := s
  cases firstTokenReceived with
  | false => exact ⟨_, rfl, rfl, by simp [counts]⟩
  | true => exact ⟨_, rfl, rfl, by simp [counts]⟩

theorem recordError_run (deploymentName : String) (s : State) :
    ∃ t, recordError deploymentName s = .ok () t ∧ t.yielded = s.yielded ++ [retryText] ∧
      counts t.metrics = counts s.metrics ++ [(deploymentName, "error")] :=
  ⟨_, rfl, rfl, by simp [counts]⟩

section
variable {routingTable : Dict String DeploymentHandle} {deploymentName : String}
  {handle : DeploymentHandle} (hk : routingTable.get deploymentName = some handle)
  (stream : ReplicaStream)
include hk

theorem streamGenerator_known {t : State}
    (h : forward deploymentName stream (start handle) = .ok () t) :
    streamGenerator routingTable deploymentName stream = (t.yielded, t.metrics) := by
  simp only [streamGenerator, hk, h, finalState]

/-- A request whose attempt is made is reported as a success. -/
theorem generator_attempted {address replicaId : String} (h : Attempted handle address replicaId) :
    counts (streamGenerator routingTable deploymentName stream).2 = [(deploymentName, "success")] ∧
      (¬ AttemptFails stream replicaId →
        (streamGenerator routingTable deploymentName stream).1 =
          stream.replies.map ReplicaReply.text) := by
  obtain ⟨texts, t, ht, hsend, htexts⟩ :=
    sendRequest_attempted stream (s := start handle) h
  obtain ⟨u, hrecord, hyielded, hcounts⟩ := recordSuccess_run deploymentName t
  rw [streamGenerator_known hk stream (tryCatch_ok ((bind_ok hsend).trans hrecord)), hcounts,
    ht.metrics, hyielded, ht.yielded]
  exact ⟨rfl, htexts⟩

theorem generator_unattempted (h : ∀ address replicaId, ¬ Attempted handle address replicaId) :
    counts (streamGenerator routingTable deploymentName stream).2 = [(deploymentName, "error")] ∧
      (streamGenerator routingTable deploymentName stream).1 = [retryText] := by
  obtain ⟨e, t, ht, hsend⟩ := sendRequest_unattempted stream (s := start handle) h
  obtain ⟨u, hrecord, hyielded, hcounts⟩ := recordError_run deploymentName t
  rw [streamGenerator_known hk stream ((tryCatch_error (bind_error hsend)).trans hrecord), hcounts,
    ht.metrics, hyielded, ht.yielded]
  exact ⟨rfl, rfl⟩

end

theorem Attempted.unique {handle : DeploymentHandle}
    {address address' replicaId replicaId' : String}
    (h : Attempted handle address replicaId) (h' : Attempted handle address' replicaId') :
    address = address' ∧ replicaId = replicaId' :=
  Prod.mk.inj (Option.some.inj (h.1.symm.trans h'.1))

/-- Failures are reported exactly for the requests whose attempt, if one is
made, does not fail. -/
theorem failures_reported_iff (routingTable : Dict String DeploymentHandle)
    (deploymentName : String) (handle : DeploymentHandle) (stream : ReplicaStream)
    (hk : routingTable.get deploymentName = some handle) :
    Reports routingTable deploymentName handle stream ↔
      ∀ address replicaId, Attempted handle address replicaId →
        ¬ AttemptFails stream replicaId := by
  constructor
  · intro hreports address replicaId hattempt hfail
    have hfails : RequestFails handle stream := by
      intro address' replicaId' hattempt'
      obtain ⟨-, rfl⟩ := hattempt.unique hattempt'
      exact hfail
    have herror := (hreports.failed hfails).1
    rw [(generator_attempted hk stream hattempt).1] at herror
    simp at herror
  · intro h
    by_cases hattempts : ∃ address replicaId, Attempted handle address replicaId
    · obtain ⟨address, replicaId, hattempt⟩ := hattempts
      obtain ⟨hcounts, htexts⟩ := generator_attempted hk stream hattempt
      have hends := h address replicaId hattempt
      exact ⟨fun hfails => absurd (hfails address replicaId hattempt) hends,
        fun _ => ⟨hcounts, htexts hends⟩⟩
    · have hnone : ∀ address replicaId, ¬ Attempted handle address replicaId :=
        fun address replicaId hattempt => hattempts ⟨address, replicaId, hattempt⟩
      obtain ⟨hcounts, htexts⟩ := generator_unattempted hk stream hnone
      refine ⟨fun _ => ⟨hcounts, by rw [htexts]; rfl⟩, fun hfails => absurd ?_ hfails⟩
      exact fun address replicaId hattempt => absurd hattempt (hnone address replicaId)

def sampleHandle : DeploymentHandle :=
  .ofInfo 1 ⟨1, "/chat", "1", "ACTIVE", [⟨"1#1", "10.0.0.1:50101", "RUNNING"⟩]⟩

def sampleTable : Dict String DeploymentHandle := Dict.empty.set "/chat" sampleHandle

theorem sampleTable_get : sampleTable.get "/chat" = some sampleHandle := Dict.get_set_self _ _ _

theorem failures_reported_iff_sample :
    Reports sampleTable "/chat" sampleHandle ⟨[⟨"ok", false⟩], none⟩ ↔
      ∀ address replicaId, Attempted sampleHandle address replicaId →
        ¬ AttemptFails ⟨[⟨"ok", false⟩], none⟩ replicaId :=
  failures_reported_iff sampleTable "/chat" sampleHandle _ sampleTable_get

/-- The engine fails after the text `ok`; the request is counted as a success
and no retry is asked for. -/
theorem flagged_reply_unreported :
    let stream : ReplicaStream := ⟨[⟨"ok", false⟩, ⟨"engine died", true⟩], none⟩
    RequestFails sampleHandle stream ∧ ¬ Reports sampleTable "/chat" sampleHandle stream ∧
      (streamGenerator sampleTable "/chat" stream).1 = ["ok"] ∧
      counts (streamGenerator sampleTable "/chat" stream).2 = [("/chat", "success")] := by
  intro stream
  have hattempt : Attempted sampleHandle "10.0.0.1:50101" "1#1" := ⟨by decide, by decide, by decide⟩
  have hfails : RequestFails sampleHandle stream := fun _ _ _ =>
    Or.inr (Or.inl ⟨⟨"engine died", true⟩, by simp [stream], rfl⟩)
  have hcounts := (generator_attempted sampleTable_get stream hattempt).1
  refine ⟨hfails, fun hreports => ?_, by decide, hcounts⟩
  have herror := (hreports.failed hfails).1
  rw [hcounts] at herror
  simp at herror

end ServingSystem.PythonProxy.StreamGenerator
