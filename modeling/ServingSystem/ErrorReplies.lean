import ServingSystem.SessionMetrics

/-!
# Replies flagged as errors

What a session does with a reply stream in which some replies carry
`is_error`, against the Python handle, whose attempt raises at the first of
them. The request is for a known deployment, its call starts and its client
accepts every write.
-/

set_option autoImplicit false

namespace ServingSystem.Proxy.ErrorReplies
open ChunkedCoding HttpSession SessionMetrics StateExcept

/-- The loop of `_attempt_streaming_request_to_worker_node`: the texts it
yields, and whether it raises. -/
def streamReplies : List ReplicaReply → List Bytes × Bool
  | [] => ([], false)
  | reply::rest =>
    if reply.isError then ([], true)
    else
      let out := streamReplies rest
      (reply.text::out.1, out.2)

def streamed (connection : ReplicaConnection) (replies : List ReplicaReply) (status : Status) :
    Handling := ⟨some connection, ⟨true, replies, status⟩⟩

def counted (s : Session) : List (String × String) :=
  s.metrics.filterMap (fun metric =>
    match metric with
    | .requestCount deploymentName status => some (deploymentName, status)
    | _ => none)

/-- The client gets the texts the Python handle yields, and the request is
counted as a success when the Python attempt ends without an error. -/
structure HeedsErrors (env : Env) (req : Request) (replies : List ReplicaReply)
    (status : Status) : Prop where
  texts : written env none =
    okHead req.version ++ (streamReplies replies).1.flatMap chunk ++ terminator
  outcome : counted (finalState (httpSession env (start none))) = [(req.target, "success")] ↔
    (∀ r ∈ replies, r.isError = false) ∧ status.ok = true

theorem streamReplies_eq (replies : List ReplicaReply) : (streamReplies replies).1 =
    (replies.takeWhile (fun r => !r.isError)).map ReplicaReply.text := by
  induction replies with
  | nil => rfl
  | cons r rest ih =>
    cases h : r.isError with
    | true => simp [streamReplies, h]
    | false => simp [streamReplies, h, ih]

theorem streamReplies_unflagged {replies : List ReplicaReply}
    (h : ∀ r ∈ replies, r.isError = false) :
    (streamReplies replies).1 = replies.map ReplicaReply.text := by
  rw [streamReplies_eq, List.takeWhile_eq_self_iff.mpr (fun r hr => by simp [h r hr])]

/-- Chunks are never empty, so dropping one shows on the wire. -/
theorem chunks_streamReplies {replies : List ReplicaReply} (h : (streamReplies replies).1.flatMap
    chunk = (replies.map ReplicaReply.text).flatMap chunk) : ∀ r ∈ replies, r.isError = false := by
  induction replies with
  | nil => simp
  | cons r rest ih =>
    cases hr : r.isError with
    | true =>
      simp [streamReplies, hr, chunk, crlf] at h
    | false =>
      simp only [streamReplies, hr, Bool.false_eq_true, if_false, List.map_cons,
        List.flatMap_cons] at h
      have hrest := ih (List.append_cancel_left h)
      intro x hx
      rcases List.mem_cons.mp hx with rfl | hx
      · exact hr
      · exact hrest x hx

def tally (s : Session) : String × List (String × String) := (s.deploymentName, counted s)

theorem counted_accounts (s : Session) : counted s =
    (accounts s).filterMap (fun metric =>
      match metric with
      | .requestCount deploymentName status => some (deploymentName, status)
      | _ => none) := by
  rw [counted, accounts, List.filterMap_filter]
  refine List.filterMap_congr (fun metric _ => ?_)
  cases metric <;> rfl

theorem keeps_tally {α : Type} {x : Co Session α} (h : Keeps ledger x) : Keeps tally x := by
  intro s
  obtain ⟨hname, haccounts⟩ := Prod.mk.inj (h s)
  rw [tally, counted_accounts, hname, haccounts, ← counted_accounts]
  rfl

theorem recordOutcome_counted (status : String) (s : Session) :
    counted (finalState (recordOutcome status s)) = counted s ++ [(s.deploymentName, status)] := by
  show counted { s with
    metrics := s.metrics ++ [.requestLatency s.deploymentName status] ++
      [.requestCount s.deploymentName status] } = _
  simp [counted, List.filterMap_append]

theorem sendRequest_streamed (connection : ReplicaConnection) (replies : List ReplicaReply)
    (status : Status) :
    sendRequest (handleOps (some connection)) ⟨true, replies, status⟩ onTokenReceived =
      withReleaser ((handleOps (some connection)).releaseReplica connection.info) (do
        readLoop onTokenReceived replies
        if !status.ok then
          (handleOps (some connection)).markReplicaUnhealthy connection.replicaId
          onTokenReceived (.error status)) := rfl

theorem sendRequest_tally (connection : ReplicaConnection) (replies : List ReplicaReply)
    (status : Status) : Keeps tally (sendRequest (handleOps (some connection))
      ⟨true, replies, status⟩ onTokenReceived) :=
  keeps_tally (sendRequest_ledger (some connection) ⟨true, replies, status⟩)

theorem readLoop_returns (replies : List ReplicaReply) {s : Session} (hs : s.accepts = none) :
    ∃ t, readLoop onTokenReceived replies s = .ok () t := by
  obtain ⟨hw, hd⟩ := readLoop_writes replies s
  cases hr : readLoop onTokenReceived replies s with
  | ok a t => exact ⟨t, rfl⟩
  | error e t =>
    rw [hr] at hw
    have hnone : t.accepts = none := by
      rw [show t.accepts = _ from hw.accepts, hs, Option.map_none]
    rw [hd e t hr] at hnone
    cases hnone

theorem sendRequest_returns (connection : ReplicaConnection) (replies : List ReplicaReply)
    {status : Status} (hok : status.ok = true) {s : Session} (hs : s.accepts = none) :
    ∃ t, sendRequest (handleOps (some connection)) ⟨true, replies, status⟩ onTokenReceived s =
      .ok () t := by
  obtain ⟨t, hr⟩ := readLoop_returns replies hs
  refine ⟨(handleOps (some connection)).releaseReplica connection.info t, ?_⟩
  rw [sendRequest_streamed, withReleaser, bind_ok hr, hok]
  rfl

def headed (req : Request) : Session :=
  { opened none with deploymentName := req.target, sent := okHead req.version }

theorem asyncWrite_headed (req : Request) : asyncWrite (okHead req.version)
    { opened none with deploymentName := req.target } = .ok () (headed req) := rfl

section
variable {env : Env} {req : Request} {connection : ReplicaConnection}
  {replies : List ReplicaReply} {status : Status}
  (hk : Known env req (streamed connection replies status))
include hk

/-- A stream that ends well is counted as a success, whatever it carried. -/
theorem counted_ok (hok : status.ok = true) :
    ∃ t, guarded env (opened none) = .ok false t ∧ counted t = [(req.target, "success")] := by
  obtain ⟨t, ht⟩ := sendRequest_returns connection replies hok (s := headed req) rfl
  have hkeep := sendRequest_tally connection replies status (headed req)
  rw [ht] at hkeep
  obtain ⟨hname, hcount⟩ := Prod.mk.inj hkeep
  refine ⟨_, hk.guarded_returned (asyncWrite_headed req) ht, ?_⟩
  rw [recordOutcome_counted]
  exact hcount ▸ hname ▸ rfl

theorem counted_failed (hok : status.ok = false) :
    ∃ t, guarded env (opened none) = .ok false t ∧ counted t = [(req.target, "error")] := by
  have hfails : Fails (streamed connection replies status) := Or.inr (Or.inr hok)
  obtain ⟨e, t, ht⟩ := sendRequest_throws hfails (headed req)
  change sendRequest (handleOps (some connection)) ⟨true, replies, status⟩ onTokenReceived
    (headed req) = .error e t at ht
  have hkeep := sendRequest_tally connection replies status (headed req)
  rw [ht] at hkeep
  obtain ⟨hname, hcount⟩ := Prod.mk.inj hkeep
  refine ⟨failed t, hk.guarded_raised (asyncWrite_headed req) ht, ?_⟩
  show counted (finalState (recordOutcome "error" t)) = _
  rw [recordOutcome_counted]
  exact hcount ▸ hname ▸ rfl

theorem counted_session : counted (finalState (httpSession env (start none))) =
    [(req.target, if status.ok then "success" else "error")] := by
  have hguarded : ∃ t, guarded env (opened none) = .ok false t ∧
      counted t = [(req.target, if status.ok then "success" else "error")] := by
    cases hok : status.ok with
    | true => exact counted_ok hk hok
    | false => exact counted_failed hk hok
  obtain ⟨t, ht, hc⟩ := hguarded
  rw [httpSession_unserved ht, counted, epilogue_metrics, List.filterMap_append,
    ← List.append_nil [(req.target, _)], ← hc]
  rfl

theorem written_streamed : written env none =
    okHead req.version ++ (replies.map ReplicaReply.text).flatMap chunk ++ terminator :=
  written_known hk none

end

/-- A flagged reply is forwarded like any other, and the request is counted
by the final status; so errors are heeded exactly where no reply is flagged. -/
theorem errors_heeded_iff (env : Env) (req : Request) (connection : ReplicaConnection)
    (replies : List ReplicaReply) (status : Status)
    (hk : Known env req (streamed connection replies status)) :
    HeedsErrors env req replies status ↔ ∀ r ∈ replies, r.isError = false := by
  constructor
  · intro h
    have htexts := h.texts
    rw [written_streamed hk] at htexts
    apply chunks_streamReplies
    exact (List.append_cancel_left (List.append_cancel_right htexts)).symm
  · intro h
    refine ⟨?_, ?_⟩
    · rw [written_streamed hk, streamReplies_unflagged h]
    · rw [counted_session hk]
      cases status.ok with
      | true => simpa using h
      | false => simp

def failedGeneration : List ReplicaReply :=
  [⟨utf8 "ok".toList, false⟩, ⟨utf8 "[PYTHON ERROR] engine died".toList, true⟩]

def finished : Status := ⟨0, ""⟩

theorem errors_heeded_iff_sample :
    HeedsErrors (sampleEnv (streamed ⟨0, "1#1", none⟩ (failedGeneration.take 1) finished))
      sampleRequest (failedGeneration.take 1) finished ↔
      ∀ r ∈ failedGeneration.take 1, r.isError = false :=
  errors_heeded_iff _ _ _ _ _ (sampleEnv_known _)

/-- The error text reaches the client as generated text, and the request is
counted as a success. -/
theorem flagged_reply_served :
    let env := sampleEnv (streamed ⟨0, "1#1", none⟩ failedGeneration finished)
    ¬ HeedsErrors env sampleRequest failedGeneration finished ∧
      written env none = okHead sampleRequest.version ++
        (failedGeneration.map ReplicaReply.text).flatMap chunk ++ terminator ∧
      counted (finalState (httpSession env (start none))) = [("/chat", "success")] := by
  have hk := sampleEnv_known (streamed ⟨0, "1#1", none⟩ failedGeneration finished)
  refine ⟨fun h => ?_, written_streamed hk, counted_session hk⟩
  have htexts := h.texts.symm.trans (written_streamed hk)
  have hall := chunks_streamReplies (List.append_cancel_left (List.append_cancel_right htexts))
  have hmem : ⟨utf8 "[PYTHON ERROR] engine died".toList, true⟩ ∈ failedGeneration := by
    simp [failedGeneration]
  exact Bool.noConfusion (hall _ hmem)

end ServingSystem.Proxy.ErrorReplies
