import ServingSystem.ChunkRoundTrip
import ServingSystem.ErrorReplies
import ServingSystem.ReplicaMetrics
import ServingSystem.SessionOutcomes

/-!
# The answers of the two proxies

One request at the C++ proxy and at the Python proxy, which know the same
deployment and make the same call to a replica: what the client reads,
how the request is counted and whether a first token is timed. At last the
call is that of a replica which has answered with all its engine generated.
-/

set_option autoImplicit false

namespace ServingSystem.ProxyAnswers
open Proxy HttpSession ErrorReplies SessionMetrics ChunkedCoding StateExcept
open Proxy.ChunkRoundTrip (EmptyLast)
open PythonProxy.StreamGenerator (ReplicaStream streamGenerator counts retryText)
open PythonProxy.Sessions (Malformed succeeded streamGenerator_eq)

def encode (r : PythonProxy.StreamGenerator.ReplicaReply) : ReplicaReply :=
  ⟨utf8 r.text.toList, r.isError⟩

/-- Both stubs read the same replies, and none of a call that does not start;
how the call ends is left open. -/
structure SameCall (rpc : Rpc) (stream : ReplicaStream) : Prop where
  replies : rpc.replies = stream.replies.map encode
  unstarted : rpc.started = false → rpc.replies = []

structure SameRequest (env : Env) (req : Request) (h : Handling)
    (routingTable : Dict String PythonProxy.DeploymentHandle)
    (handle : PythonProxy.DeploymentHandle) (stream : ReplicaStream) : Prop where
  known : Known env req h
  found : routingTable.get req.target = some handle
  picked : h.picked = none ↔ handle.pickNextReplica.1 = none
  wellFormed : ∀ address id, handle.pickNextReplica.1 = some (address, id) →
    ¬ Malformed address id
  call : SameCall h.rpc stream

def body (bytes : Bytes) : Option Bytes :=
  (splitHead bytes).map (fun message => (decode message.2).1)

def bodyOf (texts : List String) : Bytes := (texts.map (fun text => utf8 text.toList)).flatten

def timesFirstToken : PythonProxy.StreamGenerator.Metric → Bool
  | .firstTokenLatency _ => true
  | _ => false

def unflagged (replies : List ReplicaReply) : List ReplicaReply :=
  replies.takeWhile (fun r => !r.isError)

/-- An empty text, at which the chunked body ends, hides nothing that the
generator yields, and the first flagged reply is empty or hidden by one. -/
structure SameTexts (replies : List ReplicaReply) : Prop where
  emptyLast : EmptyLast ((unflagged replies).map ReplicaReply.text)
  hidden : ∀ r, replies.find? ReplicaReply.isError = some r →
    r.text = [] ∨ ∃ x ∈ unflagged replies, x.text = []

theorem sameTexts_iff (replies : List ReplicaReply) :
    ((replies.map ReplicaReply.text).takeWhile (fun text => text ≠ [])).flatten =
      ((unflagged replies).map ReplicaReply.text).flatten ↔ SameTexts replies := by
  induction replies with
  | nil => exact iff_of_true rfl ⟨List.Pairwise.nil, fun _ h => nomatch h⟩
  | cons r rest ih =>
    cases he : r.isError with
    | true =>
      have hu : unflagged (r::rest) = [] := by simp [unflagged, he]
      have hf : (r::rest).find? ReplicaReply.isError = some r := by simp [he]
      constructor
      · intro h
        refine ⟨hu ▸ List.Pairwise.nil, fun x hx => ?_⟩
        obtain rfl := Option.some.inj (hf.symm.trans hx)
        by_contra hne
        simp_all
      · intro h
        have hnil : r.text = [] := by simpa [hu] using h.hidden r hf
        simp [hu, hnil]
    | false =>
      have hu : unflagged (r::rest) = r::unflagged rest := by simp [unflagged, he]
      have hf : (r::rest).find? ReplicaReply.isError = rest.find? ReplicaReply.isError := by
        simp [he]
      by_cases ht : r.text = []
      · have hempty : ((unflagged rest).map ReplicaReply.text).flatten = [] ↔
            ∀ text ∈ (unflagged rest).map ReplicaReply.text, text = [] := List.flatten_eq_nil_iff
        constructor
        · intro h
          rw [List.map_cons, ht, List.takeWhile_cons_of_neg (by simp), hu, List.map_cons, ht,
            List.flatten_cons] at h
          have hall := hempty.mp h.symm
          refine ⟨?_, fun _ _ => Or.inr ⟨r, hu ▸ List.mem_cons_self, ht⟩⟩
          rw [hu, List.map_cons, EmptyLast, List.pairwise_cons]
          exact ⟨fun b hb _ => hall b hb,
            List.pairwise_of_forall_mem_list (fun _ _ b hb _ => hall b hb)⟩
        · intro h
          have hlast := h.emptyLast
          rw [hu, List.map_cons, EmptyLast, List.pairwise_cons] at hlast
          have hall := hempty.mpr (fun text hm => hlast.1 text hm ht)
          simp [hu, ht, hall]
      · have hsame : SameTexts (r::rest) ↔ SameTexts rest := by
          constructor
          · intro h
            have hlast := h.emptyLast
            rw [hu, List.map_cons, EmptyLast, List.pairwise_cons] at hlast
            refine ⟨hlast.2, fun x hx => ?_⟩
            simpa [hu, ht] using h.hidden x (hf.trans hx)
          · intro h
            refine ⟨?_, fun x hx => ?_⟩
            · rw [hu, List.map_cons, EmptyLast, List.pairwise_cons]
              exact ⟨fun _ _ hn => absurd hn ht, h.emptyLast⟩
            · simpa [hu, ht] using h.hidden x (hf.symm.trans hx)
        rw [hsame, ← ih, hu]
        simp [ht]

section
variable {env : Env} {req : Request} {h : Handling}
  {routingTable : Dict String PythonProxy.DeploymentHandle}
  {handle : PythonProxy.DeploymentHandle} {stream : ReplicaStream}

theorem body_known (hk : Known env req h) : body (written env none) =
    some ((delivered h).takeWhile (fun text => text ≠ [])).flatten := by
  obtain ⟨head, hsplit, -⟩ := okHead_split req.version
  obtain ⟨rest, hchunks⟩ := chunks_takeWhile (delivered h) [0]
  have hne : ∀ text ∈ (delivered h).takeWhile (fun text => text ≠ []), text ≠ [] := by
    intro text ht
    simpa using List.mem_takeWhile_imp ht
  have hwritten : written env none =
      okHead req.version ++ ((delivered h).flatMap chunk ++ lastChunk ++ [0]) := by
    rw [written_known hk]
    simp only [clip, terminator, List.append_assoc]
  rw [body, hwritten, splitHead_append _ hsplit, hchunks, Option.map_some, List.nil_append,
    List.append_assoc, decode_chunks hne, decode_lastChunk, List.append_nil]

theorem counted_known (hk : Known env req h) :
    counted (finalState (httpSession env (start none))) =
      [(req.target, if Fails h then "error" else "success")] := by
  by_cases hf : Fails h
  · obtain ⟨e, t, ht⟩ := sendRequest_throws hf (headed req)
    have hkeep := keeps_tally (sendRequest_ledger h.picked h.rpc) (headed req)
    rw [ht] at hkeep
    obtain ⟨hname, hcount⟩ := Prod.mk.inj hkeep
    have hguarded := hk.guarded_raised (asyncWrite_headed req) ht
    rw [httpSession_unserved hguarded, counted, epilogue_metrics, List.filterMap_append, if_pos hf]
    have hfailed : counted (failed t) = [(req.target, "error")] := by
      show counted (finalState (recordOutcome "error" t)) = _
      rw [recordOutcome_counted]
      exact hcount ▸ hname ▸ rfl
    rw [← hfailed, ← List.append_nil (counted (failed t))]
    rfl
  · obtain ⟨picked, started, replies, status⟩ := h
    obtain ⟨hpicked, hstarted, hok⟩ : picked ≠ none ∧ started = true ∧ status.ok = true := by
      simpa [Fails] using hf
    obtain ⟨connection, rfl⟩ := Option.ne_none_iff_exists'.mp hpicked
    obtain rfl := hstarted
    rw [counted_session hk, hok, if_neg hf]
    rfl

theorem SameCall.delivered_eq (hc : SameCall h.rpc stream) (hp : h.picked ≠ none) :
    delivered h = (stream.replies.map encode).map ReplicaReply.text := by
  rw [delivered, ← hc.replies]
  cases hs : h.rpc.started with
  | true => rw [if_pos ⟨Option.isSome_iff_ne_none.mpr hp, rfl⟩]
  | false => simp [hc.unstarted hs]

/-- Without a replica the generator fails; with one it succeeds, whatever
becomes of its call. -/
theorem SameRequest.generated (hs : SameRequest env req h routingTable handle stream) :
    (h.picked = none → streamGenerator routingTable req.target stream =
      PythonProxy.Sessions.failed req.target) ∧
    (h.picked ≠ none → streamGenerator routingTable req.target stream =
      succeeded req.target (PythonProxy.Sessions.tokens stream.replies)) := by
  obtain ⟨hnone, hsome⟩ := streamGenerator_eq hs.found stream
  cases hp : handle.pickNextReplica.1 with
  | none => exact ⟨fun _ => hnone hp, fun h => absurd (hs.picked.mpr hp) h⟩
  | some pick =>
    obtain ⟨address, id⟩ := pick
    have hwell := hs.wellFormed address id hp
    refine ⟨fun h => ?_, fun _ => ?_⟩
    · cases hp.symm.trans (hs.picked.mp h)
    · rw [hsome address id hp, if_neg (fun hbad => hwell (Or.inl hbad)),
        if_neg (fun hparse => hwell (Or.inr hparse))]

theorem bodyOf_tokens (replies : List PythonProxy.StreamGenerator.ReplicaReply) :
    bodyOf (PythonProxy.Sessions.tokens replies) =
      ((unflagged (replies.map encode)).map ReplicaReply.text).flatten := by
  rw [bodyOf, PythonProxy.Sessions.tokens, unflagged, List.takeWhile_map, List.map_map,
    List.map_map]
  rfl

theorem SameRequest.bodies_iff (hs : SameRequest env req h routingTable handle stream)
    (hp : h.picked ≠ none) : body (written env none) =
      some (bodyOf (streamGenerator routingTable req.target stream).1) ↔
        SameTexts (stream.replies.map encode) := by
  rw [body_known hs.known, hs.generated.2 hp, hs.call.delivered_eq hp, succeeded, bodyOf_tokens,
    Option.some_inj, sameTexts_iff]

end

/-- The clients read the same text, the requests are counted alike, and first
tokens are timed alike, exactly under these conditions. -/
structure Compared (env : Env) (req : Request) (h : Handling)
    (routingTable : Dict String PythonProxy.DeploymentHandle) (stream : ReplicaStream) : Prop where
  bodies : body (written env none) =
    some (bodyOf (streamGenerator routingTable req.target stream).1) ↔
      h.picked ≠ none ∧ SameTexts (stream.replies.map encode)
  counts : counted (finalState (httpSession env (start none))) =
    counts (streamGenerator routingTable req.target stream).2 ↔ h.picked = none ∨ ¬ Fails h
  firstTokens : (timings (finalState (httpSession env (start none)))).1 =
    (streamGenerator routingTable req.target stream).2.countP timesFirstToken ↔
      h.picked ≠ none ∧ (unflagged (stream.replies.map encode) ≠ [] ∨
        stream.replies = [] ∧ ¬ Fails h)

theorem counts_failed (deploymentName : String) :
    counts (PythonProxy.Sessions.failed deploymentName).2 = [(deploymentName, "error")] := rfl

theorem counts_succeeded (deploymentName : String) (texts : List String) :
    counts (succeeded deploymentName texts).2 = [(deploymentName, "success")] := by
  cases texts <;> rfl

theorem succeeded_firstToken (deploymentName : String) (texts : List String) :
    (succeeded deploymentName texts).2.countP timesFirstToken = if texts = [] then 0 else 1 := by
  cases texts <;> rfl

theorem tokens_eq_nil (replies : List PythonProxy.StreamGenerator.ReplicaReply) :
    PythonProxy.Sessions.tokens replies = [] ↔ unflagged (replies.map encode) = [] := by
  rw [PythonProxy.Sessions.tokens, unflagged, List.takeWhile_map, List.map_eq_nil_iff,
    List.map_eq_nil_iff]
  rfl

theorem answers_compared (env : Env) (req : Request) (h : Handling)
    (routingTable : Dict String PythonProxy.DeploymentHandle)
    (handle : PythonProxy.DeploymentHandle) (stream : ReplicaStream)
    (hs : SameRequest env req h routingTable handle stream) :
    Compared env req h routingTable stream := by
  obtain ⟨hnone, hsome⟩ := hs.generated
  by_cases hp : h.picked = none
  · have hdelivered : delivered h = [] := by simp [delivered, hp]
    have hfails : Fails h := Or.inl hp
    refine ⟨?_, ?_, ?_⟩
    · rw [body_known hs.known, hnone hp, hdelivered]
      have hretry : some ([] : Bytes) ≠ some (bodyOf [retryText]) := by decide
      exact iff_of_false hretry (fun hboth => hboth.1 hp)
    · rw [counted_known hs.known, hnone hp, counts_failed, if_pos hfails]
      exact iff_of_true rfl (Or.inl hp)
    · rw [session_timings hs.known, hnone hp, if_neg (fun hboth => hboth.2 hfails)]
      exact iff_of_false Nat.one_ne_zero (fun hboth => hboth.1 hp)
  · have hdelivered := hs.call.delivered_eq hp
    refine ⟨?_, ?_, ?_⟩
    · rw [hs.bodies_iff hp]
      exact (and_iff_right hp).symm
    · rw [counted_known hs.known, hsome hp, counts_succeeded]
      by_cases hf : Fails h <;> simp [hf, hp]
    · rw [session_timings hs.known, hsome hp, succeeded_firstToken, hdelivered]
      simp only [tokens_eq_nil, List.map_eq_nil_iff]
      by_cases hr : stream.replies = []
      · by_cases hf : Fails h <;> simp [hr, hf, hp, unflagged]
      · by_cases hu : unflagged (stream.replies.map encode) = [] <;> simp [hr, hu, hp]

def brokenCall : ReplicaStream := ⟨[⟨"ok", false⟩, ⟨"[PYTHON ERROR] engine died", true⟩], none⟩

def brokenHandling : Handling := streamed ⟨0, "1#1", none⟩ failedGeneration finished

theorem brokenCall_same : SameRequest (sampleEnv brokenHandling) sampleRequest brokenHandling
    PythonProxy.StreamGenerator.sampleTable PythonProxy.StreamGenerator.sampleHandle
    brokenCall where
  known := sampleEnv_known _
  found := PythonProxy.StreamGenerator.sampleTable_get
  picked := by decide
  wellFormed := by
    intro address id hp
    have hpick : PythonProxy.StreamGenerator.sampleHandle.pickNextReplica.1 =
        some ("10.0.0.1:50101", "1#1") := by decide
    obtain ⟨rfl, rfl⟩ := Prod.mk.inj (Option.some.inj (hpick.symm.trans hp))
    unfold Malformed
    decide
  call := ⟨by decide, fun h => nomatch h⟩

theorem answers_compared_sample : Compared (sampleEnv brokenHandling) sampleRequest brokenHandling
    PythonProxy.StreamGenerator.sampleTable brokenCall :=
  answers_compared _ _ _ _ _ _ brokenCall_same

open ErrorFlags (pieces)
open TokenPipeline (errorMark reply)
open ReplicaMetrics (generation raised errorTexts)

theorem pieces_ne_nil (sent : ℕ) (outputs : List (Option (List Char))) :
    ∀ piece ∈ pieces sent outputs, piece ≠ [] := by
  induction outputs generalizing sent with
  | nil => simp [pieces]
  | cons output rest ih =>
    cases output with
    | none => simp [pieces]
    | some currentText =>
      rw [pieces]
      split
      next hnew => exact List.forall_mem_cons.mpr ⟨hnew, ih currentText.length⟩
      next => exact ih sent

theorem errorTexts_marked (r : Option ReplicaManager.Raised) :
    ∀ text ∈ errorTexts r, errorMark <+: text := by
  rcases r with - | ⟨- | -, - | message⟩ <;> simp [errorTexts]

theorem sameTexts_nonempty {replies : List ReplicaReply} (h : ∀ r ∈ replies, r.text ≠ []) :
    SameTexts replies ↔ ∀ r ∈ replies, r.isError = false := by
  have hmem : ∀ x ∈ unflagged replies, x.text ≠ [] := fun x hx =>
    h x ((List.takeWhile_prefix _).subset hx)
  constructor
  · intro hs r hr
    by_contra he
    obtain ⟨x, hx⟩ := Option.isSome_iff_exists.mp
      (List.find?_isSome.mpr ⟨r, hr, by simpa using he⟩)
    rcases hs.hidden x hx with hnil | ⟨y, hy, hnil⟩
    · exact h x (List.mem_of_find?_eq_some hx) hnil
    · exact hmem y hy hnil
  · intro hu
    refine ⟨?_, fun r hr => ?_⟩
    · rw [EmptyLast, List.pairwise_map]
      exact List.pairwise_of_forall_mem_list (fun a ha _ _ hnil => absurd hnil (hmem a ha))
    · have hflag := List.find?_some hr
      rw [hu r (List.mem_of_find?_eq_some hr)] at hflag
      cases hflag

def replies (texts : List (List Char)) : List ReplicaReply :=
  texts.map (fun text => reply (utf8 text))

theorem unflagged_replies (pieces errors : List (List Char))
    (he : ∀ text ∈ errors, errorMark <+: text) : unflagged (replies (pieces ++ errors)) =
      replies (pieces.takeWhile (fun piece => ¬ errorMark <:+: piece)) := by
  have hflag : ∀ text, (!(reply (utf8 text)).isError) = decide (¬ errorMark <:+: text) := by
    intro text
    rw [Bool.eq_iff_iff, decide_eq_true_iff, ← ErrorFlags.mark_infix_iff]
    simp
  have herrors : errors.takeWhile (fun text => ¬ errorMark <:+: text) = [] := by
    cases errors with
    | nil => rfl
    | cons text errors =>
      exact List.takeWhile_cons_of_neg (by simpa using (he text List.mem_cons_self).isInfix)
  rw [unflagged, replies, List.takeWhile_map]
  simp only [Function.comp_def, hflag]
  rw [List.takeWhile_append, herrors, List.append_nil]
  split
  next hlen => rw [(List.takeWhile_prefix _).eq_of_length hlen, replies]
  next => rfl

theorem none_flagged_iff (pieces errors : List (List Char))
    (he : ∀ text ∈ errors, errorMark <+: text) :
    (∀ r ∈ replies (pieces ++ errors), r.isError = false) ↔
      errors = [] ∧ ∀ piece ∈ pieces, ¬ errorMark <:+: piece := by
  have hflag : ∀ text, (reply (utf8 text)).isError = false ↔ ¬ errorMark <:+: text := fun text => by
    rw [← ErrorFlags.mark_infix_iff, Bool.not_eq_true]
  simp only [replies, List.forall_mem_map, List.forall_mem_append, hflag]
  constructor
  · rintro ⟨hpieces, herrors⟩
    refine ⟨List.eq_nil_iff_forall_not_mem.mpr (fun text ht => ?_), hpieces⟩
    exact herrors text ht (he text ht).isInfix
  · rintro ⟨rfl, hpieces⟩
    exact ⟨hpieces, fun _ h => nomatch h⟩

theorem replies_texts (texts : List (List Char)) :
    ((replies texts).map ReplicaReply.text).flatten = utf8 texts.flatten := by
  rw [replies, List.map_map, ← TokenPipeline.utf8_flatten]
  rfl

theorem returned_replies {texts : List (List Char)} {s : ClosedQueue.State}
    (hi : ClosedQueue.Inv texts s) (h : s.server = .returned) : s.replies = replies texts := by
  obtain ⟨hclosed, hitems⟩ := hi.returned h
  have hpending : s.pending = [] := by
    rcases hi.pending with ⟨hopen, -⟩ | ⟨-, hp⟩
    · cases hclosed.symm.trans hopen
    · exact hp
  have hflow := hi.flow (by simp [h])
  rw [h, hpending, hitems] at hflow
  simpa [ClosedQueue.Server.held, replies] using hflow

/-- What the clients read of a generation and how it is counted: the error
text and a piece with its mark are an answer for one of them and the end of
the answer for the other. -/
structure GeneratedAnswers (env : Env) (req : Request)
    (routingTable : Dict String PythonProxy.DeploymentHandle) (stream : ReplicaStream)
    (pieces errors : List (List Char)) : Prop where
  read : body (written env none) = some (utf8 (pieces ++ errors).flatten)
  yielded : bodyOf (streamGenerator routingTable req.target stream).1 =
    utf8 (pieces.takeWhile (fun piece => ¬ errorMark <:+: piece)).flatten
  alike : body (written env none) =
    some (bodyOf (streamGenerator routingTable req.target stream).1) ↔
      errors = [] ∧ ∀ piece ∈ pieces, ¬ errorMark <:+: piece
  counted : counted (finalState (httpSession env (start none))) = [(req.target, "success")] ∧
    counts (streamGenerator routingTable req.target stream).2 = [(req.target, "success")]

theorem generated_answers (m : ReplicaManager.Manager) (prompt : List Char) (requestId : String)
    (outputs : List (Option (List Char))) (ending : Option ReplicaManager.Raised)
    (hg : generation m (ClosedQueue.formatted prompt) requestId = some (outputs, ending))
    (as : List ClosedQueue.Act) (s : ClosedQueue.State)
    (hr : Runs.exec ClosedQueue.step as (ClosedQueue.start
      (ReplicaManager.produced m (ClosedQueue.formatted prompt) requestId)) = some s)
    (hreturned : s.server = .returned) (env : Env) (req : Request)
    (connection : ReplicaConnection) (status : Status) (hok : status.ok = true)
    (routingTable : Dict String PythonProxy.DeploymentHandle)
    (handle : PythonProxy.DeploymentHandle) (stream : ReplicaStream)
    (hs : SameRequest env req (streamed connection s.replies status) routingTable handle stream) :
    GeneratedAnswers env req routingTable stream (pieces 0 outputs)
      (errorTexts (raised outputs ending)) := by
  have hreplies : s.replies = replies (pieces 0 outputs ++ errorTexts (raised outputs ending)) := by
    rw [(ReplicaMetrics.generateStream_final hg).1] at hr
    exact returned_replies
      (Runs.exec_invariant ClosedQueue.step_inv (ClosedQueue.start_inv _) hr) hreturned
  have hmarked := errorTexts_marked (raised outputs ending)
  have hpieces := pieces_ne_nil 0 outputs
  generalize pieces 0 outputs = pieces, errorTexts (raised outputs ending) = errors at *
  have hpicked : (streamed connection s.replies status).picked ≠ none := Option.some_ne_none _
  have hstream : stream.replies.map encode = replies (pieces ++ errors) :=
    hs.call.replies.symm.trans hreplies
  have htexts : ∀ text ∈ pieces ++ errors, text ≠ [] := by
    intro text ht
    rcases List.mem_append.mp ht with ht | ht
    · exact hpieces text ht
    · rintro rfl
      exact absurd (List.prefix_nil.mp (hmarked [] ht)) (by decide)
  have hne : ∀ r ∈ replies (pieces ++ errors), r.text ≠ [] := by
    intro r hr
    obtain ⟨text, ht, rfl⟩ := List.mem_map.mp hr
    exact TokenPipeline.utf8_ne_nil (htexts text ht)
  have hends : ¬ Fails (streamed connection s.replies status) := by simp [Fails, streamed, hok]
  refine ⟨?_, ?_, ?_, ?_, ?_⟩
  · have hall : ((replies (pieces ++ errors)).map ReplicaReply.text).takeWhile
        (fun text => text ≠ []) = (replies (pieces ++ errors)).map ReplicaReply.text := by
      rw [List.takeWhile_eq_self_iff]
      intro text ht
      obtain ⟨r, hr, rfl⟩ := List.mem_map.mp ht
      simpa using hne r hr
    rw [body_known hs.known, hs.call.delivered_eq hpicked, hstream, hall, replies_texts]
  · rw [hs.generated.2 hpicked, succeeded, bodyOf_tokens, hstream, unflagged_replies _ _ hmarked,
      replies_texts]
  · rw [hs.bodies_iff hpicked, hstream, sameTexts_nonempty hne]
    exact none_flagged_iff _ _ hmarked
  · rw [counted_known hs.known, if_neg hends]
  · rw [hs.generated.2 hpicked, counts_succeeded]

def failing : ReplicaManager.Manager where
  deploymentName := "/chat"
  deploymentId := 1
  metricsPort := 9001
  modelId := "TinyLlama/TinyLlama-1.1B-Chat-v1.0"
  engine := some (fun _ _ _ =>
    .yields [some "ok".toList] (some (ReplicaManager.exception "engine died")))

theorem generated_answers_sample : GeneratedAnswers (sampleEnv brokenHandling) sampleRequest
    PythonProxy.StreamGenerator.sampleTable brokenCall ["ok".toList]
    ["[PYTHON ERROR] engine died".toList] :=
  generated_answers failing ['h', 'i'] "request" _ _ rfl
    [.put, .put, .put, .get, .write true, .get, .write true, .get] _ rfl rfl _ _ ⟨0, "1#1", none⟩
    finished rfl _ _ _ brokenCall_same

end ServingSystem.ProxyAnswers
