import ServingSystem.ReplicaMetrics

/-!
# The replica written in Python alone

`SendRequest` of `add_replica_vllm.py` iterates over the engine's outputs
itself: no queue, no second thread, and an error is flagged where it is
raised. Its answers are compared with those of `ReplicaServer::SendRequest`
on the same engine.
-/

set_option autoImplicit false

namespace ServingSystem.VllmReplica
open Proxy (ReplicaReply)
open Proxy.HttpSession (utf8)
open ReplicaManager (Raised SamplingParams exception)
open ErrorFlags (pieces)
open StateExcept

structure RequestOutput where
  outputs : List (List Char)
  finished : Bool
  deriving DecidableEq, Repr

inductive Generation where
  | raises (e : Raised)
  | yields (outputs : List RequestOutput) (ending : Option Raised)
  deriving DecidableEq, Repr

abbrev Engine := List Char → SamplingParams → String → Generation

structure Manager where
  deploymentName : String
  replicaId : ℕ
  engine : Option Engine

def samplingParams : SamplingParams where
  maxTokens := 500
  temperature := 7/10
  topP := some (95/100)
  stop := some ["<|end|>", "</s>"]
  includeStopStrInOutput := some false

inductive Metric where
  | firstTokenLatency (deploymentName replicaId : String)
  | requestLatency (deploymentName replicaId : String)
  | requestCount (deploymentName replicaId status : String)
  deriving DecidableEq, Repr

structure Stream where
  replies : List ReplicaReply
  sentPosition : ℕ
  firstTokenReceived : Bool
  metrics : List Metric

def fresh : Stream := ⟨[], 0, false, []⟩

def vllmMark : List Char := "[vLLM Error]".toList

section
variable (m : Manager)

def Manager.firstToken : Metric := .firstTokenLatency m.deploymentName (toString m.replicaId)

def Manager.latency : Metric := .requestLatency m.deploymentName (toString m.replicaId)

def Manager.count (status : String) : Metric :=
  .requestCount m.deploymentName (toString m.replicaId) status

def observe (metric : Metric) : EStateM Raised Stream Unit :=
  modify (fun s => { s with metrics := s.metrics ++ [metric] })

def send (text : List Char) (isError : Bool) : EStateM Raised Stream Unit :=
  modify (fun s => { s with replies := s.replies ++ [⟨utf8 text, isError⟩] })

def observeFirstToken : EStateM Raised Stream Unit := do
  if !(← get).firstTokenReceived then
    modify (fun s => { s with firstTokenReceived := true })
    observe m.firstToken

def sendNew (currentText : List Char) : EStateM Raised Stream Unit := do
  if (← get).sentPosition < currentText.length then
    observeFirstToken m
    let newText := currentText.drop (← get).sentPosition
    if newText ≠ [] then
      send newText false
      modify (fun s => { s with sentPosition := currentText.length })

def sendAll : List (List Char) → EStateM Raised Stream Unit
  | [] => pure ()
  | currentText::rest => do
    sendNew m currentText
    sendAll rest

/-- The loop over the engine's outputs: one that is finished ends it, and any
other is counted as a success. -/
def iterate (ending : Option Raised) : List RequestOutput → EStateM Raised Stream Unit
  | [] =>
    match ending with
    | none => pure ()
    | some e => throw e
  | output::rest => do
    sendAll m output.outputs
    if output.finished then pure ()
    else do
      observe (m.count "success")
      iterate ending rest

def tryBlock (formattedPrompt : List Char) (requestId : String) :
    EStateM Raised Stream Unit := do
  match m.engine with
  | none => throw (exception "'ReplicaManager' object has no attribute 'engine'")
  | some engine =>
    match engine formattedPrompt samplingParams requestId with
    | .raises e => throw e
    | .yields outputs ending => iterate m ending outputs

def exceptBlock (e : Raised) : EStateM Raised Stream Unit := do
  if !e.isException then
    throw e
  match e.message with
  | none => throw ⟨true, none⟩
  | some message =>
    send (vllmMark ++ ' '::message) true
    observe (m.count "error")

def sendRequest (prompt : List Char) (requestId : String) : EStateM Raised Stream Unit :=
  finallyDo (tryCatch (tryBlock m (ClosedQueue.formatted prompt) requestId) (exceptBlock m))
    (observe m.latency)

def answered (prompt : List Char) (requestId : String) : List ReplicaReply :=
  (finalState (sendRequest m prompt requestId fresh)).replies

end

def texts : List RequestOutput → List (List Char)
  | [] => []
  | output::rest => output.outputs ++ if output.finished then [] else texts rest

def raised (ending : Option Raised) : List RequestOutput → Option Raised
  | [] => ending
  | output::rest => if output.finished then none else raised ending rest

def successes (outputs : List RequestOutput) : ℕ :=
  (outputs.takeWhile (fun output => !output.finished)).length

def plain (text : List Char) : ReplicaReply := ⟨utf8 text, false⟩

def errorReplies : Option Raised → List ReplicaReply
  | some ⟨true, some message⟩ => [⟨utf8 (vllmMark ++ ' '::message), true⟩]
  | _ => []

def errorMetrics (m : Manager) : Option Raised → List Metric
  | some ⟨true, some _⟩ => [m.count "error"]
  | _ => []

structure Sent (m : Manager) (n : ℕ) (s : Stream) : Prop where
  first : s.firstTokenReceived = !s.replies.isEmpty
  metrics : s.metrics.Perm ((if s.replies = [] then [] else [m.firstToken]) ++
    List.replicate n (m.count "success"))

section
variable {m : Manager} {n : ℕ} {s : Stream}

theorem observeFirstToken_run (m : Manager) (s : Stream) :
    observeFirstToken m s = .ok () { s with
      firstTokenReceived := true
      metrics := if s.firstTokenReceived then s.metrics else s.metrics ++ [m.firstToken] } := by
  obtain ⟨replies, position, first, metrics⟩ := s
  cases first <;> rfl

def Stream.sent (m : Manager) (s : Stream) (text : List Char) : Stream where
  replies := s.replies ++ [plain (text.drop s.sentPosition)]
  sentPosition := text.length
  firstTokenReceived := true
  metrics := if s.firstTokenReceived then s.metrics else s.metrics ++ [m.firstToken]

theorem sendNew_new {text : List Char} (h : s.sentPosition < text.length) :
    sendNew m text s = .ok () (s.sent m text) := by
  have hne : text.drop s.sentPosition ≠ [] := by simpa using h
  rw [sendNew, get_bind, if_pos h, bind_ok (observeFirstToken_run m s), get_bind, if_pos hne]
  rfl

theorem sendNew_old {text : List Char} (h : text.length ≤ s.sentPosition) :
    sendNew m text s = .ok () s := by
  rw [sendNew, get_bind, if_neg (Nat.not_lt.mpr h)]
  rfl

theorem Sent.sent (h : Sent m n s) (text : List Char) : Sent m n (s.sent m text) where
  first := by simp [Stream.sent]
  metrics := by
    have hm := h.metrics
    cases hr : s.replies with
    | nil =>
      rw [hr, if_pos rfl, List.nil_append] at hm
      simp only [Stream.sent, h.first, hr, List.isEmpty_nil, Bool.not_true, Bool.false_eq_true,
        if_false, List.nil_append, List.cons_ne_nil, List.singleton_append]
      exact (hm.append_right _).trans (List.perm_append_singleton _ _)
    | cons r rest =>
      rw [hr, if_neg (List.cons_ne_nil _ _)] at hm
      simpa [Stream.sent, h.first, hr] using hm

/-- The pieces that are still to come make up for what was not yet sent. -/
theorem sendNew_run (h : Sent m n s) (text : List Char) :
    ∃ t, sendNew m text s = .ok () t ∧ Sent m n t ∧ ∀ rest,
      t.replies ++ (pieces t.sentPosition rest).map plain =
        s.replies ++ (pieces s.sentPosition (some text::rest)).map plain := by
  rcases Nat.lt_or_ge s.sentPosition text.length with hlt | hge
  · have hne : text.drop s.sentPosition ≠ [] := by simpa using hlt
    refine ⟨_, sendNew_new hlt, h.sent text, fun rest => ?_⟩
    rw [pieces, if_pos hne, List.map_cons, Stream.sent, List.append_assoc, List.singleton_append]
  · have hnil : ¬ text.drop s.sentPosition ≠ [] := by simpa using hge
    refine ⟨s, sendNew_old hge, h, fun rest => ?_⟩
    rw [pieces, if_neg hnil]

theorem sendAll_run (currentTexts : List (List Char)) (h : Sent m n s) :
    ∃ t, sendAll m currentTexts s = .ok () t ∧ Sent m n t ∧ ∀ rest,
      t.replies ++ (pieces t.sentPosition rest).map plain =
        s.replies ++ (pieces s.sentPosition (currentTexts.map some ++ rest)).map plain := by
  induction currentTexts generalizing s with
  | nil => exact ⟨s, rfl, h, fun _ => rfl⟩
  | cons text rest ih =>
    obtain ⟨t, ht, hsent, hpieces⟩ := sendNew_run h text
    obtain ⟨u, hu, hsent', hpieces'⟩ := ih hsent
    refine ⟨u, ?_, hsent', fun after => ?_⟩
    · rw [sendAll, bind_ok ht, hu]
    · rw [hpieces' after, hpieces, List.map_cons, List.cons_append]

theorem Sent.counted (h : Sent m n s) :
    Sent m (n+1) { s with metrics := s.metrics ++ [m.count "success"] } where
  first := h.first
  metrics := by
    rw [List.replicate_succ', ← List.append_assoc]
    exact h.metrics.append_right _

theorem iterate_run (ending : Option Raised) (outputs : List RequestOutput) (h : Sent m n s) :
    ∃ t, iterate m ending outputs s = (match raised ending outputs with
        | some e => .error e t
        | none => .ok () t) ∧ Sent m (n+successes outputs) t ∧
      t.replies = s.replies ++ (pieces s.sentPosition ((texts outputs).map some)).map plain := by
  induction outputs generalizing s n with
  | nil =>
    refine ⟨s, ?_, h, by simp [texts, pieces]⟩
    cases ending with
    | none => rfl
    | some e => rfl
  | cons output rest ih =>
    obtain ⟨t, ht, hsent, hpieces⟩ := sendAll_run output.outputs h
    cases hf : output.finished with
    | true =>
      refine ⟨t, ?_, ?_, ?_⟩
      · rw [iterate, bind_ok ht, hf, if_pos rfl, raised, hf, if_pos rfl]
        rfl
      · simpa [successes, hf] using hsent
      · have hall := hpieces []
        simpa [texts, hf, pieces] using hall
    | false =>
      obtain ⟨u, hu, hsent', hreplies⟩ := ih hsent.counted
      refine ⟨u, ?_, ?_, ?_⟩
      · rw [iterate, bind_ok ht, hf, raised, hf]
        exact hu
      · rw [successes, List.takeWhile_cons, hf]
        simpa [successes, Nat.add_assoc, Nat.add_comm 1] using hsent'
      · rw [hreplies, texts, hf, if_neg Bool.false_ne_true, List.map_append]
        exact hpieces _

end

def called (m : Manager) (formattedPrompt : List Char) (requestId : String) :
    List RequestOutput × Option Raised :=
  match m.engine with
  | none => ([], some (exception "'ReplicaManager' object has no attribute 'engine'"))
  | some engine =>
    match engine formattedPrompt samplingParams requestId with
    | .raises e => ([], some e)
    | .yields outputs ending => (outputs, ending)

theorem tryBlock_eq (m : Manager) (formattedPrompt : List Char) (requestId : String) :
    tryBlock m formattedPrompt requestId =
      iterate m (called m formattedPrompt requestId).2 (called m formattedPrompt requestId).1 := by
  rw [tryBlock, called]
  cases m.engine with
  | none => rfl
  | some engine =>
    cases hg : engine formattedPrompt samplingParams requestId with
    | raises e => simp only [hg]; rfl
    | yields outputs ending => simp only [hg]

theorem exceptBlock_final (m : Manager) (e : Raised) (s : Stream) :
    finalState (exceptBlock m e s) = { s with
      replies := s.replies ++ errorReplies (some e)
      metrics := s.metrics ++ errorMetrics m (some e) } := by
  have hkeep : s = { s with replies := s.replies ++ [], metrics := s.metrics ++ [] } := by
    simp only [List.append_nil]
  obtain ⟨isException, message⟩ := e
  cases isException with
  | false => exact hkeep
  | true =>
    cases message with
    | none => exact hkeep
    | some message => rfl

theorem handled_final {m : Manager} {x : EStateM Raised Stream Unit} {r : Option Raised}
    {s t : Stream} (hx : x s = match r with
      | some e => .error e t
      | none => .ok () t) :
    finalState (tryCatch x (exceptBlock m) s) = { t with
      replies := t.replies ++ errorReplies r
      metrics := t.metrics ++ errorMetrics m r } := by
  cases r with
  | none =>
    have hok : x s = .ok () t := hx
    simp [tryCatch_ok hok, finalState, errorReplies, errorMetrics]
  | some e => rw [tryCatch_error hx, exceptBlock_final]

theorem sendRequest_final (m : Manager) (prompt : List Char) (requestId : String)
    {outputs : List RequestOutput} {ending : Option Raised}
    (h : called m (ClosedQueue.formatted prompt) requestId = (outputs, ending)) :
    answered m prompt requestId = (pieces 0 ((texts outputs).map some)).map plain ++
        errorReplies (raised ending outputs) ∧
      (finalState (sendRequest m prompt requestId fresh)).metrics.Perm
        ((if pieces 0 ((texts outputs).map some) = [] then [] else [m.firstToken]) ++
          List.replicate (successes outputs) (m.count "success") ++
          errorMetrics m (raised ending outputs) ++ [m.latency]) := by
  have hfresh : Sent m 0 fresh := ⟨rfl, List.Perm.refl _⟩
  obtain ⟨t, ht, hsent, hreplies⟩ := iterate_run ending outputs hfresh
  have hcalled : tryBlock m (ClosedQueue.formatted prompt) requestId =
      iterate m ending outputs := by rw [tryBlock_eq, h]
  have hmetrics := hsent.metrics
  have hobserve : ∀ s : Stream, finalState (observe m.latency s) =
      { s with metrics := s.metrics ++ [m.latency] } := fun _ => rfl
  rw [answered, sendRequest, hcalled, finalState_finallyDo, handled_final ht,
    hobserve]
  simp only [hreplies, fresh, List.nil_append, Nat.zero_add, List.map_eq_nil_iff] at hmetrics ⊢
  exact ⟨trivial, (hmetrics.append_right _).append_right _⟩

def Generation.forQueue : Generation → ReplicaManager.Generation
  | .raises e => .raises e
  | .yields outputs ending => .yields (outputs.map (fun output => output.outputs.head?)) ending

def Manager.forQueue (m : Manager) (deploymentId metricsPort : ℤ) (modelId : String) :
    ReplicaManager.Manager where
  deploymentName := m.deploymentName
  deploymentId := deploymentId
  metricsPort := metricsPort
  modelId := modelId
  engine := m.engine.map (fun engine prompt params requestId =>
    (engine prompt params requestId).forQueue)

/-- For the prompt, the engine does the same with the sampling parameters and
the request ids of both replicas. -/
def SameOutputs (m : Manager) (formattedPrompt : List Char)
    (requestId queueRequestId : String) : Prop :=
  ∀ engine, m.engine = some engine →
    engine formattedPrompt ReplicaManager.samplingParams queueRequestId =
      engine formattedPrompt samplingParams requestId

/-- One text in each output, and only the last one finished, after which
nothing is raised. -/
def Regular : List RequestOutput → Option Raised → Prop
  | [], _ => True
  | output::rest, ending => (∃ text, output.outputs = [text]) ∧
      (output.finished = true → rest = [] ∧ ending = none) ∧ Regular rest ending

theorem Regular.texts {outputs : List RequestOutput} {ending : Option Raised}
    (h : Regular outputs ending) : (texts outputs).map some =
      outputs.map (fun output => output.outputs.head?) := by
  induction outputs with
  | nil => rfl
  | cons output rest ih =>
    obtain ⟨⟨text, ht⟩, hlast, hrest⟩ := h
    cases hf : output.finished with
    | true =>
      obtain ⟨rfl, -⟩ := hlast hf
      simp [VllmReplica.texts, ht]
    | false => simp [VllmReplica.texts, ht, hf, ih hrest]

theorem Regular.raised {outputs : List RequestOutput} {ending : Option Raised}
    (h : Regular outputs ending) : ReplicaMetrics.raised
      (outputs.map (fun output => output.outputs.head?)) ending =
        VllmReplica.raised ending outputs := by
  induction outputs with
  | nil => rfl
  | cons output rest ih =>
    obtain ⟨⟨text, ht⟩, hlast, hrest⟩ := h
    rw [List.map_cons, ht, List.head?_cons, ReplicaMetrics.raised, VllmReplica.raised]
    cases hf : output.finished with
    | true =>
      obtain ⟨rfl, rfl⟩ := hlast hf
      rfl
    | false => exact ih hrest

def Given (m : Manager) (formattedPrompt : List Char) (requestId : String) : Prop :=
  ∃ engine outputs ending, m.engine = some engine ∧
    engine formattedPrompt samplingParams requestId = .yields outputs ending

/-- The reply with the mark of the other replica in front of an error. -/
def exchange (r : ReplicaReply) : ReplicaReply :=
  if r.isError then ⟨utf8 TokenPipeline.errorMark ++ r.text.drop (utf8 vllmMark).length, true⟩
  else r

theorem exchange_error (r : Option Raised) : (errorReplies r).map exchange =
    (ReplicaMetrics.errorTexts r).map (fun text => TokenPipeline.reply (utf8 text)) := by
  rcases r with - | ⟨- | -, - | message⟩
  · rfl
  · rfl
  · rfl
  · rfl
  · have hmark : (TokenPipeline.reply
        (utf8 (TokenPipeline.errorMark ++ ' '::message))).isError = true :=
      (ErrorFlags.mark_infix_iff _).mpr (List.prefix_append _ _).isInfix
    have htext : (utf8 (vllmMark ++ ' '::message)).drop (utf8 vllmMark).length =
        utf8 (' '::message) := by rw [TokenPipeline.utf8_append, List.drop_left]
    change [ReplicaReply.mk (utf8 TokenPipeline.errorMark ++
      (utf8 (vllmMark ++ ' '::message)).drop (utf8 vllmMark).length) true] =
        [ReplicaReply.mk (utf8 (TokenPipeline.errorMark ++ ' '::message)) (TokenPipeline.reply
          (utf8 (TokenPipeline.errorMark ++ ' '::message))).isError]
    rw [htext, hmark, TokenPipeline.utf8_append]

/-- A piece is answered alike exactly when it does not contain the mark. -/
theorem plain_eq_reply (text : List Char) :
    TokenPipeline.reply (utf8 text) = plain text ↔ ¬ TokenPipeline.errorMark <:+: text := by
  have hmark := ErrorFlags.mark_infix_iff text
  rw [← hmark, Bool.not_eq_true]
  exact ⟨fun h => congrArg ReplicaReply.isError h, fun h => congrArg (ReplicaReply.mk _) h⟩

theorem called_given {m : Manager} {formattedPrompt : List Char}
    {requestId queueRequestId : String} (h : Given m formattedPrompt requestId)
    (hsame : SameOutputs m formattedPrompt requestId queueRequestId) (d p : ℤ) (modelId : String) :
    ReplicaMetrics.generation (m.forQueue d p modelId) formattedPrompt queueRequestId =
      some ((called m formattedPrompt requestId).1.map (fun output => output.outputs.head?),
        (called m formattedPrompt requestId).2) := by
  obtain ⟨engine, outputs, ending, he, hg⟩ := h
  simp [ReplicaMetrics.generation, Manager.forQueue, called, he, hg, hsame engine he,
    Generation.forQueue]

theorem called_not {m : Manager} {formattedPrompt : List Char} {requestId queueRequestId : String}
    (h : ¬ Given m formattedPrompt requestId)
    (hsame : SameOutputs m formattedPrompt requestId queueRequestId) (d p : ℤ) (modelId : String) :
    ReplicaMetrics.generation (m.forQueue d p modelId) formattedPrompt queueRequestId = none ∧
      (called m formattedPrompt requestId).1 = [] := by
  cases he : m.engine with
  | none => simp [ReplicaMetrics.generation, Manager.forQueue, called, he]
  | some engine =>
    cases hg : engine formattedPrompt samplingParams requestId with
    | raises e =>
      simp [ReplicaMetrics.generation, Manager.forQueue, called, he, hg, hsame engine he,
        Generation.forQueue]
    | yields outputs ending => exact absurd ⟨engine, outputs, ending, he, hg⟩ h

/-- What both replicas answer on one engine: where its call returns, the same
texts but for the mark of an error, and the same flags exactly when no piece
contains that mark; elsewhere only one of them answers. -/
structure Alike (m : Manager) (prompt : List Char) (requestId : String)
    (items : List (Option (List Char))) : Prop where
  texts : Given m (ClosedQueue.formatted prompt) requestId → ∀ as s,
    Runs.exec ClosedQueue.step as (ClosedQueue.start items) = some s →
    (∀ a, ClosedQueue.step s a = none) → s.server ≠ .stopped →
      s.replies.map ReplicaReply.text =
        ((answered m prompt requestId).map exchange).map ReplicaReply.text ∧
      (s.replies = (answered m prompt requestId).map exchange ↔
        ∀ piece ∈ pieces 0 ((texts (called m (ClosedQueue.formatted prompt) requestId).1).map some),
          ¬ TokenPipeline.errorMark <:+: piece)
  unanswered : ¬ Given m (ClosedQueue.formatted prompt) requestId →
    answered m prompt requestId =
      errorReplies (called m (ClosedQueue.formatted prompt) requestId).2 ∧
    ∀ as s, Runs.exec ClosedQueue.step as (ClosedQueue.start items) = some s → s.replies = []

theorem answers_alike (m : Manager) (prompt : List Char) (requestId queueRequestId : String)
    (deploymentId metricsPort : ℤ) (modelId : String)
    (hsame : SameOutputs m (ClosedQueue.formatted prompt) requestId queueRequestId)
    (hr : Regular (called m (ClosedQueue.formatted prompt) requestId).1
      (called m (ClosedQueue.formatted prompt) requestId).2) :
    Alike m prompt requestId (ReplicaManager.produced (m.forQueue deploymentId metricsPort modelId)
      (ClosedQueue.formatted prompt) queueRequestId) := by
  obtain ⟨hreplies, -⟩ := sendRequest_final m prompt requestId (Prod.mk.eta).symm
  constructor
  · intro hg as s hrun hrest hns
    obtain ⟨hitems, -⟩ :=
      ReplicaMetrics.generateStream_final (called_given hg hsame deploymentId metricsPort modelId)
    rw [hr.raised, ← hr.texts] at hitems
    rw [hitems] at hrun
    have hinv := Runs.exec_invariant ClosedQueue.step_inv (ClosedQueue.start_inv _) hrun
    obtain ⟨-, hall⟩ := (hinv.at_rest hrest).2 hns
    rw [List.map_append, ← exchange_error] at hall
    rw [hreplies, List.map_append, List.map_map, hall]
    refine ⟨?_, ?_⟩
    · simp only [List.map_append, List.map_map]
      rfl
    · rw [List.append_cancel_right_eq, List.map_inj_left]
      exact forall₂_congr (fun piece _ => plain_eq_reply piece)
  · intro hg
    obtain ⟨hnone, hnil⟩ := called_not hg hsame deploymentId metricsPort modelId
    rw [hnil] at hreplies
    refine ⟨hreplies, fun as s hrun => ?_⟩
    rw [(ReplicaMetrics.generateStream_ungiven hnone).1] at hrun
    rw [ClosedQueue.unput_waits hrun]
    rfl

def failing : Manager where
  deploymentName := "/v1/chat/tinyllama"
  replicaId := 1
  engine := some (fun _ params _ =>
    .yields [⟨["Hi".toList.take params.maxTokens], false⟩] (some (exception "CUDA error")))

theorem answers_alike_sample : Alike failing ['h', 'i'] "request"
    (ReplicaManager.produced (failing.forQueue 2 9001 "TinyLlama/TinyLlama-1.1B-Chat-v1.0")
      (ClosedQueue.formatted ['h', 'i']) "other") :=
  answers_alike failing ['h', 'i'] "request" "other" 2 9001 "TinyLlama/TinyLlama-1.1B-Chat-v1.0"
    (fun _ he => Option.some.inj he ▸ rfl) ⟨⟨_, rfl⟩, fun h => (nomatch h), trivial⟩

end ServingSystem.VllmReplica
