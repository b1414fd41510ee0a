import ServingSystem.ErrorFlags

/-!
# What a replica counts

Both sides of a replica keep metrics of each request: `generate_stream` on
the event loop, and the loop of `ReplicaServer::SendRequest` that answers
from the queue. Durations are left out; what is kept is which metric is
observed, and in which order.
-/

set_option autoImplicit false

namespace ServingSystem.ReplicaMetrics
open ReplicaManager ClosedQueue StateExcept ErrorFlags Runs
open TokenPipeline (errorMark)

inductive CppMetric where
  | firstTokenLatency (deploymentName : String)
  | requestLatency (deploymentName : String)
  | requests (deploymentName : String)
  deriving DecidableEq, Repr

structure Loop where
  firstTokenSeen : Bool
  observed : List CppMetric
  deriving DecidableEq, Repr

def Loop.firstToken (name : String) (c : Loop) : Loop :=
  if c.firstTokenSeen then c
  else ⟨true, c.observed ++ [.firstTokenLatency name]⟩

def Loop.finish (name : String) (c : Loop) : Loop :=
  { c with observed := c.observed ++ [.requestLatency name, .requests name] }

def watch (name : String) (_ : State) (a : Act) (t : State) (c : Loop) : Loop :=
  match a, t.server with
  | .get, .writing _ => c.firstToken name
  | .get, _ => c.finish name
  | .write _, .stopped => c.finish name
  | _, _ => c

def observing (name : String) : State × Loop → Act → Option (State × Loop) :=
  watched step (watch name)

def begin (items : List (Option (List Char))) : State × Loop := (start items, ⟨false, []⟩)

/-- The outputs and the ending of the engine's call, if it gives any. -/
def generation (m : Manager) (prompt : List Char) (requestId : String) :
    Option (List (Option (List Char)) × Option Raised) :=
  match m.engine with
  | none => none
  | some engine =>
    match engine prompt samplingParams requestId with
    | .raises _ => none
    | .yields outputs ending => some (outputs, ending)

def raised : List (Option (List Char)) → Option Raised → Option Raised
  | [], ending => ending
  | none::_, _ => some (exception "list index out of range")
  | some _::outputs, ending => raised outputs ending

def errorTexts : Option Raised → List (List Char)
  | some ⟨true, some message⟩ => [errorMark ++ ' '::message]
  | _ => []

def tokenMetrics (name : String) : ℕ → List Metric
  | 0 => []
  | n+1 => .firstTokenLatency name::List.replicate n (.interTokenLatency name)

def endMetrics (name : String) : Option Raised → List Metric
  | none => [.requestLatency name, .requestCount name "success"]
  | some ⟨true, some _⟩ => [.requestCount name "error"]
  | some _ => []

def cppMetrics (name : String) (texts : List (List Char)) : List CppMetric :=
  (if texts = [] then [] else [.firstTokenLatency name]) ++ [.requestLatency name, .requests name]

def pythonMetrics (m : Manager) (prompt : List Char) (requestId : String) : List Metric :=
  (finalState (generateStream m prompt requestId fresh)).metrics

def SameRequests (name : String) (cpp : List CppMetric) (python : List Metric) : Prop :=
  cpp.count (.requests name) =
    python.count (.requestCount name "success")+python.count (.requestCount name "error")

def SameFirstTokens (name : String) (cpp : List CppMetric) (python : List Metric) : Prop :=
  cpp.count (.firstTokenLatency name) = python.count (.firstTokenLatency name)

/-- What both sides observe of a request whose engine gives `outputs` and
ends as `ending` says. -/
structure Observed (name : String) (outputs : List (Option (List Char)))
    (ending : Option Raised) (items : List (Option (List Char))) (metrics : List Metric) :
    Prop where
  produced : items = (pieces 0 outputs ++ errorTexts (raised outputs ending)).map some ++ [none]
  python : metrics =
    tokenMetrics name (pieces 0 outputs).length ++ endMetrics name (raised outputs ending)
  cpp : ∀ as s, exec (observing name) as (begin items) = some s →
    s.2.observed <+: cppMetrics name (pieces 0 outputs ++ errorTexts (raised outputs ending)) ∧
    ((∀ a, observing name s a = none) →
      s.2.observed = cppMetrics name (pieces 0 outputs ++ errorTexts (raised outputs ending)) ∧
      (SameRequests name s.2.observed metrics ↔
        ∀ e, raised outputs ending = some e → errorTexts (some e) ≠ []) ∧
      (SameFirstTokens name s.2.observed metrics ↔
        (pieces 0 outputs = [] → errorTexts (raised outputs ending) = [])))

structure Tokens (name : String) (s : Stream) : Prop where
  first : s.firstTokenReceived = !s.items.isEmpty
  last : s.lastTokenReceived = !s.items.isEmpty
  metrics : s.metrics = tokenMetrics name s.items.length

theorem tokenMetrics_succ (name : String) (n : ℕ) : tokenMetrics name (n+2) =
    tokenMetrics name (n+1) ++ [.interTokenLatency name] := by
  rw [tokenMetrics, tokenMetrics, List.replicate_succ', List.cons_append]

theorem putNew_tokens {name : String} {s : Stream} (h : Tokens name s)
    (currentText : List Char) : ∃ t, putNew name currentText s = .ok () t ∧ Tokens name t := by
  by_cases hnew : currentText.drop s.sentPosition ≠ []
  · have hput : putNew name currentText s = (do
        observeFirstToken name
        put (some (currentText.drop s.sentPosition))
        modify (fun s : Stream => { s with sentPosition := currentText.length })
        observeInterToken name) s := by
      rw [putNew, get_bind, if_pos hnew]
    rw [hput]
    obtain ⟨items, sentPosition, first, last, metrics⟩ := s
    rcases items with - | ⟨item, items⟩
    · obtain rfl : first = false := h.first
      obtain rfl : last = false := h.last
      obtain rfl : metrics = [] := h.metrics
      exact ⟨_, rfl, rfl, rfl, rfl⟩
    · obtain rfl : first = true := h.first
      obtain rfl : last = true := h.last
      obtain rfl : metrics = tokenMetrics name (items.length+1) := h.metrics
      refine ⟨_, rfl, rfl, rfl, ?_⟩
      show tokenMetrics name (items.length+1) ++ [.interTokenLatency name] =
        tokenMetrics name (item::items ++ [_]).length
      rw [← tokenMetrics_succ, List.length_append, List.length_cons, List.length_singleton]
  · exact ⟨s, putNew_old name hnew, h⟩

theorem iterate_tokens {name : String} (outputs : List (Option (List Char))) {s : Stream}
    (h : Tokens name s) : Tokens name (finalState (iterate name outputs s)) ∧
      ∀ ending, tryBlock name outputs ending s = match raised outputs ending with
        | some e => .error e (finalState (iterate name outputs s))
        | none => (do
            observe (.requestLatency name)
            observe (.requestCount name "success")) (finalState (iterate name outputs s)) := by
  induction outputs generalizing s with
  | nil =>
    refine ⟨h, fun ending => ?_⟩
    cases ending with
    | none => rfl
    | some e => rfl
  | cons output rest ih =>
    cases output with
    | none => exact ⟨h, fun _ => rfl⟩
    | some currentText =>
      obtain ⟨t, ht, htok⟩ := putNew_tokens h currentText
      obtain ⟨hrest, htry⟩ := ih htok
      rw [iterate, finalState_bind_ok ht]
      refine ⟨hrest, fun ending => ?_⟩
      rw [raised, ← htry]
      show ((putNew name currentText >>= fun _ => iterate name rest) >>= _) s = _
      rw [bind_assoc, bind_ok ht]
      rfl

theorem generation_yields {m : Manager} {prompt : List Char} {requestId : String}
    {outputs : List (Option (List Char))} {ending : Option Raised}
    (h : generation m prompt requestId = some (outputs, ending)) :
    generateStream m prompt requestId = finallyDo (tryCatch (tryBlock m.deploymentName outputs
      ending) (exceptBlock m.deploymentName)) (put none) := by
  rw [generation] at h
  cases he : m.engine with
  | none => simp [he] at h
  | some engine =>
    cases hg : engine prompt samplingParams requestId with
    | raises e => simp [he, hg] at h
    | yields o e =>
      simp only [he, hg, Option.some.injEq, Prod.mk.injEq] at h
      obtain ⟨rfl, rfl⟩ := h
      simp only [generateStream, he, hg]

theorem exceptBlock_final (name : String) (e : Raised) (s : Stream) :
    finalState (exceptBlock name e s) = { s with
      items := s.items ++ (errorTexts (some e)).map some
      metrics := s.metrics ++ endMetrics name (some e) } := by
  have hkeep : s = { s with items := s.items ++ [], metrics := s.metrics ++ [] } := by
    simp only [List.append_nil]
  obtain ⟨isException, message⟩ := e
  cases isException with
  | false => exact hkeep
  | true =>
    cases message with
    | none => exact hkeep
    | some message => rfl

theorem handled_final {name : String} {x : EStateM Raised Stream Unit} {r : Option Raised}
    {s t : Stream} (hx : x s = match r with
      | some e => .error e t
      | none => (do
          observe (.requestLatency name)
          observe (.requestCount name "success")) t) :
    finalState (tryCatch x (exceptBlock name) s) = { t with
      items := t.items ++ (errorTexts r).map some
      metrics := t.metrics ++ endMetrics name r } := by
  cases r with
  | none =>
    have hok : x s = .ok () { t with
        metrics := t.metrics ++ [.requestLatency name] ++ [.requestCount name "success"] } := hx
    simp [tryCatch_ok hok, finalState, errorTexts, endMetrics]
  | some e => rw [tryCatch_error hx, exceptBlock_final]

/-- The items and the metrics of a call, in closed form. -/
theorem generateStream_final {m : Manager} {prompt : List Char} {requestId : String}
    {outputs : List (Option (List Char))} {ending : Option Raised}
    (h : generation m prompt requestId = some (outputs, ending)) :
    produced m prompt requestId =
        (pieces 0 outputs ++ errorTexts (raised outputs ending)).map some ++ [none] ∧
      pythonMetrics m prompt requestId = tokenMetrics m.deploymentName (pieces 0 outputs).length ++
        endMetrics m.deploymentName (raised outputs ending) := by
  have hfresh : Tokens m.deploymentName fresh := ⟨rfl, rfl, rfl⟩
  obtain ⟨htok, htry⟩ := iterate_tokens outputs hfresh
  have hitems : (finalState (iterate m.deploymentName outputs fresh)).items =
      (pieces 0 outputs).map some := iterate_pieces m.deploymentName outputs fresh
  have hmetrics := htok.metrics
  rw [hitems, List.length_map] at hmetrics
  rw [produced, pythonMetrics, generation_yields h, finalState_finallyDo,
    handled_final (htry ending), ← hmetrics, List.map_append, ← hitems]
  exact ⟨rfl, rfl⟩

theorem generateStream_ungiven {m : Manager} {prompt : List Char} {requestId : String}
    (h : generation m prompt requestId = none) :
    produced m prompt requestId = [] ∧ pythonMetrics m prompt requestId = [] := by
  rw [generation] at h
  cases he : m.engine with
  | none =>
    simp only [produced, pythonMetrics, generateStream, he]
    exact ⟨rfl, rfl⟩
  | some engine =>
    cases hg : engine prompt samplingParams requestId with
    | raises e =>
      simp only [produced, pythonMetrics, generateStream, he, hg]
      exact ⟨rfl, rfl⟩
    | yields outputs ending => simp [he, hg] at h

def begun : Server → Bool
  | .writing _ => true
  | .stopped => true
  | _ => false

def taken (s : State) : Bool := !s.replies.isEmpty || begun s.server

def ended : Server → Bool
  | .returned => true
  | .stopped => true
  | _ => false

def record (name : String) (s : State) : Loop where
  firstTokenSeen := taken s
  observed := (if taken s then [.firstTokenLatency name] else []) ++
    (if ended s.server then [.requestLatency name, .requests name] else [])

theorem watch_record {name : String} {s t : State} {a : Act} (hs : step s a = some t) :
    watch name s a t (record name s) = record name t := by
  cases a with
  | put =>
    obtain ⟨item, pending, -, rfl⟩ := step_put hs
    rfl
  | get =>
    obtain ⟨hg, ⟨item, q, -, -, rfl⟩ | ⟨-, -, rfl⟩⟩ := step_get hs
    · by_cases ht : s.replies = [] <;>
        simp [record, watch, Loop.firstToken, taken, begun, ended, ht, hg]
    · simp [record, watch, Loop.finish, taken, begun, ended, hg]
  | write accepted =>
    obtain ⟨item, hw, rfl⟩ := step_write hs
    cases accepted with
    | true => simp [record, watch, taken, begun, ended, hw]
    | false => simp [record, watch, Loop.finish, taken, begun, ended, hw]

theorem exec_record {name : String} {items : List (Option (List Char))} {as : List Act}
    {s : State × Loop} (hr : exec (observing name) as (begin items) = some s) :
    exec step as (start items) = some s.1 ∧ s.2 = record name s.1 := by
  refine ⟨exec_watched.mp ⟨s.2, hr⟩, ?_⟩
  refine exec_invariant (P := fun s => s.2 = record name s.1) (fun s a t h hs => ?_) rfl hr
  obtain ⟨hstep, hd⟩ := watched_some.mp hs
  rw [hd, h, watch_record hstep]

structure Taking (texts : List (List Char)) (s : State) : Prop where
  flow : ClosedQueue.Inv texts s
  taken : taken s = true → texts ≠ []

theorem Taking.taken_iff {texts : List (List Char)} {s : State} (h : Taking texts s)
    (ho : ended s.server = true) : ReplicaMetrics.taken s = true ↔ texts ≠ [] := by
  refine ⟨h.taken, fun hne => ?_⟩
  cases hserver : s.server with
  | getting => simp [ReplicaMetrics.ended, hserver] at ho
  | writing item => simp [ReplicaMetrics.taken, begun, hserver]
  | stopped => simp [ReplicaMetrics.taken, begun, hserver]
  | returned =>
    obtain ⟨hclosed, hitems⟩ := h.flow.returned hserver
    have hpending : s.pending = [] := by
      rcases h.flow.pending with ⟨hc, -⟩ | ⟨-, hp⟩
      · simp [hclosed] at hc
      · exact hp
    have hflow := h.flow.flow (by simp [hserver])
    rw [hserver, hitems, hpending] at hflow
    have hreplies : s.replies = texts.map (fun text => TokenPipeline.reply
        (Proxy.HttpSession.utf8 text)) := by simpa [Server.held] using hflow
    simp [ReplicaMetrics.taken, begun, hserver, hreplies, hne]

theorem step_taking {texts : List (List Char)} (s : State) (a : Act) (t : State)
    (h : Taking texts s) (hs : step s a = some t) : Taking texts t := by
  have hi := ClosedQueue.step_inv s a t h.flow hs
  refine ⟨hi, fun ht hnil => ?_⟩
  by_cases hstop : t.server = .stopped
  · refine h.taken ?_ hnil
    cases a with
    | put =>
      obtain ⟨item, pending, -, rfl⟩ := step_put hs
      exact ht
    | get =>
      obtain ⟨-, ⟨item, q, -, -, rfl⟩ | ⟨-, -, rfl⟩⟩ := step_get hs
      · cases hstop
      · cases hstop
    | write accepted =>
      obtain ⟨item, hw, -⟩ := step_write hs
      simp [ReplicaMetrics.taken, begun, hw]
  · have hflow := hi.flow hstop
    rw [hnil, List.map_nil] at hflow
    cases hserver : t.server <;> simp_all [ReplicaMetrics.taken, begun, Server.held]

theorem Taking.observed {texts : List (List Char)} {s : State} (h : Taking texts s)
    (name : String) : (record name s).observed <+: cppMetrics name texts ∧
      (ReplicaMetrics.ended s.server = true →
        (record name s).observed = cppMetrics name texts) := by
  have hover : ReplicaMetrics.ended s.server = true →
      (record name s).observed = cppMetrics name texts := by
    intro ho
    have ht := h.taken_iff ho
    by_cases hnil : texts = [] <;> simp_all [record, cppMetrics]
  refine ⟨?_, hover⟩
  cases ho : ReplicaMetrics.ended s.server with
  | true => exact hover ho ▸ List.prefix_rfl
  | false =>
    cases ht : ReplicaMetrics.taken s with
    | false => simp [record, ho, ht]
    | true => simp [record, cppMetrics, ho, ht, h.taken ht]

/-- A stuck request has ended its loop. -/
theorem Taking.at_rest {name : String} {texts : List (List Char)} {s : State × Loop}
    (h : Taking texts s.1) (hrest : ∀ a, observing name s a = none) :
    ReplicaMetrics.ended s.1.server = true := by
  have hstuck : ∀ a, step s.1 a = none := fun a => by
    have ha := hrest a
    rwa [observing, watched, Option.map_eq_none_iff] at ha
  have hend := (h.flow.at_rest hstuck).2
  cases hserver : s.1.server <;> simp_all [ReplicaMetrics.ended]

theorem tokenMetrics_count (name status : String) (n : ℕ) :
    (tokenMetrics name n).count (.requestCount name status) = 0 := by
  cases n with
  | zero => rfl
  | succ n => simp [tokenMetrics, List.count_replicate]

theorem tokenMetrics_first (name : String) (n : ℕ) :
    (tokenMetrics name n).count (.firstTokenLatency name) = if n = 0 then 0 else 1 := by
  cases n with
  | zero => rfl
  | succ n => simp [tokenMetrics, List.count_replicate]

/-- An exception that is none or whose text cannot be read is counted on one
side only. -/
theorem sameRequests_iff (name : String) (texts : List (List Char)) (n : ℕ) (r : Option Raised) :
    SameRequests name (cppMetrics name texts) (tokenMetrics name n ++ endMetrics name r) ↔
      ∀ e, r = some e → errorTexts (some e) ≠ [] := by
  have hcpp : (cppMetrics name texts).count (.requests name) = 1 := by
    by_cases h : texts = [] <;> simp [cppMetrics, h]
  rw [SameRequests, hcpp, List.count_append, List.count_append, tokenMetrics_count,
    tokenMetrics_count]
  rcases r with - | ⟨- | -, - | message⟩ <;> simp [endMetrics, errorTexts]

/-- An error text that comes first is a first token on one side only. -/
theorem sameFirstTokens_iff (name : String) (texts : List (List Char)) (r : Option Raised) :
    SameFirstTokens name (cppMetrics name (texts ++ errorTexts r))
      (tokenMetrics name texts.length ++ endMetrics name r) ↔
      (texts = [] → errorTexts r = []) := by
  have hend : (endMetrics name r).count (.firstTokenLatency name) = 0 := by
    rcases r with - | ⟨- | -, - | message⟩ <;> simp [endMetrics]
  rw [SameFirstTokens, List.count_append, tokenMetrics_first, hend]
  cases texts with
  | nil => by_cases h : errorTexts r = [] <;> simp [cppMetrics, h]
  | cons text texts => simp [cppMetrics]

/-- Of a request, both sides observe what the generated pieces, the error
text and the way the call ended amount to, whatever the interleaving and
whether or not the client goes away; without a generation neither observes
anything. -/
theorem request_observed (m : Manager) (prompt : List Char) (requestId : String) :
    match generation m (formatted prompt) requestId with
    | some (outputs, ending) => Observed m.deploymentName outputs ending
        (produced m (formatted prompt) requestId) (pythonMetrics m (formatted prompt) requestId)
    | none => pythonMetrics m (formatted prompt) requestId = [] ∧
        ∀ as s, exec (observing m.deploymentName) as
          (begin (produced m (formatted prompt) requestId)) = some s → s.2.observed = [] := by
  cases hg : generation m (formatted prompt) requestId with
  | none =>
    obtain ⟨hp, hm⟩ := generateStream_ungiven hg
    refine ⟨hm, fun as s hr => ?_⟩
    rw [hp] at hr
    obtain ⟨hstep, hrec⟩ := exec_record hr
    rw [hrec, unput_waits hstep]
    rfl
  | some g =>
    obtain ⟨outputs, ending⟩ := g
    obtain ⟨hp, hm⟩ := generateStream_final hg
    refine ⟨hp, hm, fun as s hr => ?_⟩
    rw [hp] at hr
    obtain ⟨hstep, hrec⟩ := exec_record hr
    have htaking := exec_invariant step_taking ⟨start_inv _, fun ht => by cases ht⟩ hstep
    obtain ⟨hpre, hall⟩ := htaking.observed m.deploymentName
    rw [hrec]
    refine ⟨hpre, fun hrest => ?_⟩
    rw [hall (htaking.at_rest hrest), hm]
    exact ⟨rfl, sameRequests_iff _ _ _ _, sameFirstTokens_iff _ _ _⟩

end ServingSystem.ReplicaMetrics
