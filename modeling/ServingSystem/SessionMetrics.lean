import ServingSystem.HttpSession

/-!
# What a session records

The metrics of `http_session` in two parts: the gauge, the counter and the
latency that account for the session as a whole, and the latencies of its
tokens.
-/

set_option autoImplicit false

namespace ServingSystem.Proxy.SessionMetrics
open ChunkedCoding HttpSession StateExcept

def accounting : Metric → Bool
  | .activeRequests _ => true
  | .firstTokenLatency _ => false
  | .interTokenLatency _ => false
  | .requestLatency _ _ => true
  | .requestCount _ _ => true

def accounts (s : Session) : List Metric := s.metrics.filter accounting

def ledger (s : Session) : String × List Metric := (s.deploymentName, accounts s)

theorem asyncWrite_metrics (data : Bytes) (s : Session) :
    ∃ sent accepts, finalState (asyncWrite data s) =
      { s with sent := sent, accepts := accepts } := by
  unfold asyncWrite
  cases s.accepts with
  | none => exact ⟨_, none, rfl⟩
  | some n =>
    by_cases hn : data.length ≤ n
    · simp only [if_pos hn]
      exact ⟨_, _, rfl⟩
    · simp only [if_neg hn]
      exact ⟨_, _, rfl⟩

theorem asyncWrite_ledger (data : Bytes) : Keeps ledger (asyncWrite data) := by
  intro s
  obtain ⟨sent, accepts, h⟩ := asyncWrite_metrics data s
  rw [h]
  rfl

theorem observe_ledger {metric : Metric} (h : accounting metric = false) :
    Keeps ledger (observe metric) := by
  intro s
  show (s.deploymentName, (s.metrics ++ [metric]).filter accounting) = ledger s
  rw [List.filter_append, List.filter_singleton, h]
  simp [ledger, accounts]

theorem observeFirstToken_ledger : Keeps ledger observeFirstToken := by
  refine keeps_bind keeps_get (fun s => ?_)
  split
  · refine keeps_bind keeps_get (fun t => keeps_bind (observe_ledger rfl) (fun _ => ?_))
    exact keeps_modify (fun _ => rfl)
  · exact keeps_pure _

theorem observeInterToken_ledger : Keeps ledger observeInterToken := by
  have hm : Keeps ledger (modify (fun s : Session => { s with lastTokenReceived := true })
      : Co Session Unit) := keeps_modify (fun _ => rfl)
  refine keeps_bind keeps_get (fun s => ?_)
  split
  · exact keeps_bind keeps_get (fun t => keeps_bind (observe_ledger rfl) (fun _ => hm))
  · exact hm

theorem onTokenReceived_ledger (expectedToken : Except Status Bytes) :
    Keeps ledger (onTokenReceived expectedToken) := by
  apply keeps_bind observeFirstToken_ledger
  intro _
  cases expectedToken with
  | ok token => exact keeps_bind (asyncWrite_ledger _) (fun _ => observeInterToken_ledger)
  | error status => exact fun _ => rfl

theorem readLoop_ledger (replies : List ReplicaReply) :
    Keeps ledger (readLoop onTokenReceived replies) := by
  induction replies with
  | nil => exact keeps_pure _
  | cons r rest ih => exact keeps_bind (onTokenReceived_ledger _) (fun _ => ih)

theorem withReleaser_ledger {picked : Option ReplicaConnection} {i : ℕ} {body : Co Session Unit}
    (h : Keeps ledger body) :
    Keeps ledger (withReleaser ((handleOps picked).releaseReplica i) body) := by
  intro s
  rw [finalState_withReleaser]
  exact h s

theorem sendRequest_ledger (picked : Option ReplicaConnection) (rpc : Rpc) :
    Keeps ledger (sendRequest (handleOps picked) rpc onTokenReceived) := by
  have hfail : ∀ id, Keeps ledger (do
      (handleOps picked).markReplicaUnhealthy id
      onTokenReceived (.error rpc.status)) := fun id =>
    keeps_bind (keeps_modify (fun _ => rfl)) (fun _ => onTokenReceived_ledger _)
  cases picked with
  | none => exact onTokenReceived_ledger (.error ⟨unavailable, "No replicas available"⟩)
  | some c =>
    refine withReleaser_ledger (?_ : Keeps ledger _)
    split
    · exact hfail c.replicaId
    · refine keeps_bind (readLoop_ledger _) (fun _ => ?_)
      split
      · exact hfail c.replicaId
      · exact keeps_pure _

theorem recordOutcome_accounts (status : String) (s : Session) :
    accounts (finalState (recordOutcome status s)) = accounts s ++
      [Metric.requestLatency s.deploymentName status,
        Metric.requestCount s.deploymentName status] := by
  show (s.metrics ++ [Metric.requestLatency s.deploymentName status] ++
    [Metric.requestCount s.deploymentName status]).filter accounting = _
  simp [accounts, accounting, List.filter_append]

def ServesMetrics (env : Env) : Prop := ∃ req, env.request = .ok req ∧ req.target = "/metrics"

def CallReturns (env : Env) (accepts : Option ℕ) : Prop :=
  ∃ req h t u, Known env req h ∧
    asyncWrite (okHead req.version) { opened accepts with deploymentName := req.target } =
      .ok () t ∧
    sendRequest (handleOps h.picked) h.rpc onTokenReceived t = .ok () u

def Recorded (s : Session) (status : String) : Prop :=
  accounts s = [.activeRequests 1, .requestLatency s.deploymentName status,
    .requestCount s.deploymentName status]

theorem failed_recorded {t : Session} (h : accounts t = [.activeRequests 1]) :
    Recorded (failed t) "error" := by
  have hr := recordOutcome_accounts "error" t
  rw [h] at hr
  exact hr

theorem serveMetrics_ledger (metricsText : Bytes) (s : Session) :
    ∃ t, serveMetrics metricsText s = .ok () t ∧ ledger t = ledger s := by
  have hw := asyncWrite_ledger (stringResponse .http11 "200 OK"
    [("Server", "http-proxy"), ("Content-Type", "text/plain; version=0.0.4")] metricsText) s
  cases h : asyncWrite (stringResponse .http11 "200 OK"
      [("Server", "http-proxy"), ("Content-Type", "text/plain; version=0.0.4")] metricsText) s with
  | ok a t => exact ⟨t, tryCatch_ok h, by rwa [h] at hw⟩
  | error e t => exact ⟨t, tryCatch_error h, by rwa [h] at hw⟩

theorem guarded_metrics {env : Env} {req : Request} (hreq : env.request = .ok req)
    (ht : req.target = "/metrics") (s : Session) :
    ∃ t, guarded env s = .ok true t ∧ ledger t = ledger s := by
  obtain ⟨t, hs, hl⟩ := serveMetrics_ledger env.metricsText s
  refine ⟨t, guarded_ok ?_, hl⟩
  simp only [tryBlock, hreq, ht, if_true, pure_bind]
  exact bind_ok hs

theorem guarded_unread {env : Env} {e : Exn} (hreq : env.request = .error e) (s : Session) :
    guarded env s = .ok false (failed s) := by
  apply guarded_error (e := e)
  simp only [tryBlock, hreq]
  rfl

theorem guarded_unknown {env : Env} {req : Request} (hreq : env.request = .ok req)
    (ht : req.target ≠ "/metrics") (hf : env.routingTable req.target = none) (s : Session) :
    ∃ t, guarded env s = .ok false (failed t) ∧ accounts t = accounts s := by
  let named : Session := { s with deploymentName := req.target }
  have hw := asyncWrite_ledger (notFound req.version) named
  have htry : tryBlock env s = (asyncWrite (notFound req.version) >>= fun _ =>
      throw ⟨"Deployment not found"⟩) named := by
    simp only [tryBlock, hreq, pure_bind, ht, if_false, hf]
    rfl
  cases h : asyncWrite (notFound req.version) named with
  | ok a t =>
    rw [h] at hw
    exact ⟨t, guarded_error (htry.trans (bind_ok h)), (Prod.mk.inj hw).2⟩
  | error e t =>
    rw [h] at hw
    exact ⟨t, guarded_error (htry.trans (bind_error h)), (Prod.mk.inj hw).2⟩

/-- The outcome recorded for a known deployment is that of its call. -/
theorem guarded_known {env : Env} {req : Request} {h : Handling} (hk : Known env req h)
    (accepts : Option ℕ) : ∃ t status, guarded env (opened accepts) = .ok false t ∧
      Recorded t status ∧ (status = "success" ↔ CallReturns env accepts) := by
  let named : Session := { opened accepts with deploymentName := req.target }
  have hw := asyncWrite_ledger (okHead req.version) named
  have honly : ∀ {req' h'}, Known env req' h' → req' = req ∧ h' = h := by
    intro req' h' hk'
    obtain rfl : req' = req := Except.ok.inj (hk'.request.symm.trans hk.request)
    exact ⟨rfl, Option.some.inj (hk'.found.symm.trans hk.found)⟩
  cases hhead : asyncWrite (okHead req.version) named with
  | error e t =>
    rw [hhead] at hw
    refine ⟨failed t, "error", hk.guarded_unheaded hhead, failed_recorded (Prod.mk.inj hw).2,
      iff_of_false (by decide) ?_⟩
    rintro ⟨req', h', t', u, hk', ht', -⟩
    obtain ⟨rfl, rfl⟩ := honly hk'
    cases hhead.symm.trans ht'
  | ok a t =>
    rw [hhead] at hw
    have hc := sendRequest_ledger h.picked h.rpc t
    cases hcall : sendRequest (handleOps h.picked) h.rpc onTokenReceived t with
    | error e u =>
      rw [hcall] at hc
      refine ⟨failed u, "error", hk.guarded_raised hhead hcall,
        failed_recorded ((Prod.mk.inj hc).2.trans (Prod.mk.inj hw).2),
        iff_of_false (by decide) ?_⟩
      rintro ⟨req', h', t', u', hk', ht', hu'⟩
      obtain ⟨rfl, rfl⟩ := honly hk'
      cases hhead.symm.trans ht'
      cases hcall.symm.trans hu'
    | ok a u =>
      rw [hcall] at hc
      have hu : accounts u = [.activeRequests 1] :=
        (Prod.mk.inj hc).2.trans (Prod.mk.inj hw).2
      have hr := recordOutcome_accounts "success" u
      rw [hu] at hr
      exact ⟨_, "success", hk.guarded_returned hhead hcall, hr,
        iff_of_true rfl ⟨req, h, t, u, hk, hhead, hcall⟩⟩

/-- The gauge is closed after the session has recorded its outcome. -/
theorem epilogue_accounts (s : Session) :
    accounts (finalState ((writeTerminator >>= fun _ => observe (.activeRequests (-1))) s)) =
      accounts s ++ [.activeRequests (-1)] := by
  rw [accounts, epilogue_metrics, List.filter_append]
  rfl

theorem accounts_unserved {env : Env} {accepts : Option ℕ} {t : Session} {status : String}
    (h : guarded env (opened accepts) = .ok false t) (hr : Recorded t status) :
    accounts (finalState (httpSession env (start accepts))) =
      [.activeRequests 1, .requestLatency t.deploymentName status,
        .requestCount t.deploymentName status, .activeRequests (-1)] := by
  rw [httpSession_unserved h, epilogue_accounts, hr]
  rfl

theorem accounts_served {env : Env} {accepts : Option ℕ} {t : Session}
    (h : guarded env (opened accepts) = .ok true t) (ht : accounts t = [.activeRequests 1]) :
    accounts (finalState (httpSession env (start accepts))) =
      [.activeRequests 1, .activeRequests (-1)] := by
  have ho : observe (.activeRequests 1) (start accepts) = .ok () (opened accepts) := rfl
  have hend : finalState (httpSession env (start accepts)) =
      { t with metrics := t.metrics ++ [.activeRequests (-1)] } := by
    rw [httpSession, finalState_bind_ok ho, finalState_bind_ok h]
    rfl
  rw [hend, accounts, List.filter_append, ← accounts, ht]
  rfl

/-- Every session changes the gauge up and down, and unless it serves the
metrics page it records one latency and one count, under the same labels;
the status is that of its call. -/
theorem session_accounted (env : Env) (accepts : Option ℕ) :
    (ServesMetrics env → accounts (finalState (httpSession env (start accepts))) =
      [.activeRequests 1, .activeRequests (-1)]) ∧
    (¬ ServesMetrics env → ∃ deploymentName status,
      accounts (finalState (httpSession env (start accepts))) =
        [.activeRequests 1, .requestLatency deploymentName status,
          .requestCount deploymentName status, .activeRequests (-1)] ∧
      (status = "success" ↔ CallReturns env accepts)) := by
  constructor
  · rintro ⟨req, hreq, ht⟩
    obtain ⟨t, hg, hl⟩ := guarded_metrics hreq ht (opened accepts)
    exact accounts_served hg (Prod.mk.inj hl).2
  · intro hserves
    have hunserved : ∃ t status, guarded env (opened accepts) = .ok false t ∧
        Recorded t status ∧ (status = "success" ↔ CallReturns env accepts) := by
      cases hreq : env.request with
      | error e =>
        refine ⟨_, "error", guarded_unread hreq _, failed_recorded rfl, ?_⟩
        refine iff_of_false (by decide) ?_
        rintro ⟨req, h, t, u, hk, -⟩
        cases hreq.symm.trans hk.request
      | ok req =>
        have ht : req.target ≠ "/metrics" := fun ht => hserves ⟨req, hreq, ht⟩
        cases hf : env.routingTable req.target with
        | none =>
          obtain ⟨t, hg, ha⟩ := guarded_unknown hreq ht hf (opened accepts)
          refine ⟨_, "error", hg, failed_recorded ha, iff_of_false (by decide) ?_⟩
          rintro ⟨req', h, t, u, hk, -⟩
          obtain rfl : req' = req := Except.ok.inj (hk.request.symm.trans hreq)
          cases hf.symm.trans hk.found
        | some h => exact guarded_known ⟨hreq, ht, hf⟩ accepts
    obtain ⟨t, status, hg, hr, hiff⟩ := hunserved
    exact ⟨t.deploymentName, status, accounts_unserved hg hr, hiff⟩

def ofFirstToken : Metric → Bool
  | .firstTokenLatency _ => true
  | _ => false

def betweenTokens : Metric → Bool
  | .interTokenLatency _ => true
  | _ => false

def timings (s : Session) : ℕ × ℕ :=
  (s.metrics.countP ofFirstToken, s.metrics.countP betweenTokens)

/-- The token latencies of a session describe its tokens: one for the first
of them and one between any two. -/
structure TimesTokens (env : Env) (h : Handling) : Prop where
  first : (timings (finalState (httpSession env (start none)))).1 =
    if delivered h = [] then 0 else 1
  between : (timings (finalState (httpSession env (start none)))).2 = (delivered h).length-1

structure Timed (texts : List Bytes) (s : Session) : Prop where
  accepts : s.accepts = none
  firstToken : s.firstToken = texts.isEmpty
  lastToken : s.lastTokenReceived = !texts.isEmpty
  timings : timings s = (if texts = [] then 0 else 1, texts.length-1)

theorem onTokenReceived_timed {texts : List Bytes} {s : Session} (h : Timed texts s)
    (text : Bytes) : ∃ t, onTokenReceived (.ok text) s = .ok () t ∧ Timed (texts ++ [text]) t := by
  obtain ⟨sent, accepts, deploymentName, firstToken, lastToken, metrics, calls⟩ := s
  obtain ⟨ha, hf, hl, ht⟩ := h
  simp only at ha hf hl
  subst ha hf hl
  cases texts with
  | nil =>
    refine ⟨_, rfl, rfl, rfl, rfl, ?_⟩
    simpa [timings, List.countP_append, ofFirstToken, betweenTokens] using ht
  | cons first rest =>
    refine ⟨_, rfl, rfl, rfl, rfl, ?_⟩
    simpa [timings, List.countP_append, ofFirstToken, betweenTokens] using ht

theorem readLoop_timed (replies : List ReplicaReply) {texts : List Bytes} {s : Session}
    (h : Timed texts s) : ∃ t, readLoop onTokenReceived replies s = .ok () t ∧
      Timed (texts ++ replies.map ReplicaReply.text) t := by
  induction replies generalizing texts s with
  | nil => exact ⟨s, rfl, by simpa using h⟩
  | cons r rest ih =>
    obtain ⟨u, hu, htimed⟩ := onTokenReceived_timed h r.text
    obtain ⟨t, ht, hrest⟩ := ih htimed
    exact ⟨t, (bind_ok hu).trans ht, by simpa using hrest⟩

/-- An error is taken for a first token when none has come before it. -/
theorem onTokenReceived_error_timings {texts : List Bytes} {s : Session} (h : Timed texts s)
    (status : Status) :
    timings (finalState (onTokenReceived (.error status) s)) = (1, texts.length-1) := by
  obtain ⟨sent, accepts, deploymentName, firstToken, lastToken, metrics, calls⟩ := s
  obtain ⟨ha, hf, hl, ht⟩ := h
  simp only at ha hf hl
  subst ha hf hl
  cases texts with
  | nil =>
    show timings ⟨sent, none, deploymentName, false, false,
      metrics ++ [.firstTokenLatency deploymentName], calls⟩ = _
    simpa [timings, List.countP_append, ofFirstToken, betweenTokens] using ht
  | cons first rest =>
    show timings ⟨sent, none, deploymentName, false, true, metrics, calls⟩ = _
    simpa using ht

theorem failure_timings {texts : List Bytes} {s : Session} (h : Timed texts s)
    (picked : Option ReplicaConnection) (id : String) (status : Status) :
    timings (finalState ((do
      (handleOps picked).markReplicaUnhealthy id
      onTokenReceived (.error status)) s)) = (1, texts.length-1) := by
  let marked : Session := { s with calls := s.calls ++ [.mark id] }
  have hm : (handleOps picked).markReplicaUnhealthy id s = .ok () marked := rfl
  rw [finalState_bind_ok hm]
  have hmarked : Timed texts marked := ⟨h.accepts, h.firstToken, h.lastToken, h.timings⟩
  exact onTokenReceived_error_timings hmarked status

theorem withReleaser_timings {picked : Option ReplicaConnection} {i : ℕ} {body : Co Session Unit}
    {s : Session} : timings (finalState
      (withReleaser ((handleOps picked).releaseReplica i) body s)) =
      timings (finalState (body s)) := by
  rw [finalState_withReleaser]
  rfl

/-- The latencies observed in a call that starts with none observed. -/
theorem sendRequest_timings (h : Handling) {s : Session} (hs : Timed [] s) :
    timings (finalState (sendRequest (handleOps h.picked) h.rpc onTokenReceived s)) =
      (if delivered h = [] ∧ ¬ Fails h then 0 else 1, (delivered h).length-1) := by
  obtain ⟨picked, rpc⟩ := h
  cases picked with
  | none =>
    have hfails : Fails ⟨none, rpc⟩ := Or.inl rfl
    have hcall : sendRequest (handleOps none) rpc onTokenReceived s =
      onTokenReceived (.error ⟨unavailable, "No replicas available"⟩) s := rfl
    rw [hcall, onTokenReceived_error_timings hs]
    simp [hfails, delivered]
  | some c =>
    refine withReleaser_timings.trans ?_
    cases hstart : rpc.started with
    | false =>
      have hfails : Fails ⟨some c, rpc⟩ := Or.inr (Or.inl hstart)
      simpa [hfails, delivered, hstart] using failure_timings hs (some c) c.replicaId rpc.status
    | true =>
      obtain ⟨t, ht, htimed⟩ := readLoop_timed rpc.replies hs
      have hd : delivered ⟨some c, rpc⟩ = rpc.replies.map ReplicaReply.text := by
        simp [delivered, hstart]
      rw [List.nil_append, ← hd] at htimed
      simp only [Bool.not_true, Bool.false_eq_true, if_false]
      rw [finalState_bind_ok ht]
      cases hok : rpc.status.ok with
      | true =>
        have hends : ¬ Fails ⟨some c, rpc⟩ := by simp [Fails, hstart, hok]
        simpa [hends, pure_apply, finalState] using htimed.timings
      | false =>
        have hfails : Fails ⟨some c, rpc⟩ := Or.inr (Or.inr hok)
        simpa [hfails] using failure_timings htimed (some c) c.replicaId rpc.status

theorem observe_timings (metric : Metric) (hf : ofFirstToken metric = false)
    (hb : betweenTokens metric = false) (s : Session) :
    timings { s with metrics := s.metrics ++ [metric] } = timings s := by
  simp [timings, List.countP_append, hf, hb]

theorem recordOutcome_timings (status : String) (s : Session) :
    timings (finalState (recordOutcome status s)) = timings s := by
  let latency := Metric.requestLatency s.deploymentName status
  have hl := observe_timings latency rfl rfl s
  exact (observe_timings (.requestCount s.deploymentName status) rfl rfl
    { s with metrics := s.metrics ++ [latency] }).trans hl

theorem session_timings {env : Env} {req : Request} {h : Handling} (hk : Known env req h) :
    timings (finalState (httpSession env (start none))) =
      (if delivered h = [] ∧ ¬ Fails h then 0 else 1, (delivered h).length-1) := by
  let headed : Session :=
    { opened none with deploymentName := req.target, sent := okHead req.version }
  have hhead : asyncWrite (okHead req.version) { opened none with deploymentName := req.target } =
    .ok () headed := rfl
  have hcall := sendRequest_timings h (s := headed) ⟨rfl, rfl, rfl, rfl⟩
  have hguarded : ∃ t, guarded env (opened none) = .ok false t ∧ timings t =
      (if delivered h = [] ∧ ¬ Fails h then 0 else 1, (delivered h).length-1) := by
    cases hr : sendRequest (handleOps h.picked) h.rpc onTokenReceived headed with
    | ok a t =>
      rw [hr] at hcall
      exact ⟨_, hk.guarded_returned hhead hr, (recordOutcome_timings _ t).trans hcall⟩
    | error e t =>
      rw [hr] at hcall
      exact ⟨failed t, hk.guarded_raised hhead hr, (recordOutcome_timings "error" t).trans hcall⟩
  obtain ⟨t, hg, ht⟩ := hguarded
  rw [httpSession_unserved hg, timings, epilogue_metrics, ← ht]
  exact observe_timings (.activeRequests (-1)) rfl rfl t

/-- The token latencies describe tokens exactly in the sessions that deliver
a token or whose call ends well. -/
theorem times_tokens_iff (env : Env) (req : Request) (h : Handling) (hk : Known env req h) :
    TimesTokens env h ↔ delivered h ≠ [] ∨ ¬ Fails h := by
  have ht := session_timings hk
  constructor
  · intro htimes
    by_contra hneither
    push Not at hneither
    obtain ⟨hnone, hfails⟩ := hneither
    have hfirst := htimes.first
    rw [ht, if_pos hnone, if_neg (fun hc => hc.2 hfails)] at hfirst
    exact one_ne_zero hfirst
  · intro hor
    refine ⟨?_, by rw [ht]⟩
    rw [ht]
    by_cases hnone : delivered h = []
    · have hends : ¬ Fails h := hor.resolve_left (fun hne => hne hnone)
      simp [hnone, hends]
    · simp [hnone]

theorem times_tokens_iff_sample : TimesTokens (sampleEnv brokenStream) brokenStream ↔
    delivered brokenStream ≠ [] ∨ ¬ Fails brokenStream :=
  times_tokens_iff _ _ _ (sampleEnv_known brokenStream)

/-- A deployment without replicas: the error is timed as a first token. -/
theorem error_timed_as_token : ¬ TimesTokens (sampleEnv ⟨none, ⟨true, [], ⟨0, ""⟩⟩⟩)
      ⟨none, ⟨true, [], ⟨0, ""⟩⟩⟩ ∧
    (finalState (httpSession (sampleEnv ⟨none, ⟨true, [], ⟨0, ""⟩⟩⟩) (start none))).metrics.count
      (.firstTokenLatency "/chat") = 1 := by
  have hfirst : (timings (finalState (httpSession (sampleEnv ⟨none, ⟨true, [], ⟨0, ""⟩⟩⟩)
      (start none)))).1 = 1 := by
    rw [session_timings (sampleEnv_known _)]
    rfl
  refine ⟨fun h => ?_, by decide⟩
  rw [h.first] at hfirst
  exact Nat.zero_ne_one hfirst

end ServingSystem.Proxy.SessionMetrics
