import ServingSystem.HttpMessage
import ServingSystem.HttpSession

/-!
# One response for each session

The bytes of a session whose writes succeed, on each of its paths, and
whether they are one HTTP/1.1 response.
-/

set_option autoImplicit false

namespace ServingSystem.Proxy.SingleResponse
open ChunkedCoding HttpMessage HttpSession StateExcept

def responseHead (version : HttpVersion) (status : String) (fields : List (String × String)) :
    Head where
  startLine := utf8 (version.text.toList ++ " ".toList ++ status.toList)
  fields := fields.map (fun f => ⟨utf8 f.1.toList, utf8 f.2.toList⟩)

theorem utf8_append (a b : List Char) : utf8 (a ++ b) = utf8 a ++ utf8 b := List.flatMap_append

theorem utf8_headText (version : HttpVersion) (status : String)
    (fields : List (String × String)) :
    utf8 (headText version status fields) = (responseHead version status fields).bytes := by
  have hcrlf : utf8 "\r\n".toList = crlf := rfl
  have hcolon : utf8 ": ".toList = [58, 32] := rfl
  have hfields : utf8 (fields.flatMap (fun f =>
      f.1.toList ++ ": ".toList ++ f.2.toList ++ "\r\n".toList)) =
      ((responseHead version status fields).fields.map Field.line).flatMap
        (fun l => l ++ crlf) := by
    show _ = ((fields.map (fun f => (⟨utf8 f.1.toList, utf8 f.2.toList⟩ : Field))).map
      Field.line).flatMap (fun l => l ++ crlf)
    induction fields with
    | nil => rfl
    | cons f fields ih =>
      rw [List.flatMap_cons, utf8_append, ih]
      simp only [utf8_append, hcrlf, hcolon, List.map_cons, List.flatMap_cons, Field.line]
  rw [headText, utf8_append, utf8_append, utf8_append, hfields, hcrlf]
  rfl

theorem responseHead_clean (version : HttpVersion) {status : String}
    {fields : List (String × String)} (hs : 13 ∉ utf8 status.toList)
    (hf : ∀ f ∈ fields, Field.Clean ⟨utf8 f.1.toList, utf8 f.2.toList⟩) :
    (responseHead version status fields).Clean where
  nonempty := by
    cases version <;> exact List.cons_ne_nil _ _
  startLine := by
    show 13 ∉ utf8 (version.text.toList ++ " ".toList ++ status.toList)
    rw [utf8_append, List.mem_append, not_or]
    refine ⟨?_, hs⟩
    cases version <;> decide
  fields := by
    intro f hm
    obtain ⟨g, hg, rfl⟩ := List.mem_map.mp hm
    exact hf g hg

theorem stringHead_clean (version : HttpVersion) {status : String}
    {fields : List (String × String)} (hs : 13 ∉ utf8 status.toList)
    (hf : ∀ f ∈ fields, Field.Clean ⟨utf8 f.1.toList, utf8 f.2.toList⟩) (n : ℕ) :
    (responseHead version status (fields ++ [("Content-Length", toString n)])).Clean := by
  apply responseHead_clean version hs
  intro f hm
  rcases List.mem_append.mp hm with hm | hm
  · exact hf f hm
  · rw [List.mem_singleton.mp hm]
    have hname : 13 ∉ utf8 "Content-Length".toList ∧ 58 ∉ utf8 "Content-Length".toList := by
      decide
    exact clean_decimal hname.1 hname.2 n

def Unframed (name : String) : Prop :=
  (utf8 name.toList).map lower ≠ (ascii "Transfer-Encoding").map lower ∧
    (utf8 name.toList).map lower ≠ (ascii "Content-Length").map lower

instance (name : String) : Decidable (Unframed name) := inferInstanceAs (Decidable (_ ∧ _))

/-- The head of a string response delimits the bodies of its Content-Length. -/
theorem stringHead_delimited (version : HttpVersion) (status : String)
    {fields : List (String × String)} (hf : ∀ f ∈ fields, Unframed f.1) (n : ℕ) (body : Bytes) :
    Delimited (responseHead version status
      (fields ++ [("Content-Length", toString n)])).fields body ↔ body.length = n := by
  have hsplit : (responseHead version status (fields ++ [("Content-Length", toString n)])).fields =
      (responseHead version status fields).fields ++
        [⟨utf8 "Content-Length".toList, decimalBytes n⟩] := List.map_append
  have hnone : ∀ name, (∀ f ∈ fields, (utf8 f.1.toList).map lower ≠ (ascii name).map lower) →
      (responseHead version status fields).fields.find?
        (fun f => f.name.map lower = (ascii name).map lower) = none := by
    intro name h
    rw [List.find?_eq_none]
    intro g hg
    obtain ⟨f, hm, rfl⟩ := List.mem_map.mp hg
    simpa using h f hm
  have ht : fieldValue "Transfer-Encoding" (responseHead version status
      (fields ++ [("Content-Length", toString n)])).fields = none := by
    rw [hsplit, fieldValue, List.find?_append, hnone _ (fun f hm => (hf f hm).1)]
    rfl
  have hl : fieldValue "Content-Length" (responseHead version status
      (fields ++ [("Content-Length", toString n)])).fields = some (decimalBytes n) := by
    rw [hsplit, fieldValue, List.find?_append, hnone _ (fun f hm => (hf f hm).2)]
    rfl
  rw [Delimited, ht]
  show (fieldValue _ _).bind decimal = some body.length ↔ _
  rw [hl, Option.bind_some, decimal_decimalBytes, Option.some.injEq]
  exact eq_comm

def MetricsRequested (env : Env) : Prop :=
  ∃ req, env.request = .ok req ∧ req.target = "/metrics"

def metricsPage (metricsText : Bytes) : Bytes :=
  stringResponse .http11 "200 OK"
    [("Server", "http-proxy"), ("Content-Type", "text/plain; version=0.0.4")] metricsText

theorem written_metrics {env : Env} (h : MetricsRequested env) :
    written env none = metricsPage env.metricsText := by
  obtain ⟨req, hreq, ht⟩ := h
  have hb : tryBlock env (opened none) =
      .ok true { opened none with sent := metricsPage env.metricsText } := by
    simp only [tryBlock, hreq, pure_bind, ht, if_true]
    rfl
  have ho : observe (.activeRequests 1) (start none) = .ok () (opened none) := rfl
  rw [written, httpSession, finalState_bind_ok ho, finalState_bind_ok (guarded_ok hb)]
  rfl

theorem written_unreadable {env : Env} {e : Exn} (h : env.request = .error e) :
    written env none = terminator := by
  have hb : tryBlock env (opened none) = .error e (opened none) := by
    simp only [tryBlock, h]
    rfl
  exact written_unserved (guarded_error hb) (.of_eq rfl rfl)

theorem written_unknown {env : Env} {req : Request} (h : env.request = .ok req)
    (ht : req.target ≠ "/metrics") (hf : env.routingTable req.target = none) :
    written env none = notFound req.version ++ terminator := by
  have hb : tryBlock env (opened none) = .error ⟨"Deployment not found"⟩
      { opened none with deploymentName := req.target, sent := notFound req.version } := by
    simp only [tryBlock, h, pure_bind, ht, if_false, hf]
    rfl
  exact written_unserved (guarded_error hb) ⟨rfl, rfl⟩

theorem metricsPage_oneResponse (metricsText : Bytes) :
    OneResponse "HTTP/1.1" (metricsPage metricsText) := by
  have hc := stringHead_clean .http11 (by decide : 13 ∉ utf8 "200 OK".toList)
    (by decide : ∀ f ∈ [("Server", "http-proxy"), ("Content-Type", "text/plain; version=0.0.4")],
      Field.Clean ⟨utf8 f.1.toList, utf8 f.2.toList⟩) metricsText.length
  rw [metricsPage, stringResponse, utf8_headText]
  apply (oneResponse_iff hc _ _).mpr
  constructor
  · exact ⟨50, 48, 48, [79, 75], rfl, rfl, rfl, rfl⟩
  · exact (stringHead_delimited .http11 "200 OK" (by decide) _ _).mpr rfl

/-- The terminator alone has no status line. -/
theorem terminator_not_response (version : String) : ¬ OneResponse version terminator := by
  rintro ⟨head, body, hr, hs, -⟩
  obtain ⟨a, b, c, reason, hl, -⟩ := hs
  have hh : readHead terminator = some (⟨[48], []⟩, [0]) := by decide
  rw [hh] at hr
  obtain ⟨rfl, -⟩ := Prod.mk.inj (Option.some.inj hr)
  have hlen := congrArg List.length hl
  simp at hlen
  omega

/-- The terminator follows a body whose length the head has given. -/
theorem notFound_not_response (v : HttpVersion) (version : String) :
    ¬ OneResponse version (notFound v ++ terminator) := by
  have hc := stringHead_clean v (by decide : 13 ∉ utf8 "404 Not Found".toList)
    (by decide : ∀ f ∈ [("Server", "http-proxy")],
      Field.Clean ⟨utf8 f.1.toList, utf8 f.2.toList⟩) (utf8 "Deployment not found".toList).length
  rw [notFound, stringResponse, utf8_headText, List.append_assoc]
  intro h
  have hd := ((oneResponse_iff hc _ _).mp h).2
  have hn := (stringHead_delimited v "404 Not Found" (by decide) _ _).mp hd
  exact absurd hn (by decide)

/-- The null character follows the chunked body. -/
theorem stream_not_response (v : HttpVersion) (version : String) (h : Handling) :
    ¬ OneResponse version (okHead v ++ (delivered h).flatMap chunk ++ terminator) := by
  have hc := responseHead_clean v (by decide : 13 ∉ utf8 "200 OK".toList)
    (by decide : ∀ f ∈ [("Server", "http-proxy"), ("Content-Type", "text/plain"),
      ("Transfer-Encoding", "chunked")], Field.Clean ⟨utf8 f.1.toList, utf8 f.2.toList⟩)
  rw [okHead, utf8_headText, List.append_assoc]
  intro ho
  obtain ⟨-, hd⟩ := ((oneResponse_iff hc _ _).mp ho).2
  obtain ⟨rest, hbody⟩ := chunks_takeWhile (delivered h) [0]
  have hne : ∀ d ∈ (delivered h).takeWhile (fun d => d ≠ []), d ≠ [] := fun d hd => by
    simpa using List.mem_takeWhile_imp hd
  rw [terminator, ← List.append_assoc, hbody, List.append_assoc, decode_chunks hne,
    decode_lastChunk] at hd
  obtain rfl : rest = [] := Option.some.inj hd
  have hlast := congrArg List.getLast? hbody
  rw [List.append_nil, List.getLast?_append, List.getLast?_append] at hlast
  exact absurd hlast (by simp [lastChunk, chunk, crlf])

/-- A session writes one response exactly when it is asked for the metrics
page. -/
theorem one_response_iff (env : Env) :
    (written env none = [] ∨ OneResponse "HTTP/1.1" (written env none)) ↔
      MetricsRequested env := by
  constructor
  · intro h
    cases hr : env.request with
    | error e =>
      rw [written_unreadable hr] at h
      rcases h with h | h
      · cases h
      · exact absurd h (terminator_not_response _)
    | ok req =>
      by_cases ht : req.target = "/metrics"
      · exact ⟨req, hr, ht⟩
      cases hf : env.routingTable req.target with
      | none =>
        rw [written_unknown hr ht hf] at h
        rcases h with h | h
        · exact absurd (List.append_eq_nil_iff.mp h).2 (by decide)
        · exact absurd h (notFound_not_response _ _)
      | some handle =>
        rw [written_known ⟨hr, ht, hf⟩ none] at h
        rcases h with h | h
        · exact absurd (List.append_eq_nil_iff.mp h).2 (by decide)
        · exact absurd h (stream_not_response _ _ _)
  · intro h
    rw [written_metrics h]
    exact Or.inr (metricsPage_oneResponse env.metricsText)

/-- A successful stream ends with a null character. -/
theorem stream_ends_with_null :
    ¬ (written (sampleEnv (truncated brokenStream)) none = [] ∨
      OneResponse "HTTP/1.1" (written (sampleEnv (truncated brokenStream)) none)) := by
  rw [written_known (sampleEnv_known _) none]
  rintro (h | h)
  · exact absurd (List.append_eq_nil_iff.mp h).2 (by decide)
  · exact stream_not_response _ _ _ h

end ServingSystem.Proxy.SingleResponse
