import ServingSystem.ClosedQueue
import ServingSystem.LetterCoding

/-!
# Which replies are flagged as errors

Generated text and error messages pass one queue of strings, and
`SendRequest` tells them apart by looking for the error mark in each string.
Here the replies of every run of one request are compared with where their
strings come from.
-/

set_option autoImplicit false

namespace ServingSystem.ErrorFlags
open Proxy (ReplicaReply)
open Proxy.HttpSession (utf8)
open TokenPipeline (errorMark reply)
open ReplicaManager ClosedQueue StateExcept

/-- What the loop over the engine's outputs puts on the callback for a
request; anything put later is the message of an exception or the sentinel. -/
def generated (m : Manager) (prompt : List Char) (requestId : String) :
    List (Option (List Char)) :=
  match m.engine with
  | none => []
  | some engine =>
    match engine prompt samplingParams requestId with
    | .raises _ => []
    | .yields outputs _ => (finalState (iterate m.deploymentName outputs fresh)).items

/-- In every run of the request, a reply is flagged exactly when it carries
an item put after the generated text. -/
def FlagsExceptions (m : Manager) (prompt : List Char) (requestId : String) : Prop :=
  ∀ as s, Runs.exec step as (start (produced m (formatted prompt) requestId)) = some s →
    ∀ (i : ℕ) r, s.replies[i]? = some r →
      (r.isError = true ↔ (generated m (formatted prompt) requestId).length ≤ i)

def pieces : ℕ → List (Option (List Char)) → List (List Char)
  | _, [] => []
  | _, none::_ => []
  | sent, some currentText::rest =>
    if currentText.drop sent ≠ [] then currentText.drop sent::pieces currentText.length rest
    else pieces sent rest

def Unmarked (m : Manager) (prompt : List Char) (requestId : String) : Prop :=
  match m.engine with
  | none => True
  | some engine =>
    match engine (formatted prompt) samplingParams requestId with
    | .raises _ => True
    | .yields outputs _ => ∀ piece ∈ pieces 0 outputs, ¬ errorMark <:+: piece

theorem putNew_new (name : String) {currentText : List Char} {s : Stream}
    (h : currentText.drop s.sentPosition ≠ []) : ∃ t, putNew name currentText s = .ok () t ∧
      t.items = s.items ++ [some (currentText.drop s.sentPosition)] ∧
      t.sentPosition = currentText.length := by
  have hput : putNew name currentText s = (do
      observeFirstToken name
      put (some (currentText.drop s.sentPosition))
      modify (fun s : Stream => { s with sentPosition := currentText.length })
      observeInterToken name) s := by
    rw [putNew, get_bind, if_pos h]
  rw [hput]
  obtain ⟨items, sentPosition, first, last, metrics⟩ := s
  cases first <;> cases last <;> exact ⟨_, rfl, rfl, rfl⟩

theorem putNew_old (name : String) {currentText : List Char} {s : Stream}
    (h : ¬ currentText.drop s.sentPosition ≠ []) : putNew name currentText s = .ok () s := by
  rw [putNew, get_bind, if_neg h]
  rfl

theorem iterate_pieces (name : String) (outputs : List (Option (List Char))) (s : Stream) :
    (finalState (iterate name outputs s)).items =
      s.items ++ (pieces s.sentPosition outputs).map some := by
  induction outputs generalizing s with
  | nil => simp [iterate, pieces, finalState, pure_apply]
  | cons output rest ih =>
    cases output with
    | none =>
      rw [pieces, List.map_nil, List.append_nil]
      rfl
    | some currentText =>
      rw [iterate, pieces]
      split
      next h =>
        obtain ⟨t, ht, hitems, hpos⟩ := putNew_new name h
        rw [finalState_bind_ok ht, ih, hitems, hpos, List.map_cons, List.append_assoc,
          List.singleton_append]
      next h => rw [finalState_bind_ok (putNew_old name h), ih]

theorem mark_infix_iff (text : List Char) :
    (reply (utf8 text)).isError = true ↔ errorMark <:+: text := by
  have hall : errorMark.all (fun c => c.toNat ≤ 127) = true := by decide
  have hascii : ∀ c ∈ errorMark, c.toNat ≤ 127 := by simpa using hall
  have hne : ∀ c, String.utf8EncodeChar c ≠ [] := fun c => String.utf8EncodeChar_ne_nil
  show decide (utf8 errorMark <:+: utf8 text) = true ↔ _
  rw [decide_eq_true_eq]
  exact LetterCoding.infix_iff (fun c hc => LetterCoding.utf8_oneUnit (hascii c hc)) hne text

def PutsErrors (s t : Stream) : Prop := ∃ errors : List (List Char),
  (∀ e ∈ errors, errorMark <:+: e) ∧ t.items = s.items ++ errors.map some

theorem putsErrors_of_eq {s t : Stream} (h : t.items = s.items) : PutsErrors s t :=
  ⟨[], by simp, by rw [h, List.map_nil, List.append_nil]⟩

instance : Std.Refl PutsErrors := ⟨fun _ => putsErrors_of_eq rfl⟩

instance : IsTrans Stream PutsErrors where
  trans := by
    rintro s t u ⟨a, ha, hs⟩ ⟨b, hb, ht⟩
    refine ⟨a ++ b, fun e he => ?_, by rw [ht, hs, List.map_append, List.append_assoc]⟩
    exact (List.mem_append.mp he).elim (ha e) (hb e)

theorem observe_putsErrors (metric : Metric) : Leads PutsErrors (observe metric) :=
  leads_modify (fun _ => putsErrors_of_eq rfl)

theorem exceptBlock_putsErrors (name : String) (e : Raised) :
    Leads PutsErrors (exceptBlock name e) := by
  obtain ⟨isException, message⟩ := e
  cases isException with
  | false => exact leads_throw _
  | true =>
    cases message with
    | none => exact leads_throw _
    | some message =>
      apply leads_bind
      · exact leads_modify (fun _ => ⟨[errorMark ++ ' '::message],
          by simpa using (List.prefix_append errorMark _).isInfix, rfl⟩)
      · exact fun _ => observe_putsErrors _

theorem produced_split {m : Manager} {engine : Engine} {prompt : List Char} {requestId : String}
    {outputs : List (Option (List Char))} {ending : Option Raised} (he : m.engine = some engine)
    (hg : engine prompt samplingParams requestId = .yields outputs ending) :
    ∃ texts errors : List (List Char), generated m prompt requestId = texts.map some ∧
      (∀ e ∈ errors, errorMark <:+: e) ∧
      produced m prompt requestId = (texts ++ errors).map some ++ [none] := by
  have hgen : generated m prompt requestId =
      (finalState (iterate m.deploymentName outputs fresh)).items := by
    simp only [generated, he, hg]
  obtain ⟨texts, ht⟩ := iterate_puts m.deploymentName outputs fresh
  have hafter : PutsErrors (finalState (iterate m.deploymentName outputs fresh))
      (finalState (tryCatch (tryBlock m.deploymentName outputs ending)
        (exceptBlock m.deploymentName) fresh)) := by
    apply leads_after
    · intro _
      cases ending with
      | none => exact leads_bind (observe_putsErrors _) (fun _ => observe_putsErrors _)
      | some e => exact leads_throw e
    · exact exceptBlock_putsErrors m.deploymentName
  obtain ⟨errors, herr, hitems⟩ := hafter
  refine ⟨texts, errors, hgen.trans ht, herr, ?_⟩
  have hrun : generateStream m prompt requestId =
      finallyDo (tryCatch (tryBlock m.deploymentName outputs ending)
        (exceptBlock m.deploymentName)) (put none) := by
    simp only [generateStream, he, hg]
  have hput : ∀ s : Stream, (finalState (put none s)).items = s.items ++ [none] := fun _ => rfl
  rw [produced, hrun, finalState_finallyDo, hput, hitems, ht, List.map_append]
  rfl

def answers (texts : List (List Char)) : List ReplicaReply :=
  texts.map (fun text => reply (utf8 text))

/-- A refused reply ends the answer; until then nothing is skipped. -/
theorem replies_prefix {texts : List (List Char)} (s : State) (a : Act) (s' : State)
    (h : ClosedQueue.Inv texts s ∧ s.replies <+: answers texts) (hs : step s a = some s') :
    ClosedQueue.Inv texts s' ∧ s'.replies <+: answers texts := by
  have hi := step_inv s a s' h.1 hs
  refine ⟨hi, ?_⟩
  by_cases hstop : s'.server = .stopped
  · cases a with
    | put =>
      obtain ⟨item, pending, -, rfl⟩ := step_put hs
      exact h.2
    | get =>
      obtain ⟨-, ⟨item, q, -, -, rfl⟩ | ⟨-, -, rfl⟩⟩ := step_get hs
      · exact h.2
      · exact h.2
    | write accepted =>
      obtain ⟨item, -, rfl⟩ := step_write hs
      cases accepted with
      | true => cases hstop
      | false => exact h.2
  · exact ⟨_, hi.flow hstop⟩

theorem accepting_step {s s' : State} {a : Act} (hs : step s a = some s')
    (hns : s.server ≠ .stopped) : ∃ b t, step s b = some t ∧ t.server ≠ .stopped := by
  cases a with
  | put =>
    obtain ⟨item, pending, -, rfl⟩ := step_put hs
    exact ⟨.put, _, hs, hns⟩
  | get =>
    obtain ⟨-, ⟨item, q, -, -, rfl⟩ | ⟨-, -, rfl⟩⟩ := step_get hs
    · exact ⟨.get, _, hs, by simp⟩
    · exact ⟨.get, _, hs, by simp⟩
  | write accepted =>
    obtain ⟨item, hw, -⟩ := step_write hs
    exact ⟨.write true, { s with server := .getting, replies := s.replies ++ [reply item] },
      by simp [step, hw], by simp⟩

/-- The run can be continued until every text is answered. -/
theorem answered {texts : List (List Char)} (s : State) (hi : ClosedQueue.Inv texts s)
    (hns : s.server ≠ .stopped) :
    ∃ as t, Runs.exec step as s = some t ∧ t.replies = answers texts := by
  induction hn : remaining s using Nat.strong_induction_on generalizing s with
  | _ n ih =>
    by_cases hrest : ∀ a, step s a = none
    · exact ⟨[], s, rfl, ((hi.at_rest hrest).2 hns).2⟩
    · push Not at hrest
      obtain ⟨a, ha⟩ := hrest
      obtain ⟨u, hu⟩ := Option.ne_none_iff_exists'.mp ha
      obtain ⟨b, v, hv, hvs⟩ := accepting_step hu hns
      obtain ⟨as, t, ht, hr⟩ := ih (remaining v) (hn ▸ step_remaining s b v hv) v
        (step_inv s b v hi hv) hvs rfl
      exact ⟨b::as, t, Runs.exec_cons.mpr ⟨v, hv, ht⟩, hr⟩

theorem flags_iff {texts errors : List (List Char)} (he : ∀ e ∈ errors, errorMark <:+: e) :
    (∀ as s, Runs.exec step as (start ((texts ++ errors).map some ++ [none])) = some s →
      ∀ (i : ℕ) r, s.replies[i]? = some r → (r.isError = true ↔ texts.length ≤ i)) ↔
    ∀ text ∈ texts, ¬ errorMark <:+: text := by
  constructor
  · intro h text ht hmark
    obtain ⟨i, hi⟩ := List.getElem?_of_mem ht
    obtain ⟨hlt, -⟩ := List.getElem?_eq_some_iff.mp hi
    obtain ⟨as, s, hr, hreplies⟩ := answered _ (start_inv (texts ++ errors)) (by simp [start])
    have hget : s.replies[i]? = some (reply (utf8 text)) := by
      rw [hreplies, answers, List.getElem?_map, List.getElem?_append_left hlt, hi, Option.map_some]
    have hle := (h as s hr i _ hget).mp ((mark_infix_iff text).mpr hmark)
    omega
  · intro h as s hr i r hget
    obtain ⟨-, hpre⟩ := Runs.exec_invariant replies_prefix
      ⟨start_inv (texts ++ errors), List.nil_prefix⟩ hr
    obtain ⟨rest, hrest⟩ := hpre
    have hall : (answers (texts ++ errors))[i]? = some r := by
      rw [← hrest, List.getElem?_append_left (List.getElem?_eq_some_iff.mp hget).1, hget]
    rw [answers, List.getElem?_map, Option.map_eq_some_iff] at hall
    obtain ⟨text, ht, rfl⟩ := hall
    rw [mark_infix_iff]
    rcases lt_or_ge i texts.length with hlt | hge
    · rw [List.getElem?_append_left hlt] at ht
      have hno := h text (List.mem_of_getElem? ht)
      constructor
      · exact fun hm => absurd hm hno
      · omega
    · rw [List.getElem?_append_right hge] at ht
      exact ⟨fun _ => hge, fun _ => he text (List.mem_of_getElem? ht)⟩

/-- Flags tell exceptions from text exactly when no piece of the generated
text contains the mark. -/
theorem flags_exceptions_iff (m : Manager) (prompt : List Char) (requestId : String) :
    FlagsExceptions m prompt requestId ↔ Unmarked m prompt requestId := by
  have hnothing : produced m (formatted prompt) requestId = [] →
      FlagsExceptions m prompt requestId := by
    intro hp as s hr i r hget
    rw [hp] at hr
    rw [unput_waits hr] at hget
    cases hget
  cases he : m.engine with
  | none =>
    have hflags := hnothing (produced_unbuilt he (formatted prompt) requestId)
    simp only [Unmarked, he, hflags]
  | some engine =>
    cases hgen : engine (formatted prompt) samplingParams requestId with
    | raises e =>
      have hflags := hnothing (produced_raises he hgen)
      simp only [Unmarked, he, hgen, hflags]
    | yields outputs ending =>
      obtain ⟨texts, errors, hg, herr, hp⟩ := produced_split he hgen
      have hpieces : texts = pieces 0 outputs := by
        have hitems := iterate_pieces m.deploymentName outputs fresh
        simp only [generated, he, hgen] at hg
        rw [hg] at hitems
        exact List.map_injective_iff.mpr (Option.some_injective _) hitems
      rw [FlagsExceptions, hp, hg, List.length_map, flags_iff herr, hpieces]
      simp only [Unmarked, he, hgen]

def quoting : Manager where
  deploymentName := "/v1/chat/tinyllama"
  deploymentId := 2
  metricsPort := 9001
  modelId := "TinyLlama/TinyLlama-1.1B-Chat-v1.0"
  engine := some (fun _ _ _ => .yields [some "It prints [PYTHON ERROR] there.".toList] none)

/-- The quoted mark is taken for an exception. -/
theorem quoted_mark_flagged : ¬ FlagsExceptions quoting ['h', 'i'] "request" := by
  intro h
  have hflag := h [.put, .put, .get, .write true] _ rfl 0 _ rfl
  exact absurd (hflag.mp (by decide)) (by decide)

end ServingSystem.ErrorFlags
