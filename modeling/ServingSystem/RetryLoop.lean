import Mathlib.Algebra.Order.Field.Basic
import Mathlib.Algebra.Order.Field.Rat
import Mathlib.Order.Interval.Set.Defs
import Mathlib.Tactic.Linarith
import Mathlib.Tactic.NormNum
import Mathlib.Tactic.Ring

/-!
# The retry loop

`try_send_with_retries` of the helpers over exact rationals: the calls and
the sleeps it makes, in order, and what it returns. The outcome of each
attempt and the jitter drawn before each sleep are given.
-/

set_option autoImplicit false

namespace ServingSystem.RetryLoop

structure Policy where
  numAttempts : ℕ
  delaySeconds : ℚ
  backoffFactor : ℚ
  maxDelay : ℚ
  jitter : Bool
  deriving DecidableEq, Repr

def defaultPolicy : Policy := ⟨3, 3, 2, 10, true⟩

def healthPolicy : Policy := { defaultPolicy with numAttempts := 3, delaySeconds := 2 }

inductive Event where
  | call (attempt : ℕ)
  | sleep (seconds : ℚ)
  deriving DecidableEq, Repr

inductive Output (ε α : Type) where
  | value (v : α)
  | exception (last : Option ε)
  deriving DecidableEq, Repr

structure Run (ε α : Type) where
  events : List Event
  output : Output ε α
  deriving DecidableEq, Repr

def Run.after {ε α : Type} (events : List Event) (run : Run ε α) : Run ε α :=
  { run with events := events ++ run.events }

abbrev Draw := Set.Icc (0 : ℚ) 1

def uniform (a b : ℚ) (u : Draw) : ℚ := a+(b-a)*u

section
variable {ε α : Type} (p : Policy) (outcome : ℕ → Except ε α) (draw : ℕ → Draw)

def backoffDelay (attempt : ℕ) (currentDelay : ℚ) : ℚ :=
  if p.jitter then currentDelay+uniform 0 currentDelay (draw attempt) else currentDelay

def attempts : ℕ → ℕ → ℚ → Option ε → Run ε α
  | 0, _, _, lastException => ⟨[], .exception lastException⟩
  | remaining+1, attempt, currentDelay, _ =>
    match outcome attempt with
    | .ok v => ⟨[.call attempt], .value v⟩
    | .error e =>
      if attempt < p.numAttempts then
        (attempts remaining (attempt+1) (min (currentDelay*p.backoffFactor) p.maxDelay)
          (some e)).after [.call attempt, .sleep (backoffDelay p draw attempt currentDelay)]
      else
        (attempts remaining (attempt+1) currentDelay (some e)).after [.call attempt]

def trySendWithRetries : Run ε α := attempts p outcome draw p.numAttempts 1 p.delaySeconds none

end

/-- A policy whose delays start at or below their cap and do not shrink. -/
structure Policy.Sound (p : Policy) : Prop where
  attempts : 1 ≤ p.numAttempts
  delay : 0 ≤ p.delaySeconds
  cap : p.delaySeconds ≤ p.maxDelay
  factor : 1 ≤ p.backoffFactor

def Policy.delayAt (p : Policy) (j : ℕ) : ℚ :=
  min (p.delaySeconds*p.backoffFactor^(j-1)) p.maxDelay

/-- Calls of consecutive attempts, with one sleep between any two. -/
def script (pause : ℕ → ℚ) (first : ℕ) : ℕ → List Event
  | 0 => []
  | 1 => [.call first]
  | m+2 => .call first::.sleep (pause first)::script pause (first+1) (m+1)

def Event.isCall : Event → Bool
  | .call _ => true
  | .sleep _ => false

def Event.duration : Event → ℚ
  | .call _ => 0
  | .sleep seconds => seconds

def Run.calls {ε α : Type} (run : Run ε α) : ℕ := run.events.countP Event.isCall

def Run.slept {ε α : Type} (run : Run ε α) : ℚ := (run.events.map Event.duration).sum

structure FirstSuccess {ε α : Type} (outcome : ℕ → Except ε α) (k : ℕ) (v : α) : Prop where
  pos : 1 ≤ k
  succeeds : outcome k = .ok v
  before : ∀ i, 1 ≤ i → i < k → ∃ e, outcome i = .error e

def AllFail {ε α : Type} (outcome : ℕ → Except ε α) (n : ℕ) : Prop :=
  ∀ i, 1 ≤ i → i ≤ n → ∃ e, outcome i = .error e

theorem FirstSuccess.unique {ε α : Type} {outcome : ℕ → Except ε α} {k k' : ℕ}
    {v v' : α} (h : FirstSuccess outcome k v) (h' : FirstSuccess outcome k' v') :
    k = k' ∧ v = v' := by
  have hle : ∀ {k k' v v'}, FirstSuccess outcome k v → FirstSuccess outcome k' v' → k ≤ k' := by
    intro k k' v v' h h'
    by_contra hlt
    obtain ⟨e, he⟩ := h.before k' h'.pos (Nat.lt_of_not_le hlt)
    cases he.symm.trans h'.succeeds
  obtain rfl : k = k' := Nat.le_antisymm (hle h h') (hle h' h)
  exact ⟨rfl, Except.ok.inj (h.succeeds.symm.trans h'.succeeds)⟩

theorem FirstSuccess.not_allFail {ε α : Type} {outcome : ℕ → Except ε α} {k n : ℕ}
    {v : α} (h : FirstSuccess outcome k v) (hk : k ≤ n) :
    ¬ AllFail outcome n := by
  intro hall
  obtain ⟨e, he⟩ := hall k h.pos hk
  cases he.symm.trans h.succeeds

structure Contract {ε α : Type} (p : Policy) (outcome : ℕ → Except ε α) (run : Run ε α) :
    Prop where
  calls : ∀ k v, FirstSuccess outcome k v → run.calls = min p.numAttempts k
  value : ∀ k v, FirstSuccess outcome k v → k ≤ p.numAttempts → run.output = .value v
  exhausted : AllFail outcome p.numAttempts → run.calls = p.numAttempts ∧
    ∃ e, outcome p.numAttempts = .error e ∧ run.output = .exception (some e)
  sleeps : ∃ pause, run.events = script pause 1 run.calls ∧
    ∀ j, 1 ≤ j → j < run.calls → p.delayAt j ≤ pause j ∧ pause j ≤ 2*p.delayAt j
  total : run.slept ≤ 2*((p.numAttempts : ℚ)-1)*p.maxDelay

theorem uniform_bounds {x : ℚ} (hx : 0 ≤ x) (u : Draw) : 0 ≤ uniform 0 x u ∧ uniform 0 x u ≤ x := by
  obtain ⟨u, h0, h1⟩ := u
  have hmul : x*u ≤ x*1 := mul_le_mul_of_nonneg_left h1 hx
  simp only [uniform, sub_zero, zero_add]
  exact ⟨mul_nonneg hx h0, by linarith⟩

theorem backoffDelay_bounds (p : Policy) (draw : ℕ → Draw) (j : ℕ) {x : ℚ} (hx : 0 ≤ x) :
    x ≤ backoffDelay p draw j x ∧ backoffDelay p draw j x ≤ 2*x := by
  obtain ⟨h0, h1⟩ := uniform_bounds hx (draw j)
  unfold backoffDelay
  split
  · exact ⟨by linarith, by linarith⟩
  · exact ⟨le_refl x, by linarith⟩

section
variable {p : Policy} (hp : p.Sound)
include hp

theorem Policy.Sound.maxDelay_nonneg : 0 ≤ p.maxDelay := hp.delay.trans hp.cap

theorem delayAt_one : p.delayAt 1 = p.delaySeconds := by
  simp [Policy.delayAt, hp.cap]

theorem delayAt_nonneg (j : ℕ) : 0 ≤ p.delayAt j :=
  le_min (mul_nonneg hp.delay (pow_nonneg (zero_le_one.trans hp.factor) _)) hp.maxDelay_nonneg

/-- The loop multiplies the capped delay and caps it again; a delay that has
reached the cap stays there. -/
theorem delayAt_succ {j : ℕ} (hj : 1 ≤ j) :
    min (p.delayAt j*p.backoffFactor) p.maxDelay = p.delayAt (j+1) := by
  obtain ⟨i, rfl⟩ := Nat.exists_eq_add_of_le' hj
  have hstep : p.delaySeconds*p.backoffFactor^(i+1) =
      p.delaySeconds*p.backoffFactor^i*p.backoffFactor := by rw [pow_succ, mul_assoc]
  simp only [Policy.delayAt, Nat.add_sub_cancel, hstep]
  rcases le_total (p.delaySeconds*p.backoffFactor^i) p.maxDelay with hle | hle
  · rw [min_eq_left hle]
  · have hb : 0 ≤ p.backoffFactor := zero_le_one.trans hp.factor
    have hcap : p.maxDelay ≤ p.maxDelay*p.backoffFactor :=
      le_mul_of_one_le_right hp.maxDelay_nonneg hp.factor
    have huncapped : p.maxDelay ≤ p.delaySeconds*p.backoffFactor^i*p.backoffFactor :=
      hcap.trans (mul_le_mul_of_nonneg_right hle hb)
    rw [min_eq_right hle, min_eq_right hcap, min_eq_right huncapped]

end

section
variable {ε α : Type} {p : Policy} (hp : p.Sound) (outcome : ℕ → Except ε α) (draw : ℕ → Draw)

def pause (p : Policy) (draw : ℕ → Draw) (j : ℕ) : ℚ := backoffDelay p draw j (p.delayAt j)

theorem script_cons (pause : ℕ → ℚ) (first m : ℕ) (hm : 1 ≤ m) :
    script pause first (m+1) = [.call first, .sleep (pause first)] ++ script pause (first+1) m := by
  obtain ⟨k, rfl⟩ := Nat.exists_eq_add_of_le' hm
  rfl

theorem script_calls (pause : ℕ → ℚ) (first m : ℕ) :
    (script pause first m).countP Event.isCall = m := by
  induction m generalizing first with
  | zero => rfl
  | succ m ih =>
    rcases Nat.eq_zero_or_pos m with rfl | hm
    · rfl
    · rw [script_cons pause first m hm, List.countP_append, ih]
      exact Nat.add_comm 1 m

theorem script_slept {pause : ℕ → ℚ} {bound : ℚ} (h : ∀ j, pause j ≤ bound) (first m : ℕ) :
    ((script pause first (m+1)).map Event.duration).sum ≤ m*bound := by
  induction m generalizing first with
  | zero => simp [script, Event.duration]
  | succ m ih =>
    have hrest := ih (first+1)
    have hpause := h first
    rw [script_cons pause first (m+1) (Nat.le_add_left 1 m), List.map_append, List.sum_append]
    simp only [List.map_cons, List.map_nil, Event.duration, List.sum_cons, List.sum_nil]
    push_cast
    linarith

include hp in
theorem attempts_again (rest : ℕ) {attempt : ℕ} {e : ε} (last : Option ε) (ha : 1 ≤ attempt)
    (hlt : attempt < p.numAttempts) (he : outcome attempt = .error e) :
    attempts p outcome draw (rest+1) attempt (p.delayAt attempt) last =
      (attempts p outcome draw rest (attempt+1) (p.delayAt (attempt+1)) (some e)).after
        [.call attempt, .sleep (pause p draw attempt)] := by
  simp only [attempts, he, hlt, if_true, delayAt_succ hp ha]
  rfl

include hp in
/-- From an attempt on, the first one that succeeds ends the loop, and
otherwise all are made. -/
theorem attempts_cases (rest attempt : ℕ) (last : Option ε) (ha : 1 ≤ attempt)
    (hn : attempt+rest = p.numAttempts) :
    (∃ m v, m ≤ rest ∧ outcome (attempt+m) = .ok v ∧
      (∀ i < m, ∃ e, outcome (attempt+i) = .error e) ∧
      attempts p outcome draw (rest+1) attempt (p.delayAt attempt) last =
        ⟨script (pause p draw) attempt (m+1), .value v⟩) ∨
    ((∀ i ≤ rest, ∃ e, outcome (attempt+i) = .error e) ∧
      ∃ e, outcome (attempt+rest) = .error e ∧
        attempts p outcome draw (rest+1) attempt (p.delayAt attempt) last =
          ⟨script (pause p draw) attempt (rest+1), .exception (some e)⟩) := by
  induction rest generalizing attempt last with
  | zero =>
    cases ho : outcome attempt with
    | ok v => exact Or.inl ⟨0, v, le_refl 0, ho, by simp, by simp only [attempts, ho]; rfl⟩
    | error e =>
      have hlast : ¬ attempt < p.numAttempts := by omega
      have hrun : attempts p outcome draw 1 attempt (p.delayAt attempt) last =
          ⟨[.call attempt], .exception (some e)⟩ := by
        simp only [attempts, ho, hlast, if_false]
        rfl
      refine Or.inr ⟨fun i hi => ?_, e, rfl, hrun⟩
      obtain rfl : i = 0 := Nat.le_zero.mp hi
      exact ⟨e, ho⟩
  | succ rest ih =>
    cases ho : outcome attempt with
    | ok v =>
      exact Or.inl ⟨0, v, Nat.zero_le _, ho, by simp, by simp only [attempts, ho]; rfl⟩
    | error e =>
      have hstep := attempts_again hp outcome draw (rest+1) last ha (by omega) ho
      -- the attempts from this one on are this one and those from the next on
      have hall : ∀ m, (∀ i < m, ∃ e, outcome (attempt+1+i) = .error e) →
          ∀ i < m+1, ∃ e, outcome (attempt+i) = .error e := by
        intro m hm i hi
        cases i with
        | zero => exact ⟨e, ho⟩
        | succ i => exact Nat.add_right_comm attempt i 1 ▸ hm i (by omega)
      rcases ih (attempt+1) (some e) (by omega) (by omega) with
        ⟨m, v, hm, hv, hbefore, hrun⟩ | ⟨hfail, e', he', hrun⟩
      · refine Or.inl ⟨m+1, v, by omega, ?_, hall m hbefore, ?_⟩
        · rw [← hv, Nat.add_right_comm, Nat.add_assoc]
        · rw [hstep, hrun, Run.after, script_cons _ _ _ (Nat.le_add_left 1 m)]
      · refine Or.inr ⟨fun i hi => hall (rest+1) (fun i hi => hfail i (by omega)) i (by omega),
          e', ?_, ?_⟩
        · rw [← he', Nat.add_right_comm, Nat.add_assoc]
        · rw [hstep, hrun, Run.after, script_cons _ _ _ (Nat.le_add_left 1 rest)]

include hp in
/-- The whole loop: it stops at the first success among its attempts, or
after the last of them. -/
theorem trySendWithRetries_cases :
    (∃ k v, k ≤ p.numAttempts ∧ FirstSuccess outcome k v ∧
      trySendWithRetries p outcome draw = ⟨script (pause p draw) 1 k, .value v⟩) ∨
    (AllFail outcome p.numAttempts ∧ ∃ e, outcome p.numAttempts = .error e ∧
      trySendWithRetries p outcome draw =
        ⟨script (pause p draw) 1 p.numAttempts, .exception (some e)⟩) := by
  obtain ⟨rest, hrest⟩ := Nat.exists_eq_add_of_le hp.attempts
  have hloop : trySendWithRetries p outcome draw =
      attempts p outcome draw (rest+1) 1 (p.delayAt 1) none := by
    rw [trySendWithRetries, delayAt_one hp, Nat.add_comm rest, ← hrest]
  rw [hloop, hrest]
  rcases attempts_cases hp outcome draw rest 1 none (le_refl 1) hrest.symm with
    ⟨m, v, hm, hv, hbefore, hrun⟩ | ⟨hfail, e, he, hrun⟩
  · refine Or.inl ⟨1+m, v, by omega, ⟨by omega, hv, fun i hi him => ?_⟩, ?_⟩
    · obtain ⟨j, rfl⟩ := Nat.exists_eq_add_of_le hi
      exact hbefore j (by omega)
    · rw [hrun, Nat.add_comm 1 m]
  · refine Or.inr ⟨fun i hi hin => ?_, e, he, by rw [hrun, Nat.add_comm 1 rest]⟩
    obtain ⟨j, rfl⟩ := Nat.exists_eq_add_of_le hi
    exact hfail j (by omega)

/-- Every sleep lies between its delay and twice its delay. -/
theorem pause_bounds (hp : p.Sound) (j : ℕ) :
    p.delayAt j ≤ pause p draw j ∧ pause p draw j ≤ 2*p.delayAt j :=
  backoffDelay_bounds p draw j (delayAt_nonneg hp j)

theorem script_total (hp : p.Sound) {k : ℕ} (hk : k ≤ p.numAttempts) :
    ((script (pause p draw) 1 k).map Event.duration).sum ≤
      2*((p.numAttempts : ℚ)-1)*p.maxDelay := by
  have hmax := hp.maxDelay_nonneg
  have hpause : ∀ j, pause p draw j ≤ 2*p.maxDelay := by
    intro j
    have hcap : p.delayAt j ≤ p.maxDelay := min_le_right _ _
    linarith [(pause_bounds draw hp j).2]
  have hone : (1 : ℚ) ≤ p.numAttempts := by exact_mod_cast hp.attempts
  cases k with
  | zero =>
    have hbound : 0 ≤ 2*((p.numAttempts : ℚ)-1)*p.maxDelay :=
      mul_nonneg (by linarith) hmax
    simpa [script] using hbound
  | succ m =>
    have hm : (m : ℚ)+1 ≤ p.numAttempts := by exact_mod_cast hk
    calc ((script (pause p draw) 1 (m+1)).map Event.duration).sum
        ≤ m*(2*p.maxDelay) := script_slept hpause 1 m
      _ ≤ ((p.numAttempts : ℚ)-1)*(2*p.maxDelay) :=
          mul_le_mul_of_nonneg_right (by linarith) (by linarith)
      _ = 2*((p.numAttempts : ℚ)-1)*p.maxDelay := by ring

/-- The loop calls until the first success or for all its attempts, returns
that value or the last exception, and sleeps within the stated bounds between
consecutive calls only. -/
theorem retries_meet_contract (hp : p.Sound) :
    Contract p outcome (trySendWithRetries p outcome draw) := by
  rcases trySendWithRetries_cases hp outcome draw with
    ⟨k, v, hk, hfirst, hrun⟩ | ⟨hall, e, he, hrun⟩
  · have hcalls : (trySendWithRetries p outcome draw).calls = k := by
      rw [Run.calls, hrun, script_calls]
    refine ⟨fun k' v' h => ?_, fun k' v' h _ => ?_, fun hall => ?_, ?_, ?_⟩
    · obtain ⟨rfl, -⟩ := hfirst.unique h
      rw [hcalls, min_eq_right hk]
    · obtain ⟨-, rfl⟩ := hfirst.unique h
      rw [hrun]
    · exact absurd hall (hfirst.not_allFail hk)
    · exact ⟨pause p draw, by rw [hcalls, hrun], fun j _ _ => pause_bounds draw hp j⟩
    · rw [Run.slept, hrun]
      exact script_total draw hp hk
  · have hcalls : (trySendWithRetries p outcome draw).calls = p.numAttempts := by
      rw [Run.calls, hrun, script_calls]
    have hlate : ∀ {k v}, FirstSuccess outcome k v → p.numAttempts < k := fun h =>
      Nat.lt_of_not_le (fun hk => h.not_allFail hk hall)
    refine ⟨fun k v h => ?_, fun k v h hk => ?_, fun _ => ⟨hcalls, e, he, by rw [hrun]⟩, ?_, ?_⟩
    · rw [hcalls, min_eq_left (hlate h).le]
    · exact absurd hk (Nat.not_le_of_lt (hlate h))
    · exact ⟨pause p draw, by rw [hcalls, hrun], fun j _ _ => pause_bounds draw hp j⟩
    · rw [Run.slept, hrun]
      exact script_total draw hp (le_refl _)

end

theorem healthPolicy_sound : healthPolicy.Sound := by
  constructor <;> norm_num [healthPolicy, defaultPolicy]

/-- A health report whose first two attempts raise. -/
theorem retries_meet_contract_health :
    let outcome : ℕ → Except String ℕ := fun i => if i < 3 then .error "unavailable" else .ok 1
    Contract healthPolicy outcome
      (trySendWithRetries healthPolicy outcome (fun _ => ⟨1, by simp⟩)) :=
  retries_meet_contract _ _ healthPolicy_sound

end ServingSystem.RetryLoop
