import ServingSystem.Dict
import ServingSystem.StateExcept

/-!
# Futures by key

`FutureManager` over the futures of one event loop. A future is done once and
`set_result` on a done future raises. `resolved` records the futures that were
given a result, in order; no operation reads it.
-/

set_option autoImplicit false

namespace ServingSystem

inductive Future (α : Type) where
  | pending
  | finished (value : α)
  | cancelled
  deriving DecidableEq, Repr

inductive FutureErr where
  | runtimeError
  | invalidStateError
  deriving DecidableEq, Repr

def Future.done {α : Type} : Future α → Bool
  | .pending => false
  | .finished _ => true
  | .cancelled => true

structure FutureManager (K α : Type) where
  heap : List (Future α)
  futures : Dict K ℕ
  resolved : List ℕ

namespace FutureManager
open StateExcept

variable {K α : Type} [DecidableEq K]

def initial : FutureManager K α := ⟨[], Dict.empty, []⟩

def createFuture (key : K) : EStateM FutureErr (FutureManager K α) ℕ := fun m =>
  match m.futures.get key with
  | some _ => .error .runtimeError m
  | none => .ok m.heap.length
      { m with heap := m.heap ++ [.pending], futures := m.futures.set key m.heap.length }

def resolve (fut : ℕ) (value : α) : EStateM FutureErr (FutureManager K α) Unit := fun m =>
  match m.heap[fut]? with
  | some .pending => .ok ()
      { m with heap := m.heap.set fut (.finished value), resolved := m.resolved ++ [fut] }
  | _ => .error .invalidStateError m

def isDone (m : FutureManager K α) (fut : ℕ) : Bool := m.heap[fut]?.any Future.done

def setResult (key : K) (value : α) : EStateM FutureErr (FutureManager K α) Unit := do
  let m ← get
  modify (fun m => { m with futures := m.futures.erase key })
  match m.futures.get key with
  | none => pure ()
  | some fut => if isDone m fut then pure () else resolve fut value

def cancel (m : FutureManager K α) (fut : ℕ) : FutureManager K α :=
  if isDone m fut then m else { m with heap := m.heap.set fut .cancelled }

/-- Every key leads to a future of its own, and a future with a result got it
once. -/
structure Sound (m : FutureManager K α) : Prop where
  mapped : ∀ key fut, m.futures.get key = some fut → fut < m.heap.length
  apart : ∀ key key' fut, m.futures.get key = some fut → m.futures.get key' = some fut →
    key = key'
  once : m.resolved.Nodup
  finished : ∀ fut ∈ m.resolved, ∃ value, m.heap[fut]? = some (.finished value)

theorem initial_sound : Sound (initial : FutureManager K α) :=
  ⟨by simp [initial], by simp [initial], by simp [initial], by simp [initial]⟩

theorem createFuture_absent {m : FutureManager K α} {key : K} (h : m.futures.get key = none) :
    createFuture key m = .ok m.heap.length { m with
      heap := m.heap ++ [.pending], futures := m.futures.set key m.heap.length } := by
  simp only [createFuture, h]

theorem createFuture_sound {m : FutureManager K α} (hm : Sound m) (key : K) :
    Sound { m with
      heap := m.heap ++ [.pending], futures := m.futures.set key m.heap.length } := by
  refine ⟨fun k fut h => ?_, fun k k' fut h h' => ?_, hm.once, fun fut hf => ?_⟩
  · rw [Dict.get_set] at h
    rw [List.length_append, List.length_singleton]
    split at h
    next =>
      obtain rfl := Option.some.inj h
      omega
    next =>
      have hlt := hm.mapped k fut h
      omega
  · rw [Dict.get_set] at h h'
    split at h <;> split at h'
    next hk hk' => exact hk.trans hk'.symm
    next =>
      obtain rfl := Option.some.inj h
      exact absurd (hm.mapped k' _ h') (lt_irrefl _)
    next =>
      obtain rfl := Option.some.inj h'
      exact absurd (hm.mapped k _ h) (lt_irrefl _)
    next => exact hm.apart k k' fut h h'
  · obtain ⟨value, hv⟩ := hm.finished fut hf
    exact ⟨value, (List.getElem?_append_left (List.getElem?_eq_some_iff.mp hv).1).trans hv⟩

theorem popped_sound {m : FutureManager K α} (hm : Sound m) (key : K) :
    Sound { m with futures := m.futures.erase key } := by
  have hsub : ∀ k fut, (m.futures.erase key).get k = some fut → m.futures.get k = some fut := by
    intro k fut h
    rw [Dict.get_erase] at h
    split at h
    next => cases h
    next => exact h
  exact ⟨fun k fut h => hm.mapped k fut (hsub k fut h),
    fun k k' fut h h' => hm.apart k k' fut (hsub k fut h) (hsub k' fut h'), hm.once, hm.finished⟩

theorem not_resolved {m : FutureManager K α} (hm : Sound m) {fut : ℕ}
    (hp : m.heap[fut]? = some .pending) : fut ∉ m.resolved := by
  intro hf
  obtain ⟨v, hv⟩ := hm.finished fut hf
  rw [hp] at hv
  cases hv

theorem resolved_sound {m : FutureManager K α} (hm : Sound m) {fut : ℕ} (value : α)
    (hp : m.heap[fut]? = some .pending) :
    Sound { m with
      heap := m.heap.set fut (.finished value), resolved := m.resolved ++ [fut] } := by
  refine ⟨fun key f h => ?_, hm.apart, ?_, fun f hf => ?_⟩
  · rw [List.length_set]
    exact hm.mapped key f h
  · rw [← List.concat_eq_append, List.nodup_concat]
    exact ⟨not_resolved hm hp, hm.once⟩
  · rw [List.getElem?_set]
    by_cases h : fut = f
    · subst h
      exact ⟨value, by simp [(List.getElem?_eq_some_iff.mp hp).1]⟩
    · rw [if_neg h]
      rcases List.mem_append.mp hf with hf | hf
      · exact hm.finished f hf
      · exact absurd (List.mem_singleton.mp hf).symm h

structure Answers (m m' : FutureManager K α) (key : K) (value : α) : Prop where
  sound : Sound m'
  popped : m'.futures = m.futures.erase key
  answered : ∀ fut, m.futures.get key = some fut → m.heap[fut]? = some .pending →
    m'.heap = m.heap.set fut (.finished value)
  kept : ∀ fut, ¬ (m.futures.get key = some fut ∧ m.heap[fut]? = some .pending) →
    m'.heap[fut]? = m.heap[fut]?

theorem setResult_absent {m : FutureManager K α} {key : K} (h : m.futures.get key = none)
    (value : α) : setResult key value m = .ok () m := by
  simp only [setResult, get_bind, modify_bind, h, Dict.erase_absent h, pure_apply]

theorem setResult_answers {m : FutureManager K α} (hm : Sound m) (key : K) (value : α) :
    ∃ m', setResult key value m = .ok () m' ∧ Answers m m' key value := by
  cases hk : m.futures.get key with
  | none =>
    refine ⟨m, setResult_absent hk value, hm, (Dict.erase_absent hk).symm, ?_, fun _ _ => rfl⟩
    intro fut h
    rw [hk] at h
    cases h
  | some fut =>
    have hset : setResult key value m =
        (if isDone m fut then pure () else resolve fut value : EStateM FutureErr _ _)
          { m with futures := m.futures.erase key } := by
      simp only [setResult, get_bind, modify_bind, hk]
    obtain ⟨f, hf⟩ : ∃ f, m.heap[fut]? = some f :=
      ⟨_, List.getElem?_eq_getElem (hm.mapped key fut hk)⟩
    have hdone : f ≠ .pending → ∃ m', setResult key value m = .ok () m' ∧
        Answers m m' key value := by
      intro hne
      have hd : isDone m fut = true := by
        cases f with
        | pending => exact absurd rfl hne
        | finished v => rw [isDone, hf]; rfl
        | cancelled => rw [isDone, hf]; rfl
      rw [hd, if_pos rfl] at hset
      refine ⟨_, hset, popped_sound hm key, rfl, fun fut' h hp => ?_, fun _ _ => rfl⟩
      obtain rfl := Option.some.inj (hk.symm.trans h)
      exact absurd (Option.some.inj (hf.symm.trans hp)) hne
    cases f with
    | pending =>
      have hd : isDone m fut = false := by rw [isDone, hf]; rfl
      rw [hd, if_neg Bool.false_ne_true, resolve, hf] at hset
      refine ⟨_, hset, resolved_sound (popped_sound hm key) value hf, rfl, fun fut' h _ => ?_,
        fun fut' h => ?_⟩
      · obtain rfl := Option.some.inj (hk.symm.trans h)
        rfl
      · have hne : fut ≠ fut' := by
          rintro rfl
          exact h ⟨hk, hf⟩
        exact List.getElem?_set_ne hne
    | finished v => exact hdone (by simp)
    | cancelled => exact hdone (by simp)

omit [DecidableEq K] in
theorem cancel_cases (m : FutureManager K α) (fut : ℕ) :
    (isDone m fut ∧ cancel m fut = m) ∨
    (¬ isDone m fut ∧ cancel m fut = { m with heap := m.heap.set fut .cancelled }) := by
  unfold cancel
  by_cases h : isDone m fut
  · exact Or.inl ⟨h, if_pos h⟩
  · exact Or.inr ⟨h, if_neg h⟩

theorem cancel_sound {m : FutureManager K α} (hm : Sound m) (fut : ℕ) : Sound (cancel m fut) := by
  rcases cancel_cases m fut with ⟨-, h⟩ | ⟨hd, h⟩
  · rw [h]
    exact hm
  · rw [h]
    refine ⟨fun key f hk => ?_, hm.apart, hm.once, fun f hf => ?_⟩
    · rw [List.length_set]
      exact hm.mapped key f hk
    · obtain ⟨v, hv⟩ := hm.finished f hf
      have hne : fut ≠ f := by
        rintro rfl
        exact hd (by simp [isDone, hv, Future.done])
      exact ⟨v, (List.getElem?_set_ne hne).trans hv⟩

end FutureManager
end ServingSystem
