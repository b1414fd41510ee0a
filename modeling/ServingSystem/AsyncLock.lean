import Mathlib.Data.List.Nodup
import Mathlib.Data.List.Sublists

/-!
# A lock that serves in the order of arrival

`asyncio.Lock`: a task takes the lock at once if it is free and nobody waits,
and waits otherwise; the first waiter takes the lock when it is free; a waiter
may be cancelled. `arrived` records the tasks that asked for the lock and
`served` those that got it, both in order; no operation reads them.
-/

set_option autoImplicit false

namespace ServingSystem

structure AsyncLock (τ : Type*) where
  locked : Bool
  waiters : List τ
  arrived : List τ
  served : List τ

namespace AsyncLock

variable {τ : Type*}

def free : AsyncLock τ := ⟨false, [], [], []⟩

def acquire (l : AsyncLock τ) (t : τ) : Bool × AsyncLock τ :=
  if l.locked = false ∧ l.waiters = [] then
    (true, { l with locked := true, arrived := l.arrived ++ [t], served := l.served ++ [t] })
  else (false, { l with waiters := l.waiters ++ [t], arrived := l.arrived ++ [t] })

def next (l : AsyncLock τ) : Option (τ × AsyncLock τ) :=
  if l.locked then none else
  match l.waiters with
  | t::waiters => some (t, { l with locked := true, waiters, served := l.served ++ [t] })
  | [] => none

def release (l : AsyncLock τ) : AsyncLock τ := { l with locked := false }

def cancel [DecidableEq τ] (l : AsyncLock τ) (t : τ) : AsyncLock τ :=
  { l with waiters := l.waiters.erase t }

theorem acquire_cases (l : AsyncLock τ) (t : τ) :
    (l.locked = false ∧ l.waiters = [] ∧ l.acquire t = (true, { l with
      locked := true, arrived := l.arrived ++ [t], served := l.served ++ [t] })) ∨
    ((l.locked = true ∨ l.waiters ≠ []) ∧ l.acquire t = (false, { l with
      waiters := l.waiters ++ [t], arrived := l.arrived ++ [t] })) := by
  by_cases h : l.locked = false ∧ l.waiters = []
  · exact Or.inl ⟨h.1, h.2, if_pos h⟩
  · refine Or.inr ⟨?_, if_neg h⟩
    by_cases hl : l.locked = true
    · exact Or.inl hl
    · exact Or.inr (fun hw => h ⟨by simpa using hl, hw⟩)

theorem next_eq_some {l l' : AsyncLock τ} {t : τ} (h : l.next = some (t, l')) :
    l.locked = false ∧ ∃ waiters, l.waiters = t::waiters ∧
      l' = { l with locked := true, waiters, served := l.served ++ [t] } := by
  obtain ⟨hl, h⟩ := Option.ite_none_left_eq_some.mp h
  split at h
  next waiters hw =>
    obtain ⟨rfl, rfl⟩ := Prod.mk.inj (Option.some.inj h)
    exact ⟨by simpa using hl, waiters, hw, rfl⟩
  next => cases h

/-- Those served, then those that wait, stand as they arrived. -/
structure InOrder (l : AsyncLock τ) : Prop where
  order : (l.served ++ l.waiters).Sublist l.arrived
  once : l.arrived.Nodup

theorem free_inOrder : (free : AsyncLock τ).InOrder := ⟨List.Sublist.slnil, List.nodup_nil⟩

theorem nodup_snoc {l : List τ} {t : τ} (h : l.Nodup) (ht : t ∉ l) : (l ++ [t]).Nodup :=
  List.nodup_append.mpr ⟨h, List.nodup_singleton t, fun a ha b hb => by
    rintro rfl
    exact ht (List.mem_singleton.mp hb ▸ ha)⟩

/-- Of two members of a list without repetition one comes first. -/
theorem one_order {l : List τ} (h : l.Nodup) {a b : τ} (hab : [a, b].Sublist l)
    (hba : [b, a].Sublist l) : False := by
  induction l with
  | nil => cases hab
  | cons x l ih =>
    obtain ⟨hx, hl⟩ := List.nodup_cons.mp h
    cases hab with
    | cons _ hab =>
      cases hba with
      | cons _ hba => exact ih hl hab hba
      | cons_cons _ _ => exact hx (hab.subset (by simp))
    | cons_cons _ _ =>
      cases hba with
      | cons _ hba => exact hx (hba.subset (by simp))
      | cons_cons _ hba => exact hx (hba.subset (by simp))

section
variable {l l' : AsyncLock τ} (hi : l.InOrder)
include hi

theorem InOrder.acquire {t : τ} (ht : t ∉ l.arrived) : (l.acquire t).2.InOrder := by
  rcases l.acquire_cases t with ⟨-, hw, h⟩ | ⟨-, h⟩
  · rw [h]
    refine ⟨?_, nodup_snoc hi.once ht⟩
    have horder := hi.order
    rw [hw, List.append_nil] at horder
    simpa [hw] using horder.append (List.Sublist.refl [t])
  · rw [h]
    refine ⟨?_, nodup_snoc hi.once ht⟩
    have happ := hi.order.append (List.Sublist.refl [t])
    rwa [List.append_assoc] at happ

theorem InOrder.next {t : τ} (h : l.next = some (t, l')) : l'.InOrder := by
  obtain ⟨-, waiters, hw, rfl⟩ := next_eq_some h
  refine ⟨?_, hi.once⟩
  have horder := hi.order
  rw [hw] at horder
  simpa using horder

theorem InOrder.release : l.release.InOrder := ⟨hi.order, hi.once⟩

theorem InOrder.cancel [DecidableEq τ] (t : τ) : (l.cancel t).InOrder :=
  ⟨(((List.Sublist.refl l.served).append (List.erase_sublist)).trans hi.order), hi.once⟩

theorem InOrder.waiters_nodup : l.waiters.Nodup :=
  ((List.sublist_append_right _ _).trans hi.order).nodup hi.once

theorem mem_cancel [DecidableEq τ] {t x : τ} :
    x ∈ (l.cancel t).waiters ↔ x ≠ t ∧ x ∈ l.waiters := hi.waiters_nodup.mem_erase_iff

theorem InOrder.waiting_arrived {t : τ} (h : t ∈ l.waiters) : t ∈ l.arrived :=
  hi.order.subset (List.mem_append_right _ h)

/-- A task that waits is served before every task that asked later. -/
theorem InOrder.not_overtaken {a b : τ} (hab : [a, b].Sublist l.arrived) (ha : a ∈ l.waiters) :
    b ∉ l.served := by
  intro hb
  have hba : [b, a].Sublist (l.served ++ l.waiters) :=
    (List.singleton_sublist.mpr hb).append (List.singleton_sublist.mpr ha)
  exact one_order hi.once hab (hba.trans hi.order)

end

structure Took (l l' : AsyncLock τ) (t : τ) : Prop where
  free : l.locked = false
  locked : l'.locked = true
  inOrder : l'.InOrder
  arrived : ∀ x, x ∈ l'.arrived ↔ x = t ∨ x ∈ l.arrived
  waiters : ∀ x, x ∈ l'.waiters ↔ x ≠ t ∧ x ∈ l.waiters

theorem took_acquire {l l' : AsyncLock τ} {t : τ} (hi : l.InOrder) (ht : t ∉ l.arrived)
    (h : l.acquire t = (true, l')) : Took l l' t := by
  have hi' := hi.acquire ht
  rcases l.acquire_cases t with ⟨hl, hw, h'⟩ | ⟨-, h'⟩
  · rw [h] at hi'
    obtain ⟨-, rfl⟩ := Prod.mk.inj (h.symm.trans h')
    exact ⟨hl, rfl, hi', fun x => by simp [or_comm], fun x => by simp [hw]⟩
  · cases (Prod.mk.inj (h.symm.trans h')).1

theorem took_next {l l' : AsyncLock τ} {t : τ} (hi : l.InOrder) (h : l.next = some (t, l')) :
    Took l l' t := by
  have hi' := hi.next h
  obtain ⟨hl, waiters, hw, rfl⟩ := next_eq_some h
  have ht : t ∈ l.waiters := hw ▸ List.mem_cons_self
  have hnodup : (t::waiters).Nodup := hw ▸ hi.waiters_nodup
  refine ⟨hl, rfl, hi', fun x => ?_, fun x => ?_⟩
  · exact ⟨Or.inr, fun h => h.elim (fun h => h.symm ▸ hi.waiting_arrived ht) id⟩
  · rw [hw, List.mem_cons]
    constructor
    · intro hx
      exact ⟨fun h => (List.nodup_cons.mp hnodup).1 (h ▸ hx), Or.inr hx⟩
    · rintro ⟨hne, h⟩
      exact h.resolve_left hne

end AsyncLock
end ServingSystem
