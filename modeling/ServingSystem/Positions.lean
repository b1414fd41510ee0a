import Mathlib.Algebra.Order.Ring.Int
import Mathlib.Data.List.Basic
import Mathlib.Data.List.Forall2
import Mathlib.Data.List.Nodup
import Mathlib.Tactic.Common

/-!
# Lists updated at a position

Counting and membership after one element of a list is replaced, and the
shape of a list that ends with a known element or is cut at one.
-/

set_option autoImplicit false

namespace ServingSystem.Positions

variable {α : Type*}

theorem getElem?_snoc {l : List α} {a b : α} {j : ℕ} :
    (l ++ [a])[j]? = some b ↔ l[j]? = some b ∨ (j = l.length ∧ b = a) := by
  rcases lt_trichotomy j l.length with h | h | h
  · rw [List.getElem?_append_left h]
    exact ⟨Or.inl, fun hc => hc.elim id (fun hc => absurd hc.1 h.ne)⟩
  · subst h
    simp [eq_comm]
  · have hn : l[j]? = none := List.getElem?_eq_none h.le
    rw [List.getElem?_eq_none (by simpa using Nat.succ_le_of_lt h)]
    simp [hn, h.ne']

theorem countP_set (p : α → Bool) {l : List α} {k : ℕ} {c : α} (h : l[k]? = some c) (c' : α) :
    ((l.set k c').countP p : ℤ) =
      l.countP p-(if p c then 1 else 0)+(if p c' then 1 else 0) := by
  obtain ⟨hk, hc⟩ := List.getElem?_eq_some_iff.mp h
  have hpos : (if p c then 1 else 0) ≤ l.countP p := by
    split
    next hp => exact List.countP_pos_iff.mpr ⟨c, List.mem_of_getElem? h, hp⟩
    next => exact Nat.zero_le _
  rw [List.countP_set hk, hc]
  push_cast [Nat.cast_sub hpos]
  rfl

theorem mem_set {l : List α} {k : ℕ} {a b : α} (h : b ∈ l.set k a) : b = a ∨ b ∈ l := by
  rcases List.mem_or_eq_of_mem_set h with h | h
  · exact Or.inr h
  · exact Or.inl h

theorem getElem?_set_cases {l : List α} {j k : ℕ} {a b : α} (h : (l.set k a)[j]? = some b) :
    (j = k ∧ b = a) ∨ (j ≠ k ∧ l[j]? = some b) := by
  by_cases hj : j = k
  · subst hj
    have hlt : j < l.length := by
      have hlen := (List.getElem?_eq_some_iff.mp h).1
      rwa [List.length_set] at hlen
    rw [List.getElem?_set_self hlt] at h
    exact Or.inl ⟨rfl, (Option.some.inj h).symm⟩
  · rw [List.getElem?_set_ne (Ne.symm hj)] at h
    exact Or.inr ⟨hj, h⟩

theorem index_unique {β : Type*} {f : α → β} {l : List α} (hn : (l.map f).Nodup) {j k : ℕ}
    {a b : α} (ha : l[j]? = some a) (hb : l[k]? = some b) (h : f a = f b) : j = k := by
  have hj : (l.map f)[j]? = some (f a) := by rw [List.getElem?_map, ha, Option.map_some]
  have hk : (l.map f)[k]? = some (f a) := by rw [List.getElem?_map, hb, Option.map_some, h]
  obtain ⟨hlt, he⟩ := List.getElem?_eq_some_iff.mp hj
  exact (List.Nodup.getElem_inj_iff hn).mp (he.trans (List.getElem?_eq_some_iff.mp hk).2.symm)

theorem map_set_eq {β : Type*} {f : α → β} {l : List α} {k : ℕ} {a b : α} (h : l[k]? = some a)
    (hf : f b = f a) : (l.set k b).map f = l.map f := by
  obtain ⟨hk, rfl⟩ := List.getElem?_eq_some_iff.mp h
  rw [List.map_set, hf, ← List.map_set, List.set_getElem_self]

theorem filterMap_set_eq {β : Type*} {f : α → Option β} {l : List α} {k : ℕ} {a b : α}
    (h : l[k]? = some a) (hf : f b = f a) : (l.set k b).filterMap f = l.filterMap f := by
  have hmap : ∀ l : List α, l.filterMap f = (l.map f).filterMap id := fun l => by
    rw [List.filterMap_map]
    rfl
  rw [hmap, hmap, map_set_eq h hf]

theorem filterMap_set_perm {β : Type*} {f : α → Option β} {l : List α} {k : ℕ} {a b : α} {c : β}
    (h : l[k]? = some a) (ha : f a = none) (hb : f b = some c) :
    ((l.set k b).filterMap f).Perm (c::l.filterMap f) := by
  induction l generalizing k with
  | nil => cases h
  | cons x l ih =>
    cases k with
    | zero =>
      obtain rfl := Option.some.inj h
      rw [List.set_cons_zero, List.filterMap_cons_some hb, List.filterMap_cons_none ha]
    | succ k =>
      rw [List.set_cons_succ]
      cases hx : f x with
      | none =>
        rw [List.filterMap_cons_none hx, List.filterMap_cons_none hx]
        exact ih h
      | some d =>
        rw [List.filterMap_cons_some hx, List.filterMap_cons_some hx]
        exact ((ih h).cons d).trans (List.Perm.swap c d _)

theorem filterMap_unset_perm {β : Type*} {f : α → Option β} {l : List α} {k : ℕ} {a b : α} {c : β}
    (h : l[k]? = some a) (ha : f a = some c) (hb : f b = none) :
    (c::(l.set k b).filterMap f).Perm (l.filterMap f) := by
  obtain ⟨hk, hc⟩ := List.getElem?_eq_some_iff.mp h
  have hset := filterMap_set_perm (List.getElem?_set_self (a := b) hk) hb ha
  rw [List.set_set, ← hc, List.set_getElem_self] at hset
  exact hset.symm

theorem map_modify_eq {β : Type*} {f : α → α} {g : α → β} (h : ∀ a, g (f a) = g a) (l : List α)
    (i : ℕ) : (l.modify i f).map g = l.map g := by
  induction l generalizing i with
  | nil => cases i <;> rfl
  | cons a l ih =>
    cases i with
    | zero => rw [List.modify_zero_cons, List.map_cons, h, List.map_cons]
    | succ i => rw [List.modify_succ_cons, List.map_cons, ih, List.map_cons]

theorem forall_modify {P : α → Prop} {f : α → α} (hf : ∀ a, P a → P (f a)) {l : List α}
    (h : ∀ a ∈ l, P a) (i : ℕ) : ∀ a ∈ l.modify i f, P a := by
  intro a ha
  obtain ⟨j, hj⟩ := List.getElem?_of_mem ha
  rw [List.getElem?_modify] at hj
  obtain ⟨b, hb, rfl⟩ := Option.map_eq_some_iff.mp hj
  have hp := h b (List.mem_of_getElem? hb)
  split
  · exact hf b hp
  · exact hp

theorem forall₂_getElem? {α β : Type} {R : α → β → Prop} {l : List α} {l' : List β}
    (h : List.Forall₂ R l l') {k : ℕ} {a : α} (ha : l[k]? = some a) :
    ∃ b, l'[k]? = some b ∧ R a b := by
  induction h generalizing k with
  | nil => cases ha
  | @cons x y l l' hxy _ ih =>
    cases k with
    | zero => exact ⟨y, rfl, Option.some.inj ha ▸ hxy⟩
    | succ k => exact ih ha

theorem forall₂_set {α β : Type} {R : α → β → Prop} {l : List α} {l' : List β}
    (h : List.Forall₂ R l l') {k : ℕ} {a : α} {b : β} (hab : R a b) :
    List.Forall₂ R (l.set k a) (l'.set k b) := by
  induction h generalizing k with
  | nil => exact List.Forall₂.nil
  | cons hxy ht ih =>
    cases k with
    | zero => exact List.Forall₂.cons hab ht
    | succ k => exact List.Forall₂.cons hxy ih

theorem forall₂_snoc {α β : Type} {R : α → β → Prop} {l : List α} {l' : List β}
    (h : List.Forall₂ R l l') {a : α} {b : β} (hab : R a b) :
    List.Forall₂ R (l ++ [a]) (l' ++ [b]) :=
  List.rel_append h (List.Forall₂.cons hab List.Forall₂.nil)

/-- In a list that ends with `a`, what follows a position is empty exactly
when the element there is that last one. -/
theorem split_snoc {l pre rest : List α} {a b : α} (h : l ++ b::rest = pre ++ [a]) :
    (rest = [] ∧ l = pre ∧ b = a) ∨
      ∃ rest', rest = rest' ++ [a] ∧ pre = l ++ b::rest' := by
  rcases List.eq_nil_or_concat rest with rfl | ⟨rest', c, rfl⟩
  · obtain ⟨hl, hb⟩ := List.append_inj' h rfl
    exact Or.inl ⟨rfl, hl, List.cons.inj hb |>.1⟩
  · right
    rw [List.concat_eq_append, ← List.cons_append, ← List.append_assoc] at h
    obtain ⟨hl, hb⟩ := List.append_inj' h rfl
    exact ⟨rest', by rw [List.concat_eq_append, (List.cons.inj hb).1], hl.symm⟩

/-- A list is cut in one way only at the first occurrence of an element. -/
theorem split_unique {c : α} {a a' b b' : List α} (ha : c ∉ a) (ha' : c ∉ a')
    (h : a ++ c::b = a' ++ c::b') : a = a' ∧ b = b' := by
  induction a generalizing a' with
  | nil =>
    cases a' with
    | nil => exact ⟨rfl, (List.cons.inj h).2⟩
    | cons x a' =>
      obtain ⟨rfl, -⟩ := List.cons.inj h
      simp at ha'
  | cons x a ih =>
    cases a' with
    | nil =>
      obtain ⟨rfl, -⟩ := List.cons.inj h
      simp at ha
    | cons y a' =>
      obtain ⟨rfl, ht⟩ := List.cons.inj h
      obtain ⟨rfl, rfl⟩ := ih (fun hc => ha (by simp [hc])) (fun hc => ha' (by simp [hc])) ht
      exact ⟨rfl, rfl⟩

end ServingSystem.Positions
