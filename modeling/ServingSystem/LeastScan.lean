import ServingSystem.Positions
import Mathlib.Data.List.MinMax

/-!
# The first least element of a list among the eligible ones

A left-to-right scan that replaces its candidate only by a strictly smaller
load returns the first position at which the least load is reached.
-/

set_option autoImplicit false

namespace ServingSystem.LeastScan
open Positions

variable {α β : Type*} [LinearOrder β]

section
variable (eligible : α → Prop) (load : α → β)

structure FirstLeast (l : List α) (i : ℕ) (a : α) : Prop where
  at_index : l[i]? = some a
  passes : eligible a
  least : ∀ (j : ℕ) (b : α), l[j]? = some b → eligible b → load a ≤ load b
  first : ∀ (j : ℕ) (b : α), l[j]? = some b → eligible b → j < i → load a < load b

/-- What a candidate has to satisfy after the elements of `l` were scanned. -/
def Best (l : List α) : Option (ℕ × α) → Prop
  | none => ∀ a ∈ l, ¬ eligible a
  | some (i, a) => FirstLeast eligible load l i a

variable [DecidablePred eligible]

def challenge (i : ℕ) (a : α) (best : Option (ℕ × α)) : Option (ℕ × α) :=
  if eligible a then
    match best with
    | none => some (i, a)
    | some b => if load a < load b.2 then some (i, a) else some b
  else best

def scan : List α → ℕ → Option (ℕ × α) → Option (ℕ × α)
  | [], _, best => best
  | a::l, i, best => scan l (i+1) (challenge eligible load i a best)

end

def firstMin (load : α → β) (l : List α) : Option α := l.argmin load

theorem firstMin_nil (load : α → β) : firstMin load [] = none := rfl

variable {eligible : α → Prop} {load : α → β}

theorem FirstLeast.unique {l : List α} {i j : ℕ} {a b : α}
    (ha : FirstLeast eligible load l i a) (hb : FirstLeast eligible load l j b) :
    i = j ∧ a = b := by
  have hij : i = j := by
    rcases lt_trichotomy i j with h | h | h
    · exact absurd (hb.first i a ha.at_index ha.passes h)
        (not_lt.mpr (ha.least j b hb.at_index hb.passes))
    · exact h
    · exact absurd (ha.first j b hb.at_index hb.passes h)
        (not_lt.mpr (hb.least i a ha.at_index ha.passes))
  subst hij
  exact ⟨rfl, Option.some.inj (ha.at_index.symm.trans hb.at_index)⟩

/-- The same position is first and least in a list of elements of the same
loads, all eligible. -/
theorem FirstLeast.transfer {γ : Type*} {load' : γ → β} {l : List α} {l' : List γ} {i : ℕ} {a : α}
    {c : γ} (h : FirstLeast eligible load l i a) (hc : l'[i]? = some c)
    (hl : ∀ (j : ℕ) (d : γ), l'[j]? = some d →
      ∃ b, l[j]? = some b ∧ eligible b ∧ load b = load' d) :
    FirstLeast (fun _ => True) load' l' i c := by
  obtain ⟨b, hb, -, hload⟩ := hl i c hc
  obtain rfl := Option.some.inj (h.at_index.symm.trans hb)
  refine ⟨hc, trivial, fun j d hj _ => ?_, fun j d hj _ hlt => ?_⟩
  · obtain ⟨b, hb, he, hd⟩ := hl j d hj
    rw [← hload, ← hd]
    exact h.least j b hb he
  · obtain ⟨b, hb, he, hd⟩ := hl j d hj
    rw [← hload, ← hd]
    exact h.first j b hb he hlt

/-- Where nothing is excluded and no element occurs twice, it is the minimum
of the list. -/
theorem FirstLeast.firstMin_eq [DecidableEq α] {l : List α} (hn : l.Nodup) {i : ℕ} {a : α}
    (h : FirstLeast (fun _ => True) load l i a) : firstMin load l = some a := by
  have hidx : ∀ (j : ℕ) (b : α), l[j]? = some b → l.idxOf b = j := by
    intro j b hj
    obtain ⟨hlt, rfl⟩ := List.getElem?_eq_some_iff.mp hj
    exact hn.idxOf_getElem j hlt
  apply List.mem_argmin_iff.mpr
  refine ⟨List.mem_of_getElem? h.at_index, fun b hb => ?_, fun b hb hle => ?_⟩
  · obtain ⟨j, hj⟩ := List.getElem?_of_mem hb
    exact h.least j b hj trivial
  · obtain ⟨j, hj⟩ := List.getElem?_of_mem hb
    rw [hidx i a h.at_index, hidx j b hj]
    by_contra hlt
    exact absurd hle (not_le.mpr (h.first j b hj trivial (not_le.mp hlt)))

theorem FirstLeast.snoc_keep {l : List α} {i : ℕ} {a b : α}
    (hb : FirstLeast eligible load l i b) (h : ¬ eligible a ∨ load b ≤ load a) :
    FirstLeast eligible load (l ++ [a]) i b where
  at_index := getElem?_snoc.mpr (Or.inl hb.at_index)
  passes := hb.passes
  least j c hj hc := by
    rcases getElem?_snoc.mp hj with hj | ⟨rfl, rfl⟩
    · exact hb.least j c hj hc
    · exact h.resolve_left (not_not_intro hc)
  first j c hj hc hlt := by
    have hi := (List.getElem?_eq_some_iff.mp hb.at_index).1
    rcases getElem?_snoc.mp hj with hj | ⟨rfl, rfl⟩
    · exact hb.first j c hj hc hlt
    · exact absurd hlt hi.not_gt

theorem FirstLeast.snoc_replace {l : List α} {a : α} (ha : eligible a)
    (h : ∀ b ∈ l, eligible b → load a < load b) :
    FirstLeast eligible load (l ++ [a]) l.length a where
  at_index := getElem?_snoc.mpr (Or.inr ⟨rfl, rfl⟩)
  passes := ha
  least j c hj hc := by
    rcases getElem?_snoc.mp hj with hj | ⟨-, rfl⟩
    · exact (h c (List.mem_of_getElem? hj) hc).le
    · exact le_rfl
  first j c hj hc hlt := by
    rcases getElem?_snoc.mp hj with hj | ⟨rfl, rfl⟩
    · exact h c (List.mem_of_getElem? hj) hc
    · exact absurd hlt (lt_irrefl _)

variable [DecidablePred eligible]

theorem best_challenge {l : List α} {a : α} {best : Option (ℕ × α)}
    (hb : Best eligible load l best) :
    Best eligible load (l ++ [a]) (challenge eligible load l.length a best) := by
  unfold challenge
  by_cases ha : eligible a
  · rw [if_pos ha]
    cases best with
    | none => exact FirstLeast.snoc_replace ha (fun b hm he => absurd he (hb b hm))
    | some c =>
      obtain ⟨i, c⟩ := c
      by_cases hlt : load a < load c
      · simp only [if_pos hlt]
        refine FirstLeast.snoc_replace ha (fun b hm he => ?_)
        obtain ⟨j, hj⟩ := List.getElem?_of_mem hm
        exact hlt.trans_le (hb.least j b hj he)
      · simp only [if_neg hlt]
        exact FirstLeast.snoc_keep hb (Or.inr (not_lt.mp hlt))
  · rw [if_neg ha]
    cases best with
    | none =>
      intro b hm
      rcases List.mem_append.mp hm with hm | hm
      · exact hb b hm
      · exact List.mem_singleton.mp hm ▸ ha
    | some c => exact FirstLeast.snoc_keep hb (Or.inl ha)

theorem best_scan {l rest : List α} {best : Option (ℕ × α)} (hb : Best eligible load l best) :
    Best eligible load (l ++ rest) (scan eligible load rest l.length best) := by
  induction rest generalizing l best with
  | nil => simpa [scan] using hb
  | cons a rest ih =>
    have h := ih (best_challenge hb : Best eligible load (l ++ [a]) _)
    rwa [List.append_assoc, List.singleton_append, List.length_append,
      List.length_singleton] at h

theorem best_scan_all (l : List α) : Best eligible load l (scan eligible load l 0 none) :=
  by
  have h : Best eligible load [] none := by simp [Best]
  exact best_scan h

theorem scan_eq_none {l : List α} :
    scan eligible load l 0 none = none ↔ ∀ a ∈ l, ¬ eligible a := by
  have hb : Best eligible load l _ := best_scan_all l
  constructor
  · intro h
    rwa [h] at hb
  · intro h
    cases hs : scan eligible load l 0 none with
    | none => rfl
    | some c =>
      rw [hs] at hb
      exact absurd hb.passes (h c.2 (List.mem_of_getElem? hb.at_index))

theorem scan_eq_some {l : List α} {i : ℕ} {a : α} :
    scan eligible load l 0 none = some (i, a) ↔ FirstLeast eligible load l i a := by
  have hb : Best eligible load l _ := best_scan_all l
  constructor
  · intro h
    rwa [h] at hb
  · intro h
    cases hs : scan eligible load l 0 none with
    | none => exact absurd h.passes (scan_eq_none.mp hs a (List.mem_of_getElem? h.at_index))
    | some c =>
      rw [hs] at hb
      obtain ⟨hi, ha⟩ := h.unique hb
      rw [hi, ha]

end ServingSystem.LeastScan
