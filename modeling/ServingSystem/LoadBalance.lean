import ServingSystem.LeastScan

/-!
# Raising the first least load

A vector of loads, its spread, and what becomes of it when the first least
load is raised by one, once or again and again from an idle vector.
-/

set_option autoImplicit false

namespace ServingSystem.LoadBalance
open LeastScan

def spread (l : List ℤ) : ℤ := l.max?.getD 0-l.min?.getD 0

def raise (l : List ℤ) (i : ℕ) : List ℤ := l.modify i (fun n => n+1)

theorem sub_le_spread {l : List ℤ} {a b : ℤ} (ha : a ∈ l) (hb : b ∈ l) : a-b ≤ spread l := by
  have hl : l ≠ [] := List.ne_nil_of_mem ha
  obtain ⟨x, hx⟩ := Option.isSome_iff_exists.mp (List.isSome_max?_of_ne_nil hl)
  obtain ⟨y, hy⟩ := Option.isSome_iff_exists.mp (List.isSome_min?_of_ne_nil hl)
  have hax : a ≤ x := (List.max?_eq_some_iff.mp hx).2 a ha
  have hyb : y ≤ b := (List.min?_eq_some_iff.mp hy).2 b hb
  rw [spread, hx, hy, Option.getD_some, Option.getD_some]
  omega

theorem spread_le {l : List ℤ} {d : ℤ} (hl : l ≠ []) (h : ∀ a ∈ l, ∀ b ∈ l, a-b ≤ d) :
    spread l ≤ d := by
  obtain ⟨x, hx⟩ := Option.isSome_iff_exists.mp (List.isSome_max?_of_ne_nil hl)
  obtain ⟨y, hy⟩ := Option.isSome_iff_exists.mp (List.isSome_min?_of_ne_nil hl)
  rw [spread, hx, hy, Option.getD_some, Option.getD_some]
  exact h x (List.max?_mem hx) y (List.min?_mem hy)

theorem mem_raise {l : List ℤ} {i : ℕ} {a b : ℤ} (hi : l[i]? = some a) (hb : b ∈ raise l i) :
    b = a+1 ∨ b ∈ l := by
  obtain ⟨j, hj⟩ := List.getElem?_of_mem hb
  rw [raise, List.getElem?_modify] at hj
  obtain ⟨c, hc, rfl⟩ := Option.map_eq_some_iff.mp hj
  by_cases h : i = j
  · subst h
    rw [Option.some.inj (hi.symm.trans hc)]
    exact Or.inl (if_pos rfl)
  · rw [if_neg h]
    exact Or.inr (List.mem_of_getElem? hc)

/-- Raising a least load leaves the spread at one or at what it was. -/
theorem spread_raise {l : List ℤ} {i : ℕ} {a : ℤ} (hi : l[i]? = some a) (hmin : ∀ b ∈ l, a ≤ b) :
    spread (raise l i) ≤ max 1 (spread l) := by
  have ha := List.mem_of_getElem? hi
  have hne : raise l i ≠ [] := by
    intro h
    rw [raise, List.modify_eq_nil_iff] at h
    exact List.ne_nil_of_mem ha h
  apply spread_le hne
  intro b hb c hc
  rcases mem_raise hi hb with rfl | hb
  · apply le_max_of_le_left
    rcases mem_raise hi hc with rfl | hc
    · omega
    · have := hmin c hc
      omega
  · apply le_max_of_le_right
    rcases mem_raise hi hc with rfl | hc
    · have := sub_le_spread hb ha
      omega
    · exact sub_le_spread hb hc

/-- The part of `n` that position `j` of `k` has taken in turn. -/
def share (k n j : ℕ) : ℕ := n/k+(if j < n%k then 1 else 0)

def shares (k n : ℕ) : List ℤ := (List.range k).map (fun j => (share k n j : ℤ))

theorem share_zero (k j : ℕ) : share k 0 j = 0 := by
  simp [share]

theorem share_succ {k j : ℕ} (n : ℕ) (hj : j < k) :
    share k (n+1) j = share k n j+(if n%k = j then 1 else 0) := by
  have hk : 0 < k := Nat.zero_lt_of_lt hj
  have hr := Nat.mod_lt n hk
  have hn := Nat.div_add_mod n k
  rcases Nat.lt_or_ge (n%k+1) k with h | h
  · obtain ⟨hq, hm⟩ := (Nat.div_mod_unique hk).mpr
      ⟨(by omega : (n%k+1)+k*(n/k) = n+1), h⟩
    rw [share, share, hq, hm]
    split_ifs <;> omega
  · obtain ⟨hq, hm⟩ := (Nat.div_mod_unique hk).mpr
      ⟨(by rw [Nat.mul_add]; omega : 0+k*(n/k+1) = n+1), hk⟩
    rw [share, share, hq, hm]
    split_ifs <;> omega

theorem share_floor_or_ceil {k : ℕ} (hk : 0 < k) (n j : ℕ) :
    share k n j = n/k ∨ share k n j = (n+k-1)/k := by
  have hr := Nat.mod_lt n hk
  have hn := Nat.div_add_mod n k
  unfold share
  split
  next h =>
    right
    obtain ⟨hq, -⟩ := (Nat.div_mod_unique hk).mpr
      ⟨(by rw [Nat.mul_add]; omega : (n%k-1)+k*(n/k+1) = n+k-1), by omega⟩
    exact hq.symm
  next => exact Or.inl rfl

theorem shares_getElem? {k n j : ℕ} (hj : j < k) : (shares k n)[j]? = some (share k n j : ℤ) := by
  rw [shares, List.getElem?_map, List.getElem?_range hj, Option.map_some]

/-- The first least share is the one whose turn it is. -/
theorem first_share {k n i : ℕ} {a : ℤ} (hk : 0 < k)
    (h : FirstLeast (fun _ => True) id (shares k n) i a) : i = n%k := by
  have hr := Nat.mod_lt n hk
  have hturn : share k n (n%k) = n/k := by simp [share]
  have hlt : i < k := by
    have hlen := (List.getElem?_eq_some_iff.mp h.at_index).1
    simpa [shares] using hlen
  have ha : a = (share k n i : ℤ) :=
    Option.some.inj (h.at_index.symm.trans (shares_getElem? hlt))
  rcases lt_trichotomy i (n%k) with hc | hc | hc
  · have hle := h.least _ _ (shares_getElem? hr) trivial
    have hi : share k n i = n/k+1 := by simp [share, hc]
    rw [ha, id, id, hi, hturn] at hle
    omega
  · exact hc
  · have hfirst := h.first _ _ (shares_getElem? hr) trivial hc
    have hi : share k n i = n/k := by simp [share, hc.not_gt]
    rw [ha, id, id, hi, hturn] at hfirst
    omega

theorem raise_shares {k : ℕ} (n : ℕ) : raise (shares k n) (n%k) = shares k (n+1) := by
  apply List.ext_getElem?
  intro j
  rw [raise, List.getElem?_modify]
  by_cases hj : j < k
  · rw [shares_getElem? hj, shares_getElem? hj, share_succ n hj]
    show some _ = _
    by_cases h : n%k = j <;> simp [h]
  · have hn : ∀ n, (shares k n)[j]? = none := fun n =>
      List.getElem?_eq_none (by simpa [shares] using hj)
    rw [hn, hn]
    rfl

end ServingSystem.LoadBalance
