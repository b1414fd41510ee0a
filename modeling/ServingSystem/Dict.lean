import Mathlib.Data.List.Nodup
import Mathlib.Data.List.Lookmap
import Mathlib.Algebra.BigOperators.Group.List.Basic
import Mathlib.Tactic.Common
import Mathlib.Tactic.Abel

/-!
# Insertion-ordered dictionaries

A dictionary is a list of entries with pairwise distinct keys. Setting a
present key rewrites its entry in place; setting an absent key appends one.
-/

set_option autoImplicit false

namespace ServingSystem

structure Dict (K V : Type*) where
  entries : List (K × V)
  nodup : (entries.map Prod.fst).Nodup

namespace Dict

variable {K V W : Type*} [DecidableEq K]

def empty : Dict K V := ⟨[], List.nodup_nil⟩

def keys (d : Dict K V) : List K := d.entries.map Prod.fst

def get (d : Dict K V) (k : K) : Option V := d.entries.lookup k

def erase (d : Dict K V) (k : K) : Dict K V where
  entries := d.entries.filter (fun e => e.1 ≠ k)
  nodup := d.nodup.sublist (List.filter_sublist.map Prod.fst)

def modify (d : Dict K V) (k : K) (f : V → V) : Dict K V where
  entries := d.entries.map (fun e => if e.1 = k then (e.1, f e.2) else e)
  nodup := by
    have h : ∀ e : K × V, (if e.1 = k then (e.1, f e.2) else e).1 = e.1 := by
      intro e; split <;> rfl
    simpa [List.map_map, Function.comp_def, h] using d.nodup

def set (d : Dict K V) (k : K) (v : V) : Dict K V :=
  if h : k ∈ d.entries.map Prod.fst then d.modify k (fun _ => v)
  else ⟨d.entries ++ [(k, v)], by
    rw [List.map_append, List.nodup_append]
    exact ⟨d.nodup, by simp, by
      intro a ha b hb hab
      simp only [List.map_cons, List.map_nil, List.mem_singleton] at hb
      exact h (hb ▸ hab ▸ ha)⟩⟩

def mapVal (d : Dict K V) (f : K → V → W) : Dict K W where
  entries := d.entries.map (fun e => (e.1, f e.1 e.2))
  nodup := by simpa [List.map_map, Function.comp_def] using d.nodup

def filter (d : Dict K V) (p : K → V → Bool) : Dict K V where
  entries := d.entries.filter (fun e => p e.1 e.2)
  nodup := d.nodup.sublist (List.filter_sublist.map Prod.fst)

def total (d : Dict K V) (f : K → V → ℤ) : ℤ := (d.entries.map (fun e => f e.1 e.2)).sum

omit [DecidableEq K] in
@[ext] theorem ext_entries {d e : Dict K V} (h : d.entries = e.entries) : d = e := by
  cases d; cases e; cases h; rfl

@[simp] theorem get_empty (k : K) : (empty : Dict K V).get k = none := rfl

theorem lookup_eq_some {l : List (K × V)} (hn : (l.map Prod.fst).Nodup) {k : K} {v : V} :
    l.lookup k = some v ↔ (k, v) ∈ l := by
  induction l with
  | nil => simp
  | cons e l ih =>
    obtain ⟨a, b⟩ := e
    obtain ⟨ha, hl⟩ := List.nodup_cons.mp hn
    rw [List.lookup_cons]
    by_cases h : k = a
    · subst h
      have hv : (k, v) ∉ l := fun hm => ha (List.mem_map.mpr ⟨_, hm, rfl⟩)
      simp [hv, eq_comm]
    · simp [h, beq_eq_false_iff_ne.mpr h, ih hl]

theorem get_eq_some {d : Dict K V} {k : K} {v : V} :
    d.get k = some v ↔ (k, v) ∈ d.entries :=
  lookup_eq_some d.nodup

theorem get_eq_none {d : Dict K V} {k : K} : d.get k = none ↔ k ∉ d.keys := by
  rw [Option.eq_none_iff_forall_ne_some]
  simp only [ne_eq, get_eq_some, keys, List.mem_map, Prod.exists, exists_and_right,
    exists_eq_right, not_exists]

theorem mem_keys {d : Dict K V} {k : K} : k ∈ d.keys ↔ ∃ v, d.get k = some v := by
  simp only [keys, List.mem_map, Prod.exists, exists_and_right, exists_eq_right, get_eq_some]

@[simp] theorem get_modify_self (d : Dict K V) (k : K) (f : V → V) :
    (d.modify k f).get k = (d.get k).map f := by
  cases h : d.get k with
  | none =>
    rw [get_eq_none] at h
    rw [Option.map_none, get_eq_none]
    intro hk
    obtain ⟨e, he, hek⟩ := List.mem_map.mp hk
    obtain ⟨e', he', rfl⟩ := List.mem_map.mp he
    by_cases hc : e'.1 = k
    · exact h (List.mem_map.mpr ⟨e', he', hc⟩)
    · simp [hc] at hek
  | some v =>
    rw [get_eq_some] at h
    rw [Option.map_some, get_eq_some]
    exact List.mem_map.mpr ⟨_, h, by simp⟩

@[simp] theorem get_modify_ne (d : Dict K V) {j k : K} (f : V → V) (h : j ≠ k) :
    (d.modify k f).get j = d.get j := by
  apply Option.ext
  intro v
  simp only [get_eq_some, modify, List.mem_map]
  constructor
  · rintro ⟨e, he, hv⟩
    by_cases hc : e.1 = k
    · simp only [hc, if_true, Prod.mk.injEq] at hv
      exact absurd hv.1.symm h
    · rw [if_neg hc] at hv
      exact hv ▸ he
  · intro hv
    exact ⟨_, hv, by simp [h]⟩

theorem get_set (d : Dict K V) (j k : K) (v : V) :
    (d.set k v).get j = if j = k then some v else d.get j := by
  unfold set
  split
  next hk =>
    obtain ⟨w, hw⟩ := mem_keys.mp hk
    by_cases h : j = k
    · subst h; simp [hw]
    · simp [h]
  next hk =>
    apply Option.ext
    intro w
    simp only [get_eq_some, List.mem_append, List.mem_singleton, Prod.mk.injEq]
    by_cases h : j = k
    · subst h
      have hj : (j, w) ∉ d.entries := fun hm => hk (List.mem_map_of_mem hm)
      simp [hj, eq_comm]
    · simp [h, get_eq_some]

@[simp] theorem get_set_self (d : Dict K V) (k : K) (v : V) : (d.set k v).get k = some v := by
  rw [get_set, if_pos rfl]

@[simp] theorem get_set_ne (d : Dict K V) {j k : K} (v : V) (h : j ≠ k) :
    (d.set k v).get j = d.get j := by
  rw [get_set, if_neg h]

theorem get_erase (d : Dict K V) (j k : K) :
    (d.erase k).get j = if j = k then none else d.get j := by
  apply Option.ext
  intro v
  simp only [get_eq_some, erase, List.mem_filter, decide_eq_true_eq]
  by_cases h : j = k <;> simp [h, get_eq_some]

@[simp] theorem get_erase_self (d : Dict K V) (k : K) : (d.erase k).get k = none := by
  rw [get_erase, if_pos rfl]

@[simp] theorem get_erase_ne (d : Dict K V) {j k : K} (h : j ≠ k) :
    (d.erase k).get j = d.get j := by
  rw [get_erase, if_neg h]

@[simp] theorem keys_modify (d : Dict K V) (k : K) (f : V → V) :
    (d.modify k f).keys = d.keys := by
  simp only [keys, modify, List.map_map, Function.comp_def]
  apply List.map_congr_left
  intro e _
  split <;> rfl

@[simp] theorem get_mapVal (d : Dict K V) (f : K → V → W) (k : K) :
    (d.mapVal f).get k = (d.get k).map (f k) := by
  apply Option.ext
  intro w
  simp only [get_eq_some, mapVal, List.mem_map, Prod.mk.injEq, Option.map_eq_some_iff]
  constructor
  · rintro ⟨e, he, rfl, rfl⟩
    exact ⟨e.2, he, rfl⟩
  · rintro ⟨v, hv, rfl⟩
    exact ⟨_, hv, rfl, rfl⟩

theorem get_modify (d : Dict K V) (j k : K) (f : V → V) :
    (d.modify k f).get j = if j = k then (d.get j).map f else d.get j := by
  by_cases h : j = k
  · subst h
    rw [if_pos rfl, get_modify_self]
  · rw [if_neg h, get_modify_ne _ _ h]

theorem modify_congr {d : Dict K V} {k : K} {v : V} {f g : V → V} (h : d.get k = some v)
    (hfg : f v = g v) : d.modify k f = d.modify k g := by
  apply ext_entries
  refine List.map_congr_left (fun e he => ?_)
  split
  next hk =>
    obtain ⟨a, b⟩ := e
    obtain rfl : a = k := hk
    obtain rfl := Option.some.inj ((get_eq_some.mpr he).symm.trans h)
    rw [hfg]
  next => rfl

theorem modify_absent {d : Dict K V} {k : K} (h : d.get k = none) (f : V → V) :
    d.modify k f = d := by
  apply ext_entries
  refine (List.map_congr_left (fun e he => ?_)).trans (List.map_id _)
  have hk : e.1 ≠ k := fun hc => get_eq_none.mp h (List.mem_map.mpr ⟨e, he, hc⟩)
  rw [if_neg hk]
  rfl

theorem erase_absent {d : Dict K V} {k : K} (h : d.get k = none) : d.erase k = d := by
  apply ext_entries
  refine List.filter_eq_self.mpr (fun e he => ?_)
  have hk : e.1 ≠ k := fun hc => get_eq_none.mp h (List.mem_map.mpr ⟨e, he, hc⟩)
  simpa using hk

theorem filter_eq_self {d : Dict K V} {p : K → V → Bool}
    (h : ∀ k v, d.get k = some v → p k v = true) : d.filter p = d := by
  apply ext_entries
  exact List.filter_eq_self.mpr (fun e he => h e.1 e.2 (get_eq_some.mpr he))

theorem mem_keys_set {d : Dict K V} {j k : K} {v : V} :
    j ∈ (d.set k v).keys ↔ j = k ∨ j ∈ d.keys := by
  rw [mem_keys, mem_keys]
  by_cases h : j = k <;> simp [h]

theorem mem_keys_erase {d : Dict K V} {j k : K} :
    j ∈ (d.erase k).keys ↔ j ≠ k ∧ j ∈ d.keys := by
  rw [mem_keys, mem_keys]
  by_cases h : j = k <;> simp [h]

theorem total_set_absent (d : Dict K V) (k : K) (v : V) (f : K → V → ℤ)
    (h : d.get k = none) : (d.set k v).total f = d.total f + f k v := by
  have hk : k ∉ d.entries.map Prod.fst := get_eq_none.mp h
  simp [total, set, hk]

theorem total_erase (d : Dict K V) (k : K) (v : V) (f : K → V → ℤ)
    (h : d.get k = some v) : (d.erase k).total f = d.total f - f k v := by
  obtain ⟨l, hn⟩ := d
  change ((l.filter (fun e => e.1 ≠ k)).map _).sum = (l.map _).sum - f k v
  rw [get_eq_some] at h
  change (k, v) ∈ l at h
  induction l with
  | nil => simp at h
  | cons e l ih =>
    obtain ⟨he, hl⟩ := List.nodup_cons.mp hn
    rcases List.mem_cons.mp h with rfl | hm
    · have hf : l.filter (fun e => e.1 ≠ k) = l :=
        List.filter_eq_self.mpr fun a ha => by
          have hne : a.1 ≠ k := fun hak => he (List.mem_map.mpr ⟨a, ha, hak⟩)
          simpa using hne
      rw [List.filter_cons_of_neg (by simp), hf]
      simp
    · have hek : e.1 ≠ k := fun hc => he (List.mem_map.mpr ⟨_, hm, hc.symm⟩)
      rw [List.filter_cons_of_pos (by simpa using hek), List.map_cons, List.sum_cons,
        List.map_cons, List.sum_cons, ih hl hm]
      abel

theorem total_congr {d : Dict K V} {f g : K → V → ℤ}
    (h : ∀ k v, d.get k = some v → f k v = g k v) : d.total f = d.total g := by
  unfold total
  rw [List.map_congr_left (fun e he => h e.1 e.2 (get_eq_some.mpr he))]

/-- A sum to which one key contributes. -/
theorem total_single {d : Dict K V} {k : K} {v : V} (h : d.get k = some v) {f : K → V → ℤ}
    (hf : ∀ j w, j ≠ k → f j w = 0) : d.total f = f k v := by
  have hrest : (d.erase k).total f = 0 := by
    have hzero : ∀ j w, (d.erase k).get j = some w → f j w = 0 := by
      intro j w hj
      rw [get_erase] at hj
      split at hj
      next => cases hj
      next hne => exact hf j w hne
    rw [total_congr (g := fun _ _ => 0) hzero]
    simp [total]
  have he := total_erase d k v f h
  rw [hrest] at he
  exact (sub_eq_zero.mp he.symm)

omit [DecidableEq K] in
theorem total_add (d : Dict K V) (f g : K → V → ℤ) :
    d.total (fun k v => f k v+g k v) = d.total f+d.total g := List.sum_map_add

omit [DecidableEq K] in
theorem total_filter (d : Dict K V) (p : K → V → Bool) (f : K → V → ℤ) :
    (d.filter p).total f = d.total (fun k v => if p k v then f k v else 0) := by
  obtain ⟨l, hn⟩ := d
  show ((l.filter (fun e => p e.1 e.2)).map (fun e => f e.1 e.2)).sum =
    (l.map (fun e => if p e.1 e.2 then f e.1 e.2 else 0)).sum
  clear hn
  induction l with
  | nil => rfl
  | cons e l ih =>
    cases hp : p e.1 e.2 with
    | true => simp [hp, ih]
    | false => simp [hp, ih]

theorem get_filter (d : Dict K V) (p : K → V → Bool) (k : K) :
    (d.filter p).get k = (d.get k).filter (p k) := by
  apply Option.ext
  intro v
  rw [get_eq_some, filter, List.mem_filter, Option.filter_eq_some_iff, get_eq_some]

theorem mem_keys_filter {d : Dict K V} {p : K → Bool} {k : K} :
    k ∈ (d.filter (fun k _ => p k)).keys ↔ k ∈ d.keys ∧ p k = true := by
  simp only [mem_keys, get_filter, Option.filter_eq_some_iff, exists_and_right]

omit [DecidableEq K] in
theorem filter_filter (d : Dict K V) (p q : K → V → Bool) :
    (d.filter p).filter q = d.filter (fun k v => p k v && q k v) := by
  apply ext_entries
  show (d.entries.filter _).filter _ = d.entries.filter _
  rw [List.filter_filter]
  exact List.filter_congr (fun e _ => Bool.and_comm _ _)

omit [DecidableEq K] in
@[simp] theorem keys_mapVal (d : Dict K V) (f : K → V → W) : (d.mapVal f).keys = d.keys := by
  simp [keys, mapVal]

theorem mapVal_congr {d : Dict K V} {f g : K → V → W}
    (h : ∀ k v, d.get k = some v → f k v = g k v) : d.mapVal f = d.mapVal g := by
  apply ext_entries
  refine List.map_congr_left (fun e he => ?_)
  rw [h e.1 e.2 (get_eq_some.mpr he)]

omit [DecidableEq K] in
theorem mapVal_mapVal {X : Type*} (d : Dict K V) (f : K → V → W) (g : K → W → X) :
    (d.mapVal f).mapVal g = d.mapVal (fun k v => g k (f k v)) := by
  apply ext_entries
  simp [mapVal]

theorem mapVal_eq_self {d : Dict K V} {f : K → V → V}
    (h : ∀ k v, d.get k = some v → f k v = v) : d.mapVal f = d := by
  apply ext_entries
  refine (List.map_congr_left (fun e he => ?_)).trans (List.map_id _)
  rw [h e.1 e.2 (get_eq_some.mpr he)]
  rfl

theorem modify_eq_mapVal (d : Dict K V) (k : K) (f : V → V) :
    d.modify k f = d.mapVal (fun j v => if j = k then f v else v) := by
  apply ext_entries
  refine List.map_congr_left (fun e _ => ?_)
  by_cases h : e.1 = k <;> simp [h]

theorem modify_modify (d : Dict K V) (k : K) (f g : V → V) :
    (d.modify k f).modify k g = d.modify k (fun v => g (f v)) := by
  apply ext_entries
  simp only [modify, List.map_map]
  refine List.map_congr_left (fun e _ => ?_)
  by_cases h : e.1 = k <;> simp [h]

/-- A rewriting of every value and one of a single value commute where the
functions do. -/
theorem mapVal_modify (d : Dict K V) (k : K) (f : K → V → W) {g : V → V} {h : W → W}
    (hfg : ∀ v, f k (g v) = h (f k v)) :
    (d.modify k g).mapVal f = (d.mapVal f).modify k h := by
  apply ext_entries
  simp only [modify, mapVal, List.map_map]
  refine List.map_congr_left (fun e _ => ?_)
  by_cases hk : e.1 = k
  · simp [hk, hfg]
  · simp [hk]

theorem erase_eq_filter (d : Dict K V) (k : K) : d.erase k = d.filter (fun j _ => j ≠ k) := rfl

theorem filter_set_absent {d : Dict K V} {k : K} {v : V} (h : d.get k = none)
    {p : K → V → Bool} (hp : p k v = false) : (d.set k v).filter p = d.filter p := by
  have hk : k ∉ d.entries.map Prod.fst := get_eq_none.mp h
  apply ext_entries
  simp [filter, set, hk, hp]

end Dict
end ServingSystem
