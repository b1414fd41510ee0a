import ServingSystem.Positions

/-!
# Replica keys

`_replica_id` of the managers: the worker id, a number sign and the replica
number, both in decimal.
-/

set_option autoImplicit false

namespace ServingSystem.Head
open Positions

def replicaId (workerId replicaNum : ℕ) : String :=
  toString workerId ++ "#" ++ toString replicaNum

def belongs (workerId : ℕ) (key : String) : Bool :=
  (toString workerId ++ "#").toList.isPrefixOf key.toList

theorem digits_no_hash (n : ℕ) : '#' ∉ (toString n).toList := by
  intro h
  rw [Nat.toString_eq_repr, Nat.toList_repr] at h
  exact absurd (Nat.isDigit_of_mem_toDigits (by decide) (by decide) h) (by decide)

theorem replicaId_toList (w r : ℕ) :
    (replicaId w r).toList = (toString w).toList ++ '#'::(toString r).toList := by
  simp [replicaId, String.toList_append]

theorem toString_inj {m n : ℕ} (h : toString m = toString n) : m = n := by
  have hn := congrArg (fun s => Nat.ofDigitChars 10 s.toList 0) h
  simpa [Nat.toString_eq_ofList_toDigits] using hn

theorem replicaId_inj {w w' r r' : ℕ} : replicaId w r = replicaId w' r' ↔ w = w' ∧ r = r' := by
  constructor
  · intro h
    have hl := congrArg String.toList h
    rw [replicaId_toList, replicaId_toList] at hl
    obtain ⟨hw, hr⟩ := split_unique (digits_no_hash w) (digits_no_hash w') hl
    exact ⟨toString_inj (String.toList_inj.mp hw), toString_inj (String.toList_inj.mp hr)⟩
  · rintro ⟨rfl, rfl⟩
    rfl

theorem belongs_replicaId {w w' r : ℕ} : belongs w (replicaId w' r) = true ↔ w = w' := by
  rw [belongs, List.isPrefixOf_iff_prefix, replicaId_toList, String.toList_append]
  constructor
  · rintro ⟨rest, h⟩
    rw [List.append_assoc] at h
    exact toString_inj (String.toList_inj.mp (split_unique (digits_no_hash w)
      (digits_no_hash w') h).1)
  · rintro rfl
    exact ⟨(toString r).toList, by simp⟩

end ServingSystem.Head
