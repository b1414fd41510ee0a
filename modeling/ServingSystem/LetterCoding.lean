import Mathlib.Data.List.Infix
import Mathlib.Tactic.Common

/-!
# Searching in coded texts

A text coded letter by letter contains the coding of a pattern exactly when
it contains the pattern, provided that each letter of the pattern has a unit
of its own that occurs in the code of no other letter. UTF-8 is such a
coding for patterns of ASCII characters.
-/

set_option autoImplicit false

namespace ServingSystem.LetterCoding

variable {α β : Type*}

/-- The code of the letter is one unit, which no other letter's code holds. -/
def OneUnit (enc : α → List β) (a : α) : Prop := ∃ b, enc a = [b] ∧ ∀ c, b ∈ enc c → c = a

variable {enc : α → List β}

theorem prefix_of_flatMap {m l : List α} (hm : ∀ a ∈ m, OneUnit enc a) (hne : ∀ c, enc c ≠ [])
    (h : m.flatMap enc <+: l.flatMap enc) : m <+: l := by
  induction m generalizing l with
  | nil => exact List.nil_prefix
  | cons a m ih =>
    obtain ⟨b, ha, hb⟩ := hm a (by simp)
    rw [List.flatMap_cons, ha, List.singleton_append] at h
    cases l with
    | nil => simp at h
    | cons c l =>
      rw [List.flatMap_cons] at h
      cases hc : enc c with
      | nil => exact absurd hc (hne c)
      | cons x xs =>
        rw [hc, List.cons_append] at h
        obtain ⟨hx, ht⟩ := List.cons_prefix_cons.mp h
        have hca : c = a := hb c (by simp [hc, hx])
        subst hca
        obtain ⟨-, rfl⟩ := List.cons.inj (hc.symm.trans ha)
        exact List.cons_prefix_cons.mpr ⟨rfl, ih (fun d hd => hm d (by simp [hd])) ht⟩

/-- A pattern does not begin in a part that lacks its first unit. -/
theorem infix_of_append {b : β} {x p q : List β} (h : b::x <:+: p ++ q) (hb : b ∉ p) :
    b::x <:+: q := by
  induction p with
  | nil => exact h
  | cons y p ih =>
    obtain ⟨hy, hp⟩ := not_or.mp (fun hm => hb (List.mem_cons.mpr hm))
    rw [List.cons_append] at h
    rcases List.infix_cons_iff.mp h with hpre | hin
    · exact absurd (List.cons_prefix_cons.mp hpre).1 hy
    · exact ih hin hp

theorem infix_iff {m : List α} (hm : ∀ a ∈ m, OneUnit enc a) (hne : ∀ c, enc c ≠ []) (l : List α) :
    m.flatMap enc <:+: l.flatMap enc ↔ m <:+: l := by
  constructor
  · intro h
    cases m with
    | nil => exact List.nil_infix
    | cons a m =>
      obtain ⟨b, ha, hb⟩ := hm a (by simp)
      induction l with
      | nil => simp [ha] at h
      | cons c l ih =>
        rw [List.flatMap_cons, ha, List.singleton_append, List.flatMap_cons] at h
        by_cases hc : b ∈ enc c
        · obtain rfl := hb c hc
          rw [ha, List.singleton_append] at h
          rcases List.infix_cons_iff.mp h with hpre | hin
          · refine List.IsPrefix.isInfix (prefix_of_flatMap hm hne ?_)
            rwa [List.flatMap_cons, ha, List.flatMap_cons, ha]
          · apply List.infix_cons
            apply ih
            rwa [List.flatMap_cons, ha]
        · apply List.infix_cons
          apply ih
          rw [List.flatMap_cons, ha]
          exact infix_of_append h hc
  · rintro ⟨p, q, rfl⟩
    exact ⟨p.flatMap enc, q.flatMap enc, by simp⟩

theorem utf8_ascii {c : Char} (h : c.toNat ≤ 127) :
    String.utf8EncodeChar c = [UInt8.ofNat c.toNat] := by
  simp [String.utf8EncodeChar, h]

theorem ofNat_high {n : ℕ} (h : 128 ≤ n) (hn : n < 256) : 128 ≤ (UInt8.ofNat n).toNat := by
  rw [UInt8.toNat_ofNat']
  omega

theorem utf8_high {c : Char} (h : 127 < c.toNat) {b : UInt8} (hb : b ∈ String.utf8EncodeChar c) :
    128 ≤ b.toNat := by
  revert hb
  fun_cases String.utf8EncodeChar c with
  | case1 v hv => exact absurd hv (not_le.mpr h)
  | case2 v =>
    simp only [List.mem_cons, List.not_mem_nil, or_false]
    rintro (rfl | rfl) <;> exact ofNat_high (by omega) (by omega)
  | case3 v =>
    simp only [List.mem_cons, List.not_mem_nil, or_false]
    rintro (rfl | rfl | rfl) <;> exact ofNat_high (by omega) (by omega)
  | case4 v =>
    simp only [List.mem_cons, List.not_mem_nil, or_false]
    rintro (rfl | rfl | rfl | rfl) <;> exact ofNat_high (by omega) (by omega)

theorem utf8_oneUnit {c : Char} (h : c.toNat ≤ 127) : OneUnit String.utf8EncodeChar c := by
  refine ⟨UInt8.ofNat c.toNat, utf8_ascii h, fun d hd => ?_⟩
  have hn : (UInt8.ofNat c.toNat).toNat = c.toNat := by
    rw [UInt8.toNat_ofNat']
    omega
  rcases le_or_gt d.toNat 127 with hle | hlt
  · rw [utf8_ascii hle, List.mem_singleton] at hd
    have hd' := congrArg UInt8.toNat hd
    rw [hn, UInt8.toNat_ofNat'] at hd'
    apply Char.toNat_inj.mp
    omega
  · have hhigh := utf8_high hlt hd
    omega

end ServingSystem.LetterCoding
