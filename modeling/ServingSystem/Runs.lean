import Mathlib.Algebra.GroupWithZero.Nat
import Mathlib.Data.List.Basic
import Mathlib.Tactic.Common

/-!
# Runs of a partial transition function

A machine is a partial step function on states and actions. A run is a
finite list of actions; it ends in a state only when every action was
enabled. Invariants are proved from one step, either unconditionally or
along the runs whose steps all meet a condition on state and action.
-/

set_option autoImplicit false

namespace ServingSystem.Runs

variable {State Act : Type*}

def exec (step : State → Act → Option State) : List Act → State → Option State
  | [], s => some s
  | a::as, s => (step s a).bind (exec step as)

/-- Every step of the run is taken from a state in which `C` holds of it. -/
def Along (step : State → Act → Option State) (C : State → Act → Prop) :
    List Act → State → Prop
  | [], _ => True
  | a::as, s => C s a ∧ ∀ t, step s a = some t → Along step C as t

variable {step : State → Act → Option State}

theorem exec_cons {a : Act} {as : List Act} {s u : State} :
    exec step (a::as) s = some u ↔ ∃ t, step s a = some t ∧ exec step as t = some u := by
  simp only [exec, Option.bind_eq_some_iff]

theorem exec_append (as bs : List Act) (s : State) :
    exec step (as ++ bs) s = (exec step as s).bind (exec step bs) := by
  induction as generalizing s with
  | nil => rfl
  | cons a as ih =>
    simp only [List.cons_append, exec]
    cases step s a with
    | none => rfl
    | some t => exact ih t

theorem exec_snoc {as : List Act} {a : Act} {s u : State} :
    exec step (as ++ [a]) s = some u ↔
      ∃ t, exec step as s = some t ∧ step t a = some u := by
  rw [exec_append, Option.bind_eq_some_iff]
  simp only [exec, Option.bind_fun_some]

theorem exec_invariant {P : State → Prop}
    (hstep : ∀ s a t, P s → step s a = some t → P t)
    {as : List Act} {s t : State} (hs : P s) (hr : exec step as s = some t) : P t := by
  induction as generalizing s with
  | nil => exact Option.some.inj hr ▸ hs
  | cons a as ih =>
    obtain ⟨u, hu, hr⟩ := exec_cons.mp hr
    exact ih (hstep s a u hs hu) hr

theorem exec_invariant_along {P : State → Prop} {C : State → Act → Prop}
    (hstep : ∀ s a t, P s → C s a → step s a = some t → P t)
    {as : List Act} {s t : State} (hs : P s) (hc : Along step C as s)
    (hr : exec step as s = some t) : P t := by
  induction as generalizing s with
  | nil => exact Option.some.inj hr ▸ hs
  | cons a as ih =>
    obtain ⟨u, hu, hr⟩ := exec_cons.mp hr
    exact ih (hstep s a u hs hc.1 hu) (hc.2 u hu) hr

theorem along_cons {C : State → Act → Prop} {a : Act} {as : List Act} {s t : State}
    (h : step s a = some t) : Along step C (a::as) s ↔ C s a ∧ Along step C as t := by
  simp only [Along, h, Option.some.injEq, forall_eq']

/-- Where one step keeps `P` exactly when `C` holds of it, a run keeps `P`
in every state exactly when `C` holds along it. -/
theorem always_iff_along {I P : State → Prop} {C : State → Act → Prop}
    (hinv : ∀ s a t, I s → step s a = some t → I t)
    (hstep : ∀ s a t, I s → P s → step s a = some t → (P t ↔ C s a))
    {as : List Act} {s t : State} (hi : I s) (hp : P s) (hr : exec step as s = some t) :
    (∀ n u, exec step (as.take n) s = some u → P u) ↔ Along step C as s := by
  induction as generalizing s with
  | nil =>
    refine ⟨fun _ => trivial, fun _ n u hu => ?_⟩
    rw [List.take_nil] at hu
    exact Option.some.inj hu ▸ hp
  | cons a as ih =>
    obtain ⟨v, hv, hr⟩ := exec_cons.mp hr
    have hiv := hinv s a v hi hv
    constructor
    · intro h
      have hpv : P v := h 1 v (by simp [exec, hv])
      refine ⟨(hstep s a v hi hp hv).mp hpv, fun w hw => ?_⟩
      obtain rfl := Option.some.inj (hv.symm.trans hw)
      exact (ih hiv hpv hr).mp (fun n u hu => h (n+1) u (exec_cons.mpr ⟨v, hv, hu⟩))
    · rintro ⟨hc, hrest⟩ n u hu
      have hpv := (hstep s a v hi hp hv).mpr hc
      cases n with
      | zero => exact Option.some.inj hu ▸ hp
      | succ n =>
        rw [List.take_succ_cons] at hu
        obtain ⟨w, hw, hu⟩ := exec_cons.mp hu
        obtain rfl := Option.some.inj (hv.symm.trans hw)
        exact (ih hiv hpv hr).mpr (hrest v hv) n u hu

/-- A measure that every step lowers, up to what the step costs, bounds the
length of the runs. -/
theorem exec_length_le_cost {μ : State → ℕ} {cost : Act → ℕ} {I : State → Prop}
    (hinv : ∀ s a t, I s → step s a = some t → I t)
    (hstep : ∀ s a t, I s → step s a = some t → μ t+1 ≤ μ s+cost a)
    {as : List Act} {s t : State} (hi : I s) (hr : exec step as s = some t) :
    as.length+μ t ≤ μ s+(as.map cost).sum := by
  induction as generalizing s with
  | nil =>
    obtain rfl := Option.some.inj hr
    simp
  | cons a as ih =>
    obtain ⟨u, hu, hr⟩ := exec_cons.mp hr
    have hle := hstep s a u hi hu
    have hrest := ih (hinv s a u hi hu) hr
    simp only [List.length_cons, List.map_cons, List.sum_cons]
    omega

theorem exec_length_le {μ : State → ℕ} (hstep : ∀ s a t, step s a = some t → μ t < μ s)
    {as : List Act} {s t : State} (hr : exec step as s = some t) : as.length+μ t ≤ μ s := by
  induction as generalizing s with
  | nil =>
    obtain rfl := Option.some.inj hr
    simp
  | cons a as ih =>
    obtain ⟨u, hu, hr⟩ := exec_cons.mp hr
    have hlt := hstep s a u hu
    have hle := ih hr
    rw [List.length_cons]
    omega

section
variable {Ghost : Type*} {watch : State → Act → State → Ghost → Ghost}

/-- The machine with a record beside it, brought up to date after each step. -/
def watched (step : State → Act → Option State) (watch : State → Act → State → Ghost → Ghost)
    (s : State × Ghost) (a : Act) : Option (State × Ghost) :=
  (step s.1 a).map (fun t => (t, watch s.1 a t s.2))

theorem watched_some {s t : State × Ghost} {a : Act} :
    watched step watch s a = some t ↔ step s.1 a = some t.1 ∧ t.2 = watch s.1 a t.1 s.2 := by
  rw [watched, Option.map_eq_some_iff]
  constructor
  · rintro ⟨u, hu, rfl⟩
    exact ⟨hu, rfl⟩
  · rintro ⟨hu, hw⟩
    exact ⟨t.1, hu, Prod.ext rfl hw.symm⟩

/-- The record neither adds nor removes runs. -/
theorem exec_watched {as : List Act} {s t : State} {g : Ghost} :
    (∃ h, exec (watched step watch) as (s, g) = some (t, h)) ↔ exec step as s = some t := by
  induction as generalizing s g with
  | nil => simp [exec]
  | cons a as ih =>
    rw [exec_cons]
    constructor
    · rintro ⟨h, hr⟩
      obtain ⟨u, hu, hr⟩ := exec_cons.mp hr
      exact ⟨u.1, (watched_some.mp hu).1, ih.mp ⟨h, hr⟩⟩
    · rintro ⟨u, hu, hr⟩
      obtain ⟨h, hr⟩ := ih.mpr hr
      exact ⟨h, exec_cons.mpr ⟨(u, watch s a u g), watched_some.mpr ⟨hu, rfl⟩, hr⟩⟩

end

end ServingSystem.Runs
