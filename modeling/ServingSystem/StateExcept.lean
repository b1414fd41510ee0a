import Mathlib.Tactic.Common

/-!
# Calls that return or raise

Rules for the monad of a state and an error, in which a call that raises
keeps the state it has reached.
-/

set_option autoImplicit false

namespace ServingSystem.StateExcept

variable {ε σ α β : Type}

def finalState : EStateM.Result ε σ α → σ
  | .ok _ s => s
  | .error _ s => s

theorem bind_ok {x : EStateM ε σ α} {f : α → EStateM ε σ β} {s t : σ} {a : α}
    (h : x s = .ok a t) : (x >>= f) s = f a t := by
  simp [bind, EStateM.bind, h]

theorem bind_error {x : EStateM ε σ α} {f : α → EStateM ε σ β} {s t : σ} {e : ε}
    (h : x s = .error e t) : (x >>= f) s = .error e t := by
  simp [bind, EStateM.bind, h]

theorem get_bind (f : σ → EStateM ε σ α) (s : σ) : (get >>= f) s = f s s := rfl

theorem modify_bind (u : σ → σ) (f : PUnit → EStateM ε σ α) (s : σ) :
    (modify u >>= f) s = f ⟨⟩ (u s) := rfl

theorem pure_apply (a : α) (s : σ) : (pure a : EStateM ε σ α) s = .ok a s := rfl

theorem throw_apply (e : ε) (s : σ) : (throw e : EStateM ε σ α) s = .error e s := rfl

theorem modify_apply (u : σ → σ) (s : σ) :
    (modify u : EStateM ε σ PUnit) s = .ok ⟨⟩ (u s) := rfl

theorem tryCatch_ok {x : EStateM ε σ α} {handle : ε → EStateM ε σ α} {s t : σ} {a : α}
    (h : x s = .ok a t) : tryCatch x handle s = .ok a t := by
  simp only [tryCatch, tryCatchThe, MonadExceptOf.tryCatch, EStateM.tryCatch, h]

theorem tryCatch_error {x : EStateM ε σ α} {handle : ε → EStateM ε σ α} {s t : σ} {e : ε}
    (h : x s = .error e t) : tryCatch x handle s = handle e t := by
  simp only [tryCatch, tryCatchThe, MonadExceptOf.tryCatch, EStateM.tryCatch, h]
  rfl

theorem finalState_bind_ok {x : EStateM ε σ α} {f : α → EStateM ε σ β} {s t : σ} {a : α}
    (h : x s = .ok a t) : finalState ((x >>= f) s) = finalState (f a t) := by
  rw [bind_ok h]

theorem finalState_bind_error {x : EStateM ε σ α} {f : α → EStateM ε σ β} {s t : σ} {e : ε}
    (h : x s = .error e t) : finalState ((x >>= f) s) = t := by
  rw [bind_error h]
  rfl

/-- `try`/`finally`: the cleanup runs after a return and after an error, and
an error of its own replaces either. -/
def finallyDo (x : EStateM ε σ α) (cleanup : EStateM ε σ PUnit) : EStateM ε σ α := fun s =>
  match x s with
  | .ok a t => (cleanup >>= fun _ => pure a) t
  | .error e t => (cleanup >>= fun _ => throw e) t

theorem finalState_bind_keep {x : EStateM ε σ β} {g : β → EStateM ε σ α}
    (hg : ∀ b s, finalState (g b s) = s) (s : σ) :
    finalState ((x >>= g) s) = finalState (x s) := by
  cases h : x s with
  | ok b t => rw [finalState_bind_ok h, hg b t]; rfl
  | error e t => rw [finalState_bind_error h]; rfl

theorem finalState_finallyDo (x : EStateM ε σ α) (cleanup : EStateM ε σ PUnit) (s : σ) :
    finalState (finallyDo x cleanup s) = finalState (cleanup (finalState (x s))) := by
  rw [finallyDo]
  cases x s with
  | ok a t => exact finalState_bind_keep (fun _ _ => rfl) t
  | error e t => exact finalState_bind_keep (fun _ _ => rfl) t

section
variable {R : σ → σ → Prop}

def Leads (R : σ → σ → Prop) (x : EStateM ε σ α) : Prop := ∀ s, R s (finalState (x s))

theorem leads_modify {u : σ → σ} (h : ∀ s, R s (u s)) :
    Leads R (modify u : EStateM ε σ PUnit) := h

theorem leads_pure [Std.Refl R] (a : α) : Leads R (pure a : EStateM ε σ α) :=
  fun s => Std.Refl.refl s

theorem leads_throw [Std.Refl R] (e : ε) : Leads R (throw e : EStateM ε σ α) :=
  fun s => Std.Refl.refl s

theorem leads_get [Std.Refl R] : Leads R (get : EStateM ε σ σ) := fun s => Std.Refl.refl s

theorem leads_bind [IsTrans σ R] {x : EStateM ε σ α} {g : α → EStateM ε σ β}
    (hx : Leads R x) (hg : ∀ a, Leads R (g a)) : Leads R (x >>= g) := by
  intro s
  have h := hx s
  cases hxs : x s with
  | ok a t =>
    rw [hxs] at h
    rw [finalState_bind_ok hxs]
    exact IsTrans.trans _ _ _ h (hg a t)
  | error e t =>
    rw [hxs] at h
    rwa [finalState_bind_error hxs]

theorem leads_tryCatch [IsTrans σ R] {x : EStateM ε σ α} {handle : ε → EStateM ε σ α}
    (hx : Leads R x) (hh : ∀ e, Leads R (handle e)) : Leads R (tryCatch x handle) := by
  intro s
  have h := hx s
  cases hxs : x s with
  | ok a t =>
    rw [hxs] at h
    rwa [tryCatch_ok hxs]
  | error e t =>
    rw [hxs] at h
    rw [tryCatch_error hxs]
    exact IsTrans.trans _ _ _ h (hh e t)

/-- What comes after the first part of a `try` block, its handler included,
starts from the state that part leaves. -/
theorem leads_after [IsTrans σ R] {x : EStateM ε σ α} {k : α → EStateM ε σ β}
    {handle : ε → EStateM ε σ β} (hk : ∀ a, Leads R (k a)) (hh : ∀ e, Leads R (handle e)) (s : σ) :
    R (finalState (x s)) (finalState (tryCatch (x >>= k) handle s)) := by
  cases hxs : x s with
  | ok a t =>
    show R t _
    have h := hk a t
    cases hkt : k a t with
    | ok b u =>
      rw [hkt] at h
      rwa [tryCatch_ok ((bind_ok hxs).trans hkt)]
    | error e u =>
      rw [hkt] at h
      rw [tryCatch_error ((bind_ok hxs).trans hkt)]
      exact IsTrans.trans _ _ _ h (hh e u)
  | error e t =>
    rw [tryCatch_error (bind_error hxs)]
    exact hh e t

end

def Keeps {β : Type*} (f : σ → β) (x : EStateM ε σ α) : Prop := ∀ s, f (finalState (x s)) = f s

instance keeps_trans {β : Type*} (f : σ → β) : IsTrans σ (fun s t => f t = f s) :=
  ⟨fun _ _ _ hst htu => htu.trans hst⟩

theorem keeps_bind {γ : Type*} {f : σ → γ} {x : EStateM ε σ α} {g : α → EStateM ε σ β}
    (hx : Keeps f x) (hg : ∀ a, Keeps f (g a)) : Keeps f (x >>= g) :=
  leads_bind (R := fun s t => f t = f s) hx hg

theorem keeps_pure {γ : Type*} {f : σ → γ} (a : α) : Keeps f (pure a : EStateM ε σ α) :=
  fun _ => rfl

theorem keeps_modify {γ : Type*} {f : σ → γ} {u : σ → σ} (h : ∀ s, f (u s) = f s) :
    Keeps f (modify u : EStateM ε σ PUnit) := h

/-- What every handler keeps is as the body has left it. -/
theorem keeps_handler {γ : Type*} {f : σ → γ} {x : EStateM ε σ α} {handle : ε → EStateM ε σ α}
    (hh : ∀ e, Keeps f (handle e)) (s : σ) :
    f (finalState (tryCatch x handle s)) = f (finalState (x s)) := by
  cases h : x s with
  | ok a t => rw [tryCatch_ok h]
  | error e t =>
    rw [tryCatch_error h]
    exact hh e t

theorem keeps_get {γ : Type*} {f : σ → γ} : Keeps f (get : EStateM ε σ σ) := fun _ => rfl

end ServingSystem.StateExcept
