import ServingSystem.Positions
import ServingSystem.PythonSessions

/-!
# The routing lock of the Python proxy

Who holds the lock between steps and who waits for it, in every state of the
sessions.
-/

set_option autoImplicit false

namespace ServingSystem.PythonProxy.Sessions
open Positions

/-- The lock is held between steps only by a request that has yielded under
it, and its waiters are the requests and the update that wait. -/
structure Disciplined (lock : AsyncLock Task) (phases : List Phase) (n : ℕ) (updating : Bool) :
    Prop where
  inOrder : lock.InOrder
  asked : ∀ k : ℕ, .request k ∈ lock.arrived → ∃ p, phases[k]? = some p ∧ p ≠ .created
  received : ∀ m, .update m ∈ lock.arrived → m < n
  waiting : ∀ k : ℕ, .request k ∈ lock.waiters ↔ phases[k]? = some .waiting
  updating : ∀ m, .update m ∈ lock.waiters ↔ updating = true ∧ m+1 = n
  holder : phases.countP (· = .notFound) = if lock.locked then 1 else 0

section
variable {lock lock' : AsyncLock Task} {phases : List Phase} {n k : ℕ} {updating : Bool}
  {p : Phase}

theorem getElem?_set_eq_some {α : Type*} {l : List α} {k j : ℕ} {a b c : α} (hk : l[k]? = some a) :
    (l.set k b)[j]? = some c ↔ (j = k ∧ c = b) ∨ (j ≠ k ∧ l[j]? = some c) := by
  constructor
  · exact getElem?_set_cases
  · rintro (⟨rfl, rfl⟩ | ⟨hne, hj⟩)
    · exact List.getElem?_set_self (List.getElem?_eq_some_iff.mp hk).1
    · rw [List.getElem?_set_ne (Ne.symm hne), hj]

theorem Disciplined.set (hd : Disciplined lock phases n updating) (hk : phases[k]? = some p)
    (hw : p ≠ .waiting) (hf : p ≠ .notFound) {p' : Phase} (hc' : p' ≠ .created)
    (hw' : p' ≠ .waiting) (hf' : p' ≠ .notFound) :
    Disciplined lock (phases.set k p') n updating where
  inOrder := hd.inOrder
  asked j hj := by
    obtain ⟨q, hq, hqc⟩ := hd.asked j hj
    by_cases hjk : j = k
    · subst hjk
      exact ⟨p', (getElem?_set_eq_some hk).mpr (Or.inl ⟨rfl, rfl⟩), hc'⟩
    · exact ⟨q, (getElem?_set_eq_some hk).mpr (Or.inr ⟨hjk, hq⟩), hqc⟩
  received := hd.received
  waiting j := by
    rw [hd.waiting j, getElem?_set_eq_some hk]
    constructor
    · intro h
      refine Or.inr ⟨?_, h⟩
      rintro rfl
      exact hw (Option.some.inj (hk.symm.trans h))
    · rintro (⟨rfl, h⟩ | ⟨-, h⟩)
      · exact absurd h.symm hw'
      · exact h
  updating := hd.updating
  holder := by
    have hcount := countP_set (· = Phase.notFound) hk p'
    simp only [hf, hf', decide_false, Bool.false_eq_true, if_false] at hcount
    rw [← hd.holder]
    omega

theorem Disciplined.taken (hd : Disciplined lock phases n updating)
    (ht : lock.Took lock' (.request k)) (hk : phases[k]? = some p) (hf : p ≠ .notFound)
    {p' : Phase} (hc' : p' ≠ .created) (hw' : p' ≠ .waiting) :
    (p' = .notFound → Disciplined lock' (phases.set k p') n updating) ∧
      (p' ≠ .notFound → Disciplined lock'.release (phases.set k p') n updating) := by
  have hasked : ∀ j : ℕ, .request j ∈ lock'.arrived →
      ∃ q, (phases.set k p')[j]? = some q ∧ q ≠ .created := by
    intro j hj
    by_cases hjk : j = k
    · subst hjk
      exact ⟨p', (getElem?_set_eq_some hk).mpr (Or.inl ⟨rfl, rfl⟩), hc'⟩
    · have hj' := ((ht.arrived _).mp hj).resolve_left (fun h => hjk (Task.request.inj h))
      obtain ⟨q, hq, hqc⟩ := hd.asked j hj'
      exact ⟨q, (getElem?_set_eq_some hk).mpr (Or.inr ⟨hjk, hq⟩), hqc⟩
  have hreceived : ∀ m, .update m ∈ lock'.arrived → m < n := by
    intro m hm
    exact hd.received m (((ht.arrived _).mp hm).resolve_left (nomatch ·))
  have hwaiting : ∀ j : ℕ, .request j ∈ lock'.waiters ↔
      (phases.set k p')[j]? = some .waiting := by
    intro j
    rw [ht.waiters, hd.waiting, getElem?_set_eq_some hk]
    constructor
    · rintro ⟨hne, h⟩
      exact Or.inr ⟨fun h => hne (congrArg Task.request h), h⟩
    · rintro (⟨-, h⟩ | ⟨hne, h⟩)
      · exact absurd h.symm hw'
      · exact ⟨fun h => hne (Task.request.inj h), h⟩
  have hupdating : ∀ m, .update m ∈ lock'.waiters ↔ updating = true ∧ m+1 = n := by
    intro m
    rw [ht.waiters, ← hd.updating m]
    exact ⟨And.right, fun h => ⟨(nomatch ·), h⟩⟩
  have hcount := countP_set (· = Phase.notFound) hk p'
  have hholder := hd.holder
  rw [ht.free] at hholder
  simp only [hf, decide_false, Bool.false_eq_true, if_false] at hcount hholder
  constructor
  · intro hnf
    refine ⟨ht.inOrder, hasked, hreceived, hwaiting, hupdating, ?_⟩
    rw [ht.locked]
    simp only [hnf, decide_true, if_true] at hcount ⊢
    omega
  · intro hnf
    refine ⟨ht.inOrder.release, hasked, hreceived, hwaiting, hupdating, ?_⟩
    simp only [AsyncLock.release, Bool.false_eq_true, if_false]
    simp only [hnf, decide_false, Bool.false_eq_true, if_false] at hcount
    omega

theorem Disciplined.applied (hd : Disciplined lock phases n updating) {m n' : ℕ}
    (ht : lock.Took lock' (.update m)) (hn : n ≤ n') (hm : m+1 = n')
    (hu : updating = true → n' = n) : Disciplined lock'.release phases n' false where
  inOrder := ht.inOrder.release
  asked j hj := hd.asked j (((ht.arrived _).mp hj).resolve_left (nomatch ·))
  received j hj := by
    rcases (ht.arrived _).mp hj with h | h
    · obtain rfl := Task.update.inj h
      omega
    · exact (hd.received j h).trans_le hn
  waiting j := by
    refine Iff.trans ?_ (hd.waiting j)
    exact (ht.waiters _).trans ⟨And.right, fun h => ⟨(nomatch ·), h⟩⟩
  updating j := by
    constructor
    · intro h
      obtain ⟨hne, h⟩ := (ht.waiters _).mp h
      obtain ⟨hup, hj⟩ := (hd.updating j).mp h
      have hjm : j = m := by
        have hn' := hu hup
        omega
      exact absurd (congrArg Task.update hjm) hne
    · rintro ⟨h, -⟩
      cases h
  holder := by
    have hholder := hd.holder
    rw [ht.free] at hholder
    exact hholder

theorem Disciplined.queued (hd : Disciplined lock phases n updating)
    (hk : phases[k]? = some .created) (ha : lock.acquire (.request k) = (false, lock')) :
    Disciplined lock' (phases.set k .waiting) n updating := by
  have hnew : .request k ∉ lock.arrived := by
    intro h
    obtain ⟨q, hq, hqc⟩ := hd.asked k h
    exact hqc (Option.some.inj (hq.symm.trans hk))
  have horder := hd.inOrder.acquire hnew
  rw [ha] at horder
  rcases lock.acquire_cases (.request k) with ⟨-, -, h⟩ | ⟨-, h⟩
  · cases (Prod.mk.inj (ha.symm.trans h)).1
  obtain ⟨-, rfl⟩ := Prod.mk.inj (ha.symm.trans h)
  refine ⟨horder, fun j hj => ?_, fun m hm => ?_, fun j => ?_, fun m => ?_, ?_⟩
  · by_cases hjk : j = k
    · subst hjk
      exact ⟨.waiting, (getElem?_set_eq_some hk).mpr (Or.inl ⟨rfl, rfl⟩), (nomatch ·)⟩
    · have hj' : .request j ∈ lock.arrived := by simpa [hjk] using hj
      obtain ⟨q, hq, hqc⟩ := hd.asked j hj'
      exact ⟨q, (getElem?_set_eq_some hk).mpr (Or.inr ⟨hjk, hq⟩), hqc⟩
  · exact hd.received m (by simpa using hm)
  · rw [List.mem_append, hd.waiting, getElem?_set_eq_some hk]
    by_cases hjk : j = k
    · simp [hjk]
    · simp [hjk]
  · rw [List.mem_append, ← hd.updating m]
    simp
  · have hcount := countP_set (· = Phase.notFound) hk .waiting
    simp only [reduceCtorEq, decide_false, Bool.false_eq_true, if_false] at hcount
    rw [← hd.holder]
    omega

theorem Disciplined.held (hd : Disciplined lock phases n false)
    (ha : lock.acquire (.update n) = (false, lock')) : Disciplined lock' phases (n+1) true := by
  have hnew : .update n ∉ lock.arrived := fun h => absurd (hd.received n h) (Nat.lt_irrefl n)
  have horder := hd.inOrder.acquire hnew
  rw [ha] at horder
  rcases lock.acquire_cases (.update n) with ⟨-, -, h⟩ | ⟨-, h⟩
  · cases (Prod.mk.inj (ha.symm.trans h)).1
  obtain ⟨-, rfl⟩ := Prod.mk.inj (ha.symm.trans h)
  refine ⟨horder, fun j hj => hd.asked j (by simpa using hj), fun m hm => ?_, fun j => ?_,
    fun m => ?_, hd.holder⟩
  · rcases List.mem_append.mp hm with h | h
    · exact (hd.received m h).trans (Nat.lt_succ_self n)
    · obtain rfl := Task.update.inj (List.mem_singleton.mp h)
      exact Nat.lt_succ_self m
  · rw [List.mem_append, hd.waiting]
    simp
  · have hnone : .update m ∉ lock.waiters := fun h => (nomatch ((hd.updating m).mp h).1)
    rw [List.mem_append, List.mem_singleton]
    constructor
    · intro h
      exact ⟨rfl, congrArg (·+1) (Task.update.inj (h.resolve_left hnone))⟩
    · rintro ⟨-, h⟩
      exact Or.inr (congrArg Task.update (Nat.succ.inj h))

theorem Disciplined.given (hd : Disciplined lock phases n updating)
    (hk : phases[k]? = some .notFound) {p' : Phase} (hp : p' = .done ∨ p' = .closed) :
    Disciplined lock.release (phases.set k p') n updating where
  inOrder := hd.inOrder.release
  asked j hj := by
    obtain ⟨q, hq, hqc⟩ := hd.asked j hj
    by_cases hjk : j = k
    · subst hjk
      refine ⟨p', (getElem?_set_eq_some hk).mpr (Or.inl ⟨rfl, rfl⟩), ?_⟩
      rcases hp with rfl | rfl <;> exact (nomatch ·)
    · exact ⟨q, (getElem?_set_eq_some hk).mpr (Or.inr ⟨hjk, hq⟩), hqc⟩
  received := hd.received
  waiting j := by
    refine (hd.waiting j).trans ?_
    rw [getElem?_set_eq_some hk]
    constructor
    · intro h
      refine Or.inr ⟨?_, h⟩
      rintro rfl
      cases hk.symm.trans h
    · rintro (⟨rfl, h⟩ | ⟨-, h⟩)
      · rcases hp with rfl | rfl <;> cases h
      · exact h
  updating := hd.updating
  holder := by
    have hcount := countP_set (· = Phase.notFound) hk p'
    have hle : phases.countP (· = .notFound) ≤ 1 := by
      rw [hd.holder]
      split <;> omega
    rcases hp with rfl | rfl <;>
      simp only [decide_true, reduceCtorEq, decide_false, if_true, Bool.false_eq_true,
        if_false] at hcount <;>
      simp only [AsyncLock.release, Bool.false_eq_true, if_false] <;> omega

theorem Disciplined.cancelled (hd : Disciplined lock phases n updating)
    (hk : phases[k]? = some .waiting) :
    Disciplined (lock.cancel (.request k)) (phases.set k .closed) n updating where
  inOrder := hd.inOrder.cancel _
  asked j hj := by
    obtain ⟨q, hq, hqc⟩ := hd.asked j hj
    by_cases hjk : j = k
    · subst hjk
      exact ⟨.closed, (getElem?_set_eq_some hk).mpr (Or.inl ⟨rfl, rfl⟩), (nomatch ·)⟩
    · exact ⟨q, (getElem?_set_eq_some hk).mpr (Or.inr ⟨hjk, hq⟩), hqc⟩
  received := hd.received
  waiting j := by
    rw [AsyncLock.mem_cancel hd.inOrder, hd.waiting, getElem?_set_eq_some hk]
    simp
  updating m := by
    rw [AsyncLock.mem_cancel hd.inOrder, ← hd.updating m]
    simp
  holder := by
    have hcount := countP_set (· = Phase.notFound) hk .closed
    simp only [reduceCtorEq, decide_false, Bool.false_eq_true, if_false] at hcount
    change (phases.set k .closed).countP _ = if lock.locked then 1 else 0
    rw [← hd.holder]
    omega

end

def State.phases (s : State) : List Phase := s.requests.map Request.phase

def State.LockOk (s : State) : Prop := Disciplined s.lock s.phases s.updates.length s.updating

theorem put_phases (s : State) (k : ℕ) (r : Request) :
    (s.put k r).phases = s.phases.set k r.phase := by
  rw [State.phases, State.put, List.map_set]
  rfl

theorem phases_get {s : State} {k : ℕ} {r : Request} (hk : s.requests[k]? = some r) :
    s.phases[k]? = some r.phase := by
  rw [State.phases, List.getElem?_map, hk]
  rfl

/-- A request that has got the lock keeps it exactly when it yields under it. -/
theorem serve_lock (s : State) (k : ℕ) (r : Request) : ∃ p,
    (s.serve k r).phases = s.phases.set k p ∧
    (s.serve k r).updates = s.updates ∧ (s.serve k r).updating = s.updating ∧
    ((p = .notFound ∧ (s.serve k r).lock = s.lock) ∨
      ((p = .done ∨ p = .streaming) ∧ (s.serve k r).lock = s.lock.release)) := by
  rcases serve_cases s k r with ⟨-, h⟩ | ⟨i, handle, -, ⟨-, h⟩ | ⟨address, id, -, h⟩⟩
  · exact ⟨.notFound, by rw [h, put_phases], by rw [h]; rfl, by rw [h]; rfl,
      Or.inl ⟨rfl, by rw [h]; rfl⟩⟩
  · exact ⟨.done, by rw [h, put_phases]; rfl, by rw [h]; rfl, by rw [h]; rfl,
      Or.inr ⟨Or.inl rfl, by rw [h]; rfl⟩⟩
  · exact ⟨_, by rw [h, put_phases]; rfl, by rw [h]; rfl, by rw [h]; rfl,
      Or.inr ⟨attempt_phase _ _ _ _, by rw [h]; rfl⟩⟩

theorem serve_lockOk {s : State} (hd : s.LockOk) {k : ℕ} {r : Request} {lock : AsyncLock Task}
    (ht : s.lock.Took lock (.request k)) (hk : s.requests[k]? = some r) (hf : r.phase ≠ .notFound) :
    ({ s with lock := lock }.serve k r).LockOk := by
  obtain ⟨p, hphases, hupdates, hupdating, hp⟩ := serve_lock { s with lock := lock } k r
  simp only [State.LockOk, hphases, hupdates, hupdating]
  have htaken : p ≠ .created → p ≠ .waiting → _ := hd.taken ht (phases_get hk) hf
  rcases hp with ⟨rfl, h⟩ | ⟨rfl | rfl, h⟩
  · rw [h]
    exact (htaken (nomatch ·) (nomatch ·)).1 rfl
  · rw [h]
    exact (htaken (nomatch ·) (nomatch ·)).2 (nomatch ·)
  · rw [h]
    exact (htaken (nomatch ·) (nomatch ·)).2 (nomatch ·)

theorem finish_keeps (s : State) (r : Request) : (s.finish r).lock = s.lock ∧
    (s.finish r).requests = s.requests ∧ (s.finish r).updates = s.updates ∧
    (s.finish r).updating = s.updating ∧ (s.finish r).routingTable = s.routingTable := by
  unfold State.finish
  split <;> exact ⟨rfl, rfl, rfl, rfl, rfl⟩

theorem streaming_lockOk {s u : State} (hd : s.LockOk) (hlock : u.lock = s.lock)
    (hrequests : u.requests = s.requests) (hupdates : u.updates = s.updates)
    (hupdating : u.updating = s.updating) {k : ℕ} {r r' : Request} (hk : s.requests[k]? = some r)
    (hp : r.phase = .streaming ∨ r.phase = .dropped)
    (hp' : r'.phase ∈ [Phase.streaming, .dropped, .closed, .done]) : (u.put k r').LockOk := by
  have hphases : (u.put k r').phases = s.phases.set k r'.phase := by
    rw [put_phases, State.phases, hrequests]
    rfl
  change Disciplined u.lock (u.put k r').phases u.updates.length u.updating
  rw [hphases, hlock, hupdates, hupdating]
  refine hd.set (phases_get hk) ?_ ?_ ?_ ?_ ?_
  · rcases hp with h | h <;> simp [h]
  · rcases hp with h | h <;> simp [h]
  all_goals
    rintro h
    simp [h] at hp'

theorem step_lockOk (s : State) (a : Act) (t : State) (hd : s.LockOk) (hs : step s a = some t) :
    t.LockOk := by
  cases step_cases hs with
  | request deploymentName =>
    have hphases : State.phases { s with requests := s.requests ++ [created deploymentName] } =
        s.phases ++ [.created] := List.map_append
    simp only [State.LockOk, hphases]
    refine ⟨hd.inOrder, fun k hk => ?_, hd.received, fun k => ?_, hd.updating, ?_⟩
    · obtain ⟨p, hp, hpc⟩ := hd.asked k hk
      exact ⟨p, getElem?_snoc.mpr (Or.inl hp), hpc⟩
    · refine (hd.waiting k).trans ?_
      rw [getElem?_snoc]
      exact ⟨Or.inl, fun h => h.resolve_right (fun h => nomatch h.2)⟩
    · simpa using hd.holder
  | enter k r lock hk hp hl =>
    have hnew : .request k ∉ s.lock.arrived := by
      intro h
      obtain ⟨p, hpk, hpc⟩ := hd.asked k h
      rw [phases_get hk, hp] at hpk
      exact hpc (Option.some.inj hpk).symm
    exact serve_lockOk hd (AsyncLock.took_acquire hd.inOrder hnew hl) hk (by simp [hp])
  | wait k r lock hk hp hl =>
    change Disciplined lock (State.phases _) s.updates.length s.updating
    rw [put_phases]
    exact hd.queued (hp ▸ phases_get hk) hl
  | update update lock hu hl =>
    have hnew : .update s.updates.length ∉ s.lock.arrived :=
      fun h => absurd (hd.received _ h) (Nat.lt_irrefl _)
    have ht := AsyncLock.took_acquire hd.inOrder hnew hl
    have happ := hd.applied ht (Nat.le_succ _) rfl (by simp [hu])
    change Disciplined lock.release s.phases (s.updates ++ [update]).length s.updating
    rw [hu, List.length_append]
    exact happ
  | hold update lock hu hl =>
    change Disciplined lock s.phases (s.updates ++ [update]).length true
    rw [List.length_append]
    exact Disciplined.held (hu ▸ hd) hl
  | nextRequest k r lock hl hk =>
    have ht := AsyncLock.took_next hd.inOrder hl
    have hwait : .request k ∈ s.lock.waiters := by
      obtain ⟨-, waiters, hw, -⟩ := AsyncLock.next_eq_some hl
      rw [hw]
      exact List.mem_cons_self
    have hphase := (hd.waiting k).mp hwait
    rw [phases_get hk] at hphase
    exact serve_lockOk hd ht hk (by simp [Option.some.inj hphase])
  | nextUpdate n update lock hl hu =>
    have ht := AsyncLock.took_next hd.inOrder hl
    have hwait : .update n ∈ s.lock.waiters := by
      obtain ⟨-, waiters, hw, -⟩ := AsyncLock.next_eq_some hl
      rw [hw]
      exact List.mem_cons_self
    exact hd.applied ht (Nat.le_refl _) ((hd.updating n).mp hwait).2 (fun _ => rfl)
  | resume k r hk hp =>
    change Disciplined s.lock.release (State.phases _) s.updates.length s.updating
    rw [put_phases]
    exact hd.given (hp ▸ phases_get hk) (Or.inl rfl)
  | token k r reply hk hp he =>
    exact streaming_lockOk hd rfl rfl rfl rfl hk (Or.inl hp) (by simp [hp])
  | flagged k r reply hk hp he =>
    obtain ⟨hlock, hreq, hupd, hing, -⟩ := finish_keeps s r
    exact streaming_lockOk hd hlock hreq hupd hing hk (Or.inl hp) (by simp [Request.succeed])
  | ends k r error hk hp =>
    obtain ⟨hlock, hreq, hupd, hing, -⟩ := finish_keeps s r
    exact streaming_lockOk hd hlock hreq hupd hing hk (Or.inl hp) (by simp [Request.succeed])
  | closeCreated k r hk hp =>
    change Disciplined s.lock (State.phases _) s.updates.length s.updating
    rw [put_phases]
    refine hd.set (phases_get hk) ?_ ?_ (nomatch ·) (nomatch ·) (nomatch ·) <;> simp [hp]
  | closeWaiting k r hk hp =>
    change Disciplined _ (State.phases _) s.updates.length s.updating
    rw [put_phases]
    exact hd.cancelled (hp ▸ phases_get hk)
  | closeNotFound k r hk hp =>
    change Disciplined s.lock.release (State.phases _) s.updates.length s.updating
    rw [put_phases]
    exact hd.given (hp ▸ phases_get hk) (Or.inr rfl)
  | closeStreaming k r hk hp =>
    exact streaming_lockOk hd rfl rfl rfl rfl hk (Or.inl hp) (by simp)
  | collect k r hk hp =>
    obtain ⟨hlock, hreq, hupd, hing, -⟩ := finish_keeps s r
    exact streaming_lockOk hd hlock hreq hupd hing hk (Or.inr hp) (by simp)

theorem initial_lockOk : initial.LockOk :=
  ⟨AsyncLock.free_inOrder, fun _ h => (nomatch h), fun _ h => (nomatch h), fun _ => by
    simp [initial, AsyncLock.free, State.phases], fun _ => by simp [initial, AsyncLock.free], rfl⟩

end ServingSystem.PythonProxy.Sessions
