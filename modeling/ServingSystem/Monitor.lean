import ServingSystem.Positions
import ServingSystem.Runs
import Mathlib.Data.ENat.Basic

/-!
# Objects behind a mutex and a condition variable

A call locks, waits on the condition until it can run, changes the object,
signals and unlocks; each of these is a step, and threads step in any order.
A waiter may wake without a signal. `log` records the calls and their results
in the order in which they changed the object and is read by no step.

The object then behaves as if each call were one step, and no signal that a
waiter needs is lost, if what can be taken from the object grows by one at
most with a signal to one waiter, and shrinks with each call that may wait.
-/

set_option autoImplicit false

namespace ServingSystem.Monitor
open Positions

inductive Signal where
  | none
  | one
  | all
  deriving DecidableEq, Repr

/-- What a call does to the object under the lock, `none` while it waits, and
whom it signals. -/
structure Object (σ Op R : Type*) where
  call : Op → σ → Option (R × σ)
  signal : Op → Signal

inductive Thread (Op R : Type*) where
  | entering (op : Op)
  | inside (op : Op)
  | signalling (op : Op) (r : R)
  | leaving (op : Op) (r : R)
  | waiting (op : Op)
  | notified (op : Op)
  | returned (op : Op) (r : R)
  deriving DecidableEq, Repr

structure State (σ Op R : Type*) where
  shared : σ
  locked : Bool
  threads : List (Thread Op R)
  log : List (Op × R)

/-- `signal` names the waiter that is chosen where one is. -/
inductive Act (Op : Type*) where
  | call (op : Op)
  | lock (thread : ℕ)
  | body (thread : ℕ)
  | signal (thread waiter : ℕ)
  | unlock (thread : ℕ)
  | wake (thread : ℕ)
  deriving DecidableEq, Repr

variable {σ Op R : Type*}

def Thread.isWaiting : Thread Op R → Bool
  | .waiting _ => true
  | _ => false

def Thread.holds : Thread Op R → Bool
  | .inside _ => true
  | .signalling _ _ => true
  | .leaving _ _ => true
  | _ => false

def Thread.wakened : Thread Op R → Thread Op R
  | .waiting op => .notified op
  | t => t

def Thread.op : Thread Op R → Op
  | .entering op => op
  | .inside op => op
  | .signalling op _ => op
  | .leaving op _ => op
  | .waiting op => op
  | .notified op => op
  | .returned op _ => op

def Thread.outcome : Thread Op R → Option (Op × R)
  | .signalling op r => some (op, r)
  | .leaving op r => some (op, r)
  | .returned op r => some (op, r)
  | _ => none

def State.move (s : State σ Op R) (k : ℕ) (t : Thread Op R) (locked : Bool) : State σ Op R :=
  { s with locked := locked, threads := s.threads.set k t }

def notifyOne (waiter : ℕ) (threads : List (Thread Op R)) : Option (List (Thread Op R)) :=
  match threads[waiter]? with
  | some (.waiting op) => some (threads.set waiter (.notified op))
  | _ => if threads.any Thread.isWaiting then none else some threads

def notify (signal : Signal) (waiter : ℕ) (threads : List (Thread Op R)) :
    Option (List (Thread Op R)) :=
  match signal with
  | .none => some threads
  | .one => notifyOne waiter threads
  | .all => some (threads.map Thread.wakened)

def step (obj : Object σ Op R) (s : State σ Op R) : Act Op → Option (State σ Op R)
  | .call op => some { s with threads := s.threads ++ [.entering op] }
  | .lock k =>
    if s.locked then none else
    match s.threads[k]? with
    | some (.entering op) => some (s.move k (.inside op) true)
    | some (.notified op) => some (s.move k (.inside op) true)
    | _ => none
  | .body k =>
    match s.threads[k]? with
    | some (.inside op) =>
      match obj.call op s.shared with
      | some (r, shared) => some { s with
          shared := shared
          threads := s.threads.set k (.signalling op r)
          log := s.log ++ [(op, r)] }
      | none => some (s.move k (.waiting op) false)
    | _ => none
  | .signal k waiter =>
    match s.threads[k]? with
    | some (.signalling op r) =>
      (notify (obj.signal op) waiter (s.threads.set k (.leaving op r))).map (fun threads =>
        { s with threads := threads })
    | _ => none
  | .unlock k =>
    match s.threads[k]? with
    | some (.leaving op r) => some (s.move k (.returned op r) false)
    | _ => none
  | .wake k =>
    match s.threads[k]? with
    | some (.waiting op) => some (s.move k (.notified op) s.locked)
    | _ => none

def initial (shared : σ) : State σ Op R := ⟨shared, false, [], []⟩

def replay [DecidableEq R] (obj : Object σ Op R) : List (Op × R) → σ → Option σ
  | [], s => some s
  | (op, r)::log, s => (obj.call op s).bind (fun out =>
      if out.1 = r then replay obj log out.2 else none)

inductive Step (obj : Object σ Op R) (s : State σ Op R) : Act Op → State σ Op R → Prop where
  | call (op : Op) : Step obj s (.call op) { s with threads := s.threads ++ [.entering op] }
  | enter (k : ℕ) (op : Op) (hl : s.locked = false) (hk : s.threads[k]? = some (.entering op)) :
      Step obj s (.lock k) (s.move k (.inside op) true)
  | reenter (k : ℕ) (op : Op) (hl : s.locked = false) (hk : s.threads[k]? = some (.notified op)) :
      Step obj s (.lock k) (s.move k (.inside op) true)
  | run (k : ℕ) (op : Op) (r : R) (shared : σ) (hk : s.threads[k]? = some (.inside op))
      (hc : obj.call op s.shared = some (r, shared)) :
      Step obj s (.body k) { s with
        shared := shared
        threads := s.threads.set k (.signalling op r)
        log := s.log ++ [(op, r)] }
  | wait (k : ℕ) (op : Op) (hk : s.threads[k]? = some (.inside op))
      (hc : obj.call op s.shared = none) :
      Step obj s (.body k) (s.move k (.waiting op) false)
  | signal (k waiter : ℕ) (op : Op) (r : R) (threads : List (Thread Op R))
      (hk : s.threads[k]? = some (.signalling op r))
      (hn : notify (obj.signal op) waiter (s.threads.set k (.leaving op r)) = some threads) :
      Step obj s (.signal k waiter) { s with threads := threads }
  | unlock (k : ℕ) (op : Op) (r : R) (hk : s.threads[k]? = some (.leaving op r)) :
      Step obj s (.unlock k) (s.move k (.returned op r) false)
  | wake (k : ℕ) (op : Op) (hk : s.threads[k]? = some (.waiting op)) :
      Step obj s (.wake k) (s.move k (.notified op) s.locked)

theorem step_cases {obj : Object σ Op R} {s t : State σ Op R} {a : Act Op}
    (hs : step obj s a = some t) : Step obj s a t := by
  cases a with
  | call op =>
    obtain rfl := Option.some.inj hs
    exact .call op
  | lock k =>
    obtain ⟨hl, hs⟩ := Option.ite_none_left_eq_some.mp hs
    rw [Bool.not_eq_true] at hl
    split at hs
    next op hk =>
      obtain rfl := Option.some.inj hs
      exact .enter k op hl hk
    next op hk =>
      obtain rfl := Option.some.inj hs
      exact .reenter k op hl hk
    next => cases hs
  | body k =>
    simp only [step] at hs
    split at hs
    next op hk =>
      split at hs
      next r shared hc =>
        obtain rfl := Option.some.inj hs
        exact .run k op r shared hk hc
      next hc =>
        obtain rfl := Option.some.inj hs
        exact .wait k op hk hc
    next => cases hs
  | signal k waiter =>
    simp only [step] at hs
    split at hs
    next op r hk =>
      obtain ⟨threads, hn, rfl⟩ := Option.map_eq_some_iff.mp hs
      exact .signal k waiter op r threads hk hn
    next => cases hs
  | unlock k =>
    simp only [step] at hs
    split at hs
    next op r hk =>
      obtain rfl := Option.some.inj hs
      exact .unlock k op r hk
    next => cases hs
  | wake k =>
    simp only [step] at hs
    split at hs
    next op hk =>
      obtain rfl := Option.some.inj hs
      exact .wake k op hk
    next => cases hs

theorem notifyOne_cases {waiter : ℕ} {ts ts' : List (Thread Op R)}
    (h : notifyOne waiter ts = some ts') :
    (∃ op, ts[waiter]? = some (.waiting op) ∧ ts' = ts.set waiter (.notified op)) ∨
      (ts.any Thread.isWaiting = false ∧ ts' = ts) := by
  unfold notifyOne at h
  split at h
  next op hw => exact Or.inl ⟨op, hw, (Option.some.inj h).symm⟩
  next =>
    obtain ⟨hany, he⟩ := Option.ite_none_left_eq_some.mp h
    exact Or.inr ⟨Bool.eq_false_iff.mpr hany, (Option.some.inj he).symm⟩

theorem notify_frame {β : Type*} {f : Thread Op R → Option β}
    (hf : ∀ op, f (.notified op) = f (.waiting op)) {signal : Signal} {waiter : ℕ}
    {ts ts' : List (Thread Op R)} (h : notify signal waiter ts = some ts') :
    ts'.filterMap f = ts.filterMap f := by
  cases signal with
  | none => exact Option.some.inj h ▸ rfl
  | one =>
    rcases notifyOne_cases h with ⟨op, hw, rfl⟩ | ⟨-, rfl⟩
    · exact filterMap_set_eq hw (hf op)
    · rfl
  | all =>
    obtain rfl := Option.some.inj h
    rw [List.filterMap_map]
    congr 1
    funext t
    cases t with
    | waiting op => exact hf op
    | _ => rfl

theorem notify_map {β : Type*} {f : Thread Op R → β} (hf : ∀ op, f (.notified op) = f (.waiting op))
    {signal : Signal} {waiter : ℕ} {ts ts' : List (Thread Op R)}
    (h : notify signal waiter ts = some ts') : ts'.map f = ts.map f := by
  have hframe := notify_frame (f := fun t => some (f t)) (fun op => by rw [hf]) h
  rwa [List.filterMap_eq_map'] at hframe

theorem notify_countP {p : Thread Op R → Bool}
    (hp : ∀ op, p (.notified op) = p (.waiting op)) {signal : Signal} {waiter : ℕ}
    {ts ts' : List (Thread Op R)} (h : notify signal waiter ts = some ts') :
    ts'.countP p = ts.countP p := by
  have hlen : ∀ l : List (Thread Op R),
      l.countP p = (l.filterMap (fun t => if p t then some () else none)).length := by
    intro l
    induction l with
    | nil => rfl
    | cons t l ih => by_cases ht : p t <;> simp [ht, ih]
  rw [hlen, hlen, notify_frame (fun op => by rw [hp]) h]

/-- The object changed by one call after another, under the lock. -/
structure Serial [DecidableEq R] (obj : Object σ Op R) (s₀ : σ) (s : State σ Op R) : Prop where
  exclusive : s.threads.countP Thread.holds = if s.locked then 1 else 0
  logged : (s.threads.filterMap Thread.outcome).Perm s.log
  replayed : replay obj s.log s₀ = some s.shared

section
variable [DecidableEq R] {obj : Object σ Op R} {s₀ : σ} {s t : State σ Op R}

theorem replay_append (log log' : List (Op × R)) (s₀ : σ) :
    replay obj (log ++ log') s₀ = (replay obj log s₀).bind (replay obj log') := by
  induction log generalizing s₀ with
  | nil => rfl
  | cons e log ih =>
    obtain ⟨op, r⟩ := e
    rw [List.cons_append, replay, replay]
    cases obj.call op s₀ with
    | none => rfl
    | some out =>
      rw [Option.bind_some, Option.bind_some]
      split
      next => exact ih out.2
      next => rfl

theorem replay_snoc {log : List (Op × R)} {op : Op} {r : R} {s₀ s s' : σ}
    (h : replay obj log s₀ = some s) (hc : obj.call op s = some (r, s')) :
    replay obj (log ++ [(op, r)]) s₀ = some s' := by
  rw [replay_append, h, Option.bind_some, replay, hc, Option.bind_some, if_pos rfl]
  rfl

theorem Serial.locked (hi : Serial obj s₀ s) {k : ℕ} {x : Thread Op R}
    (hk : s.threads[k]? = some x) (hx : x.holds = true) : s.locked = true := by
  have hpos : 0 < s.threads.countP Thread.holds :=
    List.countP_pos_iff.mpr ⟨x, List.mem_of_getElem? hk, hx⟩
  rw [hi.exclusive] at hpos
  by_contra h
  simp [h] at hpos

theorem Serial.move (hi : Serial obj s₀ s) {k : ℕ} {x : Thread Op R}
    (hk : s.threads[k]? = some x) (y : Thread Op R) (locked : Bool) (hy : y.outcome = x.outcome)
    (hl : ((if locked then 1 else 0 : ℕ) : ℤ) = (if s.locked then 1 else 0 : ℕ)-
      (if x.holds then 1 else 0)+(if y.holds then 1 else 0)) :
    Serial obj s₀ (s.move k y locked) := by
  refine ⟨?_, ?_, hi.replayed⟩
  · have h := countP_set Thread.holds hk y
    rw [hi.exclusive, ← hl] at h
    exact Int.ofNat.inj h
  · change ((s.threads.set k y).filterMap Thread.outcome).Perm s.log
    rw [filterMap_set_eq hk hy]
    exact hi.logged

theorem step_serial (s : State σ Op R) (a : Act Op) (t : State σ Op R) (hi : Serial obj s₀ s)
    (hs : step obj s a = some t) : Serial obj s₀ t := by
  cases step_cases hs with
  | call op =>
    refine ⟨?_, ?_, hi.replayed⟩
    · simpa [Thread.holds] using hi.exclusive
    · change ((s.threads ++ [_]).filterMap Thread.outcome).Perm s.log
      rw [List.filterMap_append, List.filterMap_cons_none rfl, List.filterMap_nil, List.append_nil]
      exact hi.logged
  | enter k op hl hk => exact hi.move hk (.inside op) true rfl (by simp [hl, Thread.holds])
  | reenter k op hl hk => exact hi.move hk (.inside op) true rfl (by simp [hl, Thread.holds])
  | run k op r shared hk hc =>
    refine ⟨?_, ?_, replay_snoc hi.replayed hc⟩
    · have h := countP_set Thread.holds hk (.signalling op r)
      simp only [Thread.holds, if_true, Int.sub_add_cancel] at h
      exact (Int.ofNat.inj h).trans hi.exclusive
    · refine (filterMap_set_perm (f := Thread.outcome) hk rfl rfl).trans ?_
      exact (hi.logged.cons _).trans (List.perm_append_singleton _ _).symm
  | wait k op hk hc =>
    exact hi.move hk (.waiting op) false rfl (by simp [hi.locked hk rfl, Thread.holds])
  | signal k waiter op r threads hk hn =>
    have hmoved := hi.move hk (.leaving op r) s.locked rfl (by simp [Thread.holds])
    refine ⟨?_, ?_, hi.replayed⟩
    · change threads.countP Thread.holds = _
      rw [notify_countP (fun _ => rfl) hn]
      exact hmoved.exclusive
    · change (threads.filterMap Thread.outcome).Perm s.log
      rw [notify_frame (fun _ => rfl) hn]
      exact hmoved.logged
  | unlock k op r hk =>
    exact hi.move hk (.returned op r) false rfl (by simp [hi.locked hk rfl, Thread.holds])
  | wake k op hk => exact hi.move hk (.notified op) s.locked rfl (by simp [Thread.holds])

theorem initial_serial (shared : σ) : Serial obj shared (initial shared) :=
  ⟨rfl, List.Perm.nil, rfl⟩

theorem reachable_serial {as : List (Act Op)} {s : State σ Op R}
    (hr : Runs.exec (step obj) as (initial s₀) = some s) : Serial obj s₀ s :=
  Runs.exec_invariant step_serial (initial_serial s₀) hr

end

/-- A step other than a call keeps the threads' calls, and either runs one
call on the object or changes neither the object nor any result. -/
theorem step_effect {obj : Object σ Op R} {s t : State σ Op R} {a : Act Op}
    (ha : ∀ op, a ≠ .call op) (hs : step obj s a = some t) :
    t.threads.map Thread.op = s.threads.map Thread.op ∧
      ((t.shared = s.shared ∧ t.threads.map Thread.outcome = s.threads.map Thread.outcome) ∨
        ∃ k op r, s.threads[k]? = some (.inside op) ∧ obj.call op s.shared = some (r, t.shared) ∧
          t.threads = s.threads.set k (.signalling op r)) := by
  cases step_cases hs with
  | call op => exact absurd rfl (ha op)
  | enter k op hl hk => exact ⟨map_set_eq hk rfl, Or.inl ⟨rfl, map_set_eq hk rfl⟩⟩
  | reenter k op hl hk => exact ⟨map_set_eq hk rfl, Or.inl ⟨rfl, map_set_eq hk rfl⟩⟩
  | run k op r shared hk hc => exact ⟨map_set_eq hk rfl, Or.inr ⟨k, op, r, hk, hc, rfl⟩⟩
  | wait k op hk hc => exact ⟨map_set_eq hk rfl, Or.inl ⟨rfl, map_set_eq hk rfl⟩⟩
  | signal k waiter op r threads hk hn =>
    refine ⟨(notify_map (fun _ => rfl) hn).trans (map_set_eq hk rfl), Or.inl ⟨rfl, ?_⟩⟩
    exact (notify_map (fun _ => rfl) hn).trans (map_set_eq hk rfl)
  | unlock k op r hk => exact ⟨map_set_eq hk rfl, Or.inl ⟨rfl, map_set_eq hk rfl⟩⟩
  | wake k op hk => exact ⟨map_set_eq hk rfl, Or.inl ⟨rfl, map_set_eq hk rfl⟩⟩

theorem notify_getElem? {signal : Signal} {waiter : ℕ} {ts ts' : List (Thread Op R)}
    (h : notify signal waiter ts = some ts') {j : ℕ} {x : Thread Op R} (hj : ts[j]? = some x) :
    ts'[j]? = some x ∨ ∃ op, signal ≠ .none ∧ x = .waiting op ∧ ts'[j]? = some (.notified op) := by
  cases signal with
  | none => exact Or.inl (Option.some.inj h ▸ hj)
  | one =>
    rcases notifyOne_cases h with ⟨op, hw, rfl⟩ | ⟨-, rfl⟩
    · by_cases hne : waiter = j
      · subst hne
        obtain rfl := Option.some.inj (hw.symm.trans hj)
        refine Or.inr ⟨op, (nomatch ·), rfl, ?_⟩
        exact List.getElem?_set_self (List.getElem?_eq_some_iff.mp hw).1
      · rw [List.getElem?_set_ne hne, hj]
        exact Or.inl rfl
    · exact Or.inl hj
  | all =>
    obtain rfl := Option.some.inj h
    rw [List.getElem?_map, hj, Option.map_some]
    cases x with
    | waiting op => exact Or.inr ⟨op, (nomatch ·), rfl, rfl⟩
    | _ => exact Or.inl rfl

theorem step_returned {obj : Object σ Op R} {s t : State σ Op R} {a : Act Op}
    (hs : step obj s a = some t) {j : ℕ} {op : Op} {r : R}
    (hj : s.threads[j]? = some (.returned op r)) : t.threads[j]? = some (.returned op r) := by
  have hset : ∀ k x y, s.threads[k]? = some x → x ≠ .returned op r →
      (s.threads.set k y)[j]? = some (.returned op r) := by
    intro k x y hk hx
    have hne : k ≠ j := by
      rintro rfl
      exact hx (Option.some.inj (hk.symm.trans hj))
    rw [List.getElem?_set_ne hne, hj]
  cases step_cases hs with
  | call op' =>
    exact (List.getElem?_append_left (List.getElem?_eq_some_iff.mp hj).1).trans hj
  | enter k op' hl hk => exact hset k _ _ hk (nomatch ·)
  | reenter k op' hl hk => exact hset k _ _ hk (nomatch ·)
  | run k op' r' shared hk hc => exact hset k _ _ hk (nomatch ·)
  | wait k op' hk hc => exact hset k _ _ hk (nomatch ·)
  | signal k waiter op' r' threads hk hn =>
    rcases notify_getElem? hn (hset k _ _ hk (nomatch ·)) with h | ⟨_, _, h, -⟩
    · exact h
    · cases h
  | unlock k op' r' hk => exact hset k _ _ hk (nomatch ·)
  | wake k op' hk => exact hset k _ _ hk (nomatch ·)

/-- What can be taken from the object: a call that may wait does so exactly
when there is nothing, and takes one; another gives no more than its signal
tells. -/
structure Discipline (obj : Object σ Op R) where
  avail : σ → ℕ∞
  blocking : Op → Bool
  waits : ∀ op s, obj.call op s = none ↔ blocking op = true ∧ avail s = 0
  takes : ∀ op s r s', blocking op = true → obj.call op s = some (r, s') → avail s'+1 ≤ avail s
  gives : ∀ op s r s', blocking op = false → obj.call op s = some (r, s') → obj.signal op ≠ .all →
    avail s' ≤ avail s+(if obj.signal op = .one then 1 else 0)

/-- The threads that are on their way to take something, or to wake one that
will. -/
def Discipline.busy {obj : Object σ Op R} (d : Discipline obj) : Thread Op R → Bool
  | .inside op => d.blocking op
  | .signalling op _ => obj.signal op = .one
  | .notified _ => true
  | _ => false

def wakesAll (obj : Object σ Op R) : Thread Op R → Bool
  | .signalling op _ => obj.signal op = .all
  | _ => false

/-- While a thread waits, there is at most one thing for each busy thread, or
all waiters are about to be woken. -/
structure Awake {obj : Object σ Op R} (d : Discipline obj) (s : State σ Op R) : Prop where
  blocked : ∀ op, .waiting op ∈ s.threads ∨ .notified op ∈ s.threads → d.blocking op = true
  served : s.threads.any Thread.isWaiting = true →
    d.avail s.shared ≤ s.threads.countP d.busy ∨ s.threads.any (wakesAll obj) = true

section
variable {obj : Object σ Op R} {d : Discipline obj} {s t : State σ Op R}

theorem any_set {p : Thread Op R → Bool} {ts : List (Thread Op R)} {k : ℕ} {x y : Thread Op R}
    (hk : ts[k]? = some x) (hx : p x = true → p y = true) (h : ts.any p = true) :
    (ts.set k y).any p = true := by
  obtain ⟨z, hz, hp⟩ := List.any_eq_true.mp h
  obtain ⟨j, hj⟩ := List.getElem?_of_mem hz
  by_cases hjk : j = k
  · subst hjk
    obtain rfl := Option.some.inj (hk.symm.trans hj)
    exact List.any_eq_true.mpr ⟨y, List.mem_set (List.getElem?_eq_some_iff.mp hk).1 y, hx hp⟩
  · refine List.any_eq_true.mpr ⟨z, List.mem_of_getElem? (i := j) ?_, hp⟩
    rw [List.getElem?_set_ne (Ne.symm hjk), hj]

theorem waiting_set {ts : List (Thread Op R)} {k : ℕ} {y : Thread Op R}
    (hy : y.isWaiting = false) (h : (ts.set k y).any Thread.isWaiting = true) :
    ts.any Thread.isWaiting = true := by
  obtain ⟨z, hz, hp⟩ := List.any_eq_true.mp h
  rcases mem_set hz with rfl | hz
  · exact absurd hp (by simp [hy])
  · exact List.any_eq_true.mpr ⟨z, hz, hp⟩

theorem busy_set {ts : List (Thread Op R)} {k : ℕ} {x : Thread Op R} (hk : ts[k]? = some x)
    (y : Thread Op R) : (ts.set k y).countP d.busy+(d.busy x).toNat =
      ts.countP d.busy+(d.busy y).toNat := by
  have h := countP_set d.busy hk y
  cases hx : d.busy x <;> cases hy : d.busy y <;>
    simp only [hx, hy, if_true, if_false, Bool.false_eq_true] at h <;>
    simp only [Bool.toNat_true, Bool.toNat_false] <;> omega

theorem Awake.move (hi : Awake d s) {k : ℕ} {x : Thread Op R} (hk : s.threads[k]? = some x)
    (y : Thread Op R) (locked : Bool) (hx : wakesAll obj x = false) (hy : y.isWaiting = false)
    (hb : d.busy x = true → d.busy y = true)
    (hn : ∀ op, y = .notified op → d.blocking op = true) : Awake d (s.move k y locked) := by
  refine ⟨fun op h => ?_, fun h => ?_⟩
  · rcases h with h | h <;> rcases mem_set h with h | h
    · exact absurd hy (by simp [← h, Thread.isWaiting])
    · exact hi.blocked op (Or.inl h)
    · exact hn op h.symm
    · exact hi.blocked op (Or.inr h)
  · rcases hi.served (waiting_set hy h) with hle | hall
    · refine Or.inl (hle.trans ?_)
      have hset := busy_set (d := d) hk y
      have hcount : s.threads.countP d.busy ≤ (s.threads.set k y).countP d.busy := by
        have hb' : (d.busy x).toNat ≤ (d.busy y).toNat := by
          cases hbx : d.busy x with
          | true => rw [hb hbx]
          | false => exact Nat.zero_le _
        omega
      exact_mod_cast hcount
    · exact Or.inr (any_set hk (fun hp => by simp [hx] at hp) hall)

/-- A call changes the object: what it takes it was busy for, and what it
gives it is now busy to signal. -/
theorem run_served (hi : Awake d s) {k : ℕ} {op : Op} {r : R} {shared : σ}
    (hk : s.threads[k]? = some (.inside op)) (hc : obj.call op s.shared = some (r, shared))
    (hw : s.threads.any Thread.isWaiting = true) :
    d.avail shared ≤ (s.threads.set k (.signalling op r)).countP d.busy ∨
      (s.threads.set k (.signalling op r)).any (wakesAll obj) = true := by
  have hset : _+(d.blocking op).toNat = _+(decide (obj.signal op = .one)).toNat :=
    busy_set (d := d) hk (.signalling op r)
  by_cases hall : obj.signal op = .all
  · refine Or.inr (List.any_eq_true.mpr ⟨_, List.mem_set (List.getElem?_eq_some_iff.mp hk).1 _, ?_⟩)
    simp [wakesAll, hall]
  rcases hi.served hw with hle | hany
  · left
    cases hb : d.blocking op with
    | true =>
      have htake := (d.takes op _ r shared hb hc).trans hle
      rw [hb, Bool.toNat_true] at hset
      have hcount : s.threads.countP d.busy ≤
          (s.threads.set k (.signalling op r)).countP d.busy+1 := by omega
      have hone : d.avail shared+1 ≤
          ((s.threads.set k (.signalling op r)).countP d.busy : ℕ∞)+1 :=
        htake.trans (by exact_mod_cast hcount)
      exact (ENat.add_le_add_iff_right ENat.one_ne_top).mp hone
    | false =>
      have hgive := d.gives op _ r shared hb hc hall
      rw [hb, Bool.toNat_false, Nat.add_zero] at hset
      rw [hset, Nat.cast_add]
      refine hgive.trans (add_le_add hle ?_)
      by_cases hone : obj.signal op = .one <;> simp [hone]
  · exact Or.inr (any_set hk (fun hp => by simp [wakesAll] at hp) hany)

theorem signal_awake (hi : Awake d s) {k waiter : ℕ} {op : Op} {r : R}
    {threads : List (Thread Op R)} (hk : s.threads[k]? = some (.signalling op r))
    (hn : notify (obj.signal op) waiter (s.threads.set k (.leaving op r)) = some threads) :
    Awake d { s with threads := threads } := by
  have hblocked : ∀ op', .waiting op' ∈ s.threads.set k (.leaving op r) ∨
      .notified op' ∈ s.threads.set k (.leaving op r) → d.blocking op' = true := by
    intro op' h
    refine hi.blocked op' (h.imp (fun h => ?_) (fun h => ?_)) <;>
      exact (mem_set h).resolve_left (nomatch ·)
  cases hsig : obj.signal op with
  | none =>
    rw [hsig] at hn
    obtain rfl := Option.some.inj hn
    exact hi.move hk (.leaving op r) s.locked (by simp [wakesAll, hsig]) rfl
      (by simp [Discipline.busy, hsig]) (fun _ => (nomatch ·))
  | all =>
    rw [hsig] at hn
    obtain rfl := Option.some.inj hn
    refine ⟨fun op' h => ?_, fun h => ?_⟩
    · have hold : ∀ t ∈ s.threads.set k (.leaving op r), t.wakened = .notified op' →
          d.blocking op' = true := by
        intro t ht he
        cases t with
        | waiting op₀ => exact Thread.notified.inj he ▸ hblocked op₀ (Or.inl ht)
        | notified op₀ => exact Thread.notified.inj he ▸ hblocked op₀ (Or.inr ht)
        | _ => cases he
      rcases h with h | h
      · obtain ⟨t, -, he⟩ := List.mem_map.mp h
        cases t <;> cases he
      · obtain ⟨t, ht, he⟩ := List.mem_map.mp h
        exact hold t ht he
    · obtain ⟨t, ht, hwait⟩ := List.any_eq_true.mp h
      obtain ⟨t, -, rfl⟩ := List.mem_map.mp ht
      cases t <;> cases hwait
  | one =>
    rw [hsig] at hn
    rcases notifyOne_cases hn with ⟨op', hw, rfl⟩ | ⟨hnone, rfl⟩
    · refine ⟨fun op₀ h => ?_, fun h => ?_⟩
      · rcases h with h | h <;> rcases mem_set h with he | h
        · cases he
        · exact hblocked op₀ (Or.inl h)
        · exact Thread.notified.inj he ▸ hblocked op' (Or.inl (List.mem_of_getElem? hw))
        · exact hblocked op₀ (Or.inr h)
      -- One busy thread less has signalled, and one more is notified.
      · have hleft : _+(decide (obj.signal op = .one)).toNat = _ :=
          busy_set (d := d) hk (.leaving op r)
        have hback := busy_set (d := d) hw (.notified op')
        simp only [Discipline.busy, hsig, decide_true, Bool.toNat_true,
          Bool.toNat_false] at hleft hback
        rcases hi.served (waiting_set rfl (waiting_set rfl h)) with hle | hany
        · left
          have hcount : s.threads.countP d.busy =
              ((s.threads.set k (.leaving op r)).set waiter (.notified op')).countP d.busy := by
            omega
          rw [hcount] at hle
          exact hle
        · refine Or.inr (any_set hw (fun hp => by simp [wakesAll] at hp) ?_)
          exact any_set hk (fun hp => by simp [wakesAll, hsig] at hp) hany
    · exact ⟨hblocked, fun h => absurd h (by simp [hnone])⟩

theorem step_awake (s : State σ Op R) (a : Act Op) (t : State σ Op R) (hi : Awake d s)
    (hs : step obj s a = some t) : Awake d t := by
  cases step_cases hs with
  | call op =>
    refine ⟨fun op' h => hi.blocked op' ?_, fun h => ?_⟩
    · simpa using h
    · have hw : s.threads.any Thread.isWaiting = true := by simpa [Thread.isWaiting] using h
      refine (hi.served hw).imp (fun hle => ?_) (fun hany => ?_)
      · simpa [Discipline.busy] using hle
      · simpa [wakesAll] using hany
  | enter k op hl hk =>
    exact hi.move hk (.inside op) true rfl rfl (by simp [Discipline.busy]) (fun _ => (nomatch ·))
  | reenter k op hl hk =>
    have hb := hi.blocked op (Or.inr (List.mem_of_getElem? hk))
    exact hi.move hk (.inside op) true rfl rfl (fun _ => hb) (fun _ => (nomatch ·))
  | run k op r shared hk hc =>
    refine ⟨fun op' h => hi.blocked op' (h.imp (fun h => ?_) (fun h => ?_)), fun h => ?_⟩
    · exact (mem_set h).resolve_left (nomatch ·)
    · exact (mem_set h).resolve_left (nomatch ·)
    · exact run_served hi hk hc (waiting_set rfl h)
  | wait k op hk hc =>
    obtain ⟨hb, hzero⟩ := (d.waits op s.shared).mp hc
    refine ⟨fun op' h => ?_, fun _ => Or.inl (hzero ▸ zero_le)⟩
    rcases h with h | h <;> rcases mem_set h with he | h
    · exact Thread.waiting.inj he ▸ hb
    · exact hi.blocked op' (Or.inl h)
    · cases he
    · exact hi.blocked op' (Or.inr h)
  | signal k waiter op r threads hk hn => exact signal_awake hi hk hn
  | unlock k op r hk =>
    exact hi.move hk (.returned op r) false rfl rfl (by simp [Discipline.busy])
      (fun _ => (nomatch ·))
  | wake k op hk =>
    have hb := hi.blocked op (Or.inl (List.mem_of_getElem? hk))
    exact hi.move hk (.notified op) s.locked rfl rfl (fun _ => rfl)
      (fun op' he => Thread.notified.inj he ▸ hb)

theorem initial_awake (d : Discipline obj) (shared : σ) : Awake d (initial shared) :=
  ⟨fun _ h => by simp [initial] at h, fun h => by simp [initial] at h⟩

theorem reachable_awake {as : List (Act Op)} {shared : σ}
    (hr : Runs.exec (step obj) as (initial shared) = some s) : Awake d s :=
  Runs.exec_invariant step_awake (initial_awake d shared) hr

end

def own : Act Op → Bool
  | .call _ => false
  | .wake _ => false
  | _ => true

def Thread.settled : Thread Op R → Bool
  | .waiting _ => true
  | .returned _ _ => true
  | _ => false

theorem notify_total (signal : Signal) (ts : List (Thread Op R)) :
    ∃ waiter ts', notify signal waiter ts = some ts' := by
  cases signal with
  | none => exact ⟨0, ts, rfl⟩
  | all => exact ⟨0, _, rfl⟩
  | one =>
    by_cases hany : ts.any Thread.isWaiting = true
    · obtain ⟨t, ht, hw⟩ := List.any_eq_true.mp hany
      obtain ⟨w, hget⟩ := List.getElem?_of_mem ht
      cases t with
      | waiting op => exact ⟨w, ts.set w (.notified op), by simp [notify, notifyOne, hget]⟩
      | _ => cases hw
    · by_cases hz : ∃ op, ts[0]? = some (.waiting op)
      · obtain ⟨op, hz⟩ := hz
        exact absurd (List.any_eq_true.mpr ⟨_, List.mem_of_getElem? hz, rfl⟩) hany
      · refine ⟨0, ts, ?_⟩
        simp only [notify, notifyOne]
        split
        next op hop => exact absurd ⟨op, hop⟩ hz
        next => exact if_neg hany

/-- The lock is never in the way: a state in which no thread can go on has
only threads that wait or have returned, and those that wait have nothing to
take. -/
theorem stuck_settled [DecidableEq R] {obj : Object σ Op R} (d : Discipline obj) {s₀ : σ}
    {as : List (Act Op)} {s : State σ Op R}
    (hr : Runs.exec (step obj) as (initial s₀) = some s)
    (hstuck : ∀ a, own a = true → step obj s a = none) :
    (∀ t ∈ s.threads, t.settled = true) ∧
      ∀ op, .waiting op ∈ s.threads → obj.call op s.shared = none := by
  have hserial := reachable_serial hr
  have hawake : Awake d s := reachable_awake hr
  -- No thread has the lock, since it could go on.
  have hfree : ∀ t ∈ s.threads, t.holds = false := by
    intro t ht
    obtain ⟨k, hk⟩ := List.getElem?_of_mem ht
    cases t with
    | inside op =>
      have h := hstuck (.body k) rfl
      simp only [step, hk] at h
      split at h <;> cases h
    | signalling op r =>
      obtain ⟨w, ts', hn⟩ := notify_total (obj.signal op) (s.threads.set k (.leaving op r))
      have h := hstuck (.signal k w) rfl
      simp only [step, hk, hn, Option.map_some, reduceCtorEq] at h
    | leaving op r =>
      have h := hstuck (.unlock k) rfl
      simp only [step, hk, reduceCtorEq] at h
    | _ => rfl
  have hunlocked : s.locked = false := by
    by_contra hl
    have hcount := hserial.exclusive
    rw [if_pos (by simpa using hl)] at hcount
    obtain ⟨t, ht, hh⟩ := List.countP_pos_iff.mp (by omega : 0 < s.threads.countP Thread.holds)
    exact absurd hh (by simp [hfree t ht])
  have hsettled : ∀ t ∈ s.threads, t.settled = true := by
    intro t ht
    obtain ⟨k, hk⟩ := List.getElem?_of_mem ht
    have hlock := hstuck (.lock k) rfl
    simp only [step, hunlocked, Bool.false_eq_true, if_false, hk] at hlock
    have hf := hfree t ht
    cases t with
    | waiting op => rfl
    | returned op r => rfl
    | entering op => cases hlock
    | notified op => cases hlock
    | _ => cases hf
  refine ⟨hsettled, fun op hop => (d.waits op s.shared).mpr ⟨hawake.blocked op (Or.inl hop), ?_⟩⟩
  have hquiet : ∀ t ∈ s.threads, d.busy t = false ∧ wakesAll obj t = false := by
    intro t ht
    have h := hsettled t ht
    cases t with
    | waiting op => exact ⟨rfl, rfl⟩
    | returned op r => exact ⟨rfl, rfl⟩
    | _ => cases h
  rcases hawake.served (List.any_eq_true.mpr ⟨_, hop, rfl⟩) with hle | hany
  · rw [List.countP_eq_zero.mpr (fun t ht => by simp [(hquiet t ht).1])] at hle
    exact nonpos_iff_eq_zero.mp hle
  · obtain ⟨t, ht, hw⟩ := List.any_eq_true.mp hany
    exact absurd hw (by simp [(hquiet t ht).2])

end ServingSystem.Monitor
