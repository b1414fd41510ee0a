import ServingSystem.QueueMonitor

/-!
# The two threads of a request

The event loop and the thread of `SendRequest` with the steps of their calls
on the queue: locking, waiting, signalling. Each run is a run of the model in
which every call is one step, and ends with it.
-/

set_option autoImplicit false

namespace ServingSystem.ReplicaThreads
open Monitor QueueMonitor TokenPipeline Proxy Proxy.HttpSession Positions
open ClosedQueue (cppPut)

abbrev QueueState := Monitor.State ThreadSafeQueue Op (Option Bytes)

def cppPutOp : Option (List Char) → Op
  | none => .close
  | some text => .put (utf8 text)

/-- The loop of `SendRequest`, with the thread of its call. -/
inductive Server where
  | idle
  | getting (thread : ℕ)
  | writing (item : Bytes)
  | returned
  | stopped
  deriving DecidableEq, Repr

/-- `putting` is the thread of the callback's call, with the item. -/
structure State where
  pending : List (Option (List Char))
  putting : Option (ℕ × Option (List Char))
  monitor : QueueState
  server : Server
  replies : List ReplicaReply

inductive Act where
  | put
  | putReturned
  | get
  | getReturned
  | write (accepted : Bool)
  | thread (a : Monitor.Act Op)
  deriving DecidableEq, Repr

def called (op : Op) (m : QueueState) : QueueState :=
  { m with threads := m.threads ++ [.entering op] }

def State.value (s : State) (k : ℕ) : Option (Option Bytes) :=
  s.monitor.threads[k]?.bind (fun t => match t with
    | .returned _ r => some r
    | _ => none)

def isCall : Monitor.Act Op → Bool
  | .call _ => true
  | _ => false

def step (s : State) : Act → Option State
  | .put =>
    if s.putting.isSome then none else
    match s.pending with
    | item::pending => some { s with
        pending := pending
        putting := some (s.monitor.threads.length, item)
        monitor := called (cppPutOp item) s.monitor }
    | [] => none
  | .putReturned => s.putting.bind (fun p => (s.value p.1).map (fun _ =>
      { s with putting := none }))
  | .get =>
    match s.server with
    | .idle => some { s with
        server := .getting s.monitor.threads.length
        monitor := called .get s.monitor }
    | _ => none
  | .getReturned =>
    match s.server with
    | .getting k => (s.value k).map (fun r => { s with
        server := match r with
          | some item => .writing item
          | none => .returned })
    | _ => none
  | .write accepted =>
    match s.server with
    | .writing item =>
      if accepted then
        some { s with server := .idle, replies := s.replies ++ [reply item] }
      else some { s with server := .stopped }
    | _ => none
  | .thread a =>
    if isCall a then none
    else (Monitor.step queueObject s.monitor a).map (fun m => { s with monitor := m })

def start (items : List (Option (List Char))) : State :=
  ⟨items, none, Monitor.initial ⟨[], false⟩, .idle, []⟩

def outcome (m : QueueState) (k : ℕ) : Option (Option Bytes) :=
  (m.threads[k]?.bind Thread.outcome).map Prod.snd

def State.held (s : State) : List (Option (List Char)) :=
  match s.putting with
  | some (k, item) => if (outcome s.monitor k).isSome then [] else [item]
  | none => []

def State.loop (s : State) : ClosedQueue.Server :=
  match s.server with
  | .idle => .getting
  | .getting k =>
    match outcome s.monitor k with
    | none => .getting
    | some none => .returned
    | some (some item) => .writing item
  | .writing item => .writing item
  | .returned => .returned
  | .stopped => .stopped

def abstract (s : State) : ClosedQueue.State :=
  ⟨s.held ++ s.pending, s.monitor.shared, s.loop, s.replies⟩

def opOf (s : State) (k : ℕ) : Option Op := s.monitor.threads[k]?.map Thread.op

structure Roles (s : State) : Prop where
  putting : ∀ k item, s.putting = some (k, item) → opOf s k = some (cppPutOp item)
  getting : ∀ k, s.server = .getting k → opOf s k = some .get
  others : ∀ (j : ℕ) t, s.monitor.threads[j]? = some t → (∃ op r, t = .returned op r) ∨
    (∃ item, s.putting = some (j, item)) ∨ s.server = .getting j

section
variable {s s' : State}

theorem cppPutOp_ne_get (item : Option (List Char)) : cppPutOp item ≠ .get := by
  cases item <;> exact (nomatch ·)

theorem Roles.apart (hr : Roles s) {k : ℕ} {item : Option (List Char)}
    (hp : s.putting = some (k, item)) : s.server ≠ .getting k := by
  intro hg
  exact cppPutOp_ne_get item (Option.some.inj ((hr.putting k item hp).symm.trans (hr.getting k hg)))

theorem opOf_called {m : QueueState} {op : Op} {k : ℕ}
    {o : Op} (h : m.threads[k]?.map Thread.op = some o) :
    (called op m).threads[k]?.map Thread.op = some o := by
  obtain ⟨t, ht, ho⟩ := Option.map_eq_some_iff.mp h
  have hlt := (List.getElem?_eq_some_iff.mp ht).1
  rw [called, List.getElem?_append_left hlt, ht, Option.map_some, ho]

theorem opOf_new (op : Op) (m : QueueState) :
    (called op m).threads[m.threads.length]?.map Thread.op = some op := by
  rw [called, List.getElem?_concat_length]
  rfl

theorem value_eq {k : ℕ} {r : Option Bytes} (h : s.value k = some r) :
    ∃ op, s.monitor.threads[k]? = some (.returned op r) := by
  obtain ⟨t, ht, h⟩ := Option.bind_eq_some_iff.mp h
  cases t with
  | returned op r' => exact ⟨op, Option.some.inj h ▸ ht⟩
  | _ => cases h

theorem step_put (hs : step s .put = some s') : ∃ item pending, s.putting = none ∧
    s.pending = item::pending ∧ s' = { s with
      pending := pending
      putting := some (s.monitor.threads.length, item)
      monitor := called (cppPutOp item) s.monitor } := by
  obtain ⟨hp, hs⟩ := Option.ite_none_left_eq_some.mp hs
  split at hs
  next item pending hpend =>
    exact ⟨item, pending, by simpa using hp, hpend, (Option.some.inj hs).symm⟩
  next => cases hs

theorem step_putReturned (hs : step s .putReturned = some s') : ∃ k item op r,
    s.putting = some (k, item) ∧ s.monitor.threads[k]? = some (.returned op r) ∧
      s' = { s with putting := none } := by
  obtain ⟨⟨k, item⟩, hp, hs⟩ := Option.bind_eq_some_iff.mp hs
  obtain ⟨r, hv, rfl⟩ := Option.map_eq_some_iff.mp hs
  obtain ⟨op, ht⟩ := value_eq hv
  exact ⟨k, item, op, r, hp, ht, rfl⟩

theorem step_get (hs : step s .get = some s') : s.server = .idle ∧ s' = { s with
    server := .getting s.monitor.threads.length
    monitor := called .get s.monitor } := by
  simp only [step] at hs
  split at hs
  next hidle => exact ⟨hidle, (Option.some.inj hs).symm⟩
  next => cases hs

theorem step_getReturned (hs : step s .getReturned = some s') : ∃ k op r,
    s.server = .getting k ∧ s.monitor.threads[k]? = some (.returned op r) ∧ s' = { s with
      server := match r with
        | some item => .writing item
        | none => .returned } := by
  simp only [step] at hs
  split at hs
  next k hg =>
    obtain ⟨r, hv, rfl⟩ := Option.map_eq_some_iff.mp hs
    obtain ⟨op, ht⟩ := value_eq hv
    exact ⟨k, op, r, hg, ht, rfl⟩
  next => cases hs

theorem step_write {accepted : Bool} (hs : step s (.write accepted) = some s') :
    ∃ item, s.server = .writing item ∧ s' = if accepted then
      { s with server := .idle, replies := s.replies ++ [reply item] }
      else { s with server := .stopped } := by
  simp only [step] at hs
  split at hs
  next item hw =>
    refine ⟨item, hw, ?_⟩
    cases accepted <;> exact (Option.some.inj hs).symm
  next => cases hs

theorem step_thread {a : Monitor.Act Op} (hs : step s (.thread a) = some s') :
    (∀ op, a ≠ .call op) ∧ ∃ m, Monitor.step queueObject s.monitor a = some m ∧
      s' = { s with monitor := m } := by
  obtain ⟨hc, hs⟩ := Option.ite_none_left_eq_some.mp hs
  obtain ⟨m, hm, rfl⟩ := Option.map_eq_some_iff.mp hs
  refine ⟨?_, m, hm, rfl⟩
  rintro op rfl
  exact hc rfl

theorem others_called (hr : Roles s) (op : Op) (j : ℕ) (t : Thread Op (Option Bytes))
    (ht : (called op s.monitor).threads[j]? = some t) :
    (∃ op r, t = .returned op r) ∨ (∃ item, s.putting = some (j, item)) ∨ s.server = .getting j ∨
      j = s.monitor.threads.length := by
  rcases getElem?_snoc.mp ht with ht | ⟨hj, -⟩
  · rcases hr.others j t ht with h | h | h
    · exact Or.inl h
    · exact Or.inr (Or.inl h)
    · exact Or.inr (Or.inr (Or.inl h))
  · exact Or.inr (Or.inr (Or.inr hj))

theorem step_roles (s : State) (a : Act) (s' : State) (hr : Roles s) (hs : step s a = some s') :
    Roles s' := by
  cases a with
  | put =>
    obtain ⟨item, pending, hp, -, rfl⟩ := step_put hs
    refine ⟨fun k x h => ?_, fun k h => opOf_called (hr.getting k h), fun j t ht => ?_⟩
    · obtain ⟨rfl, rfl⟩ := Prod.mk.inj (Option.some.inj h)
      exact opOf_new _ _
    · rcases others_called hr _ j t ht with h | ⟨x, h⟩ | h | rfl
      · exact Or.inl h
      · cases hp.symm.trans h
      · exact Or.inr (Or.inr h)
      · exact Or.inr (Or.inl ⟨item, rfl⟩)
  | putReturned =>
    obtain ⟨k, item, op, r, hp, ht, rfl⟩ := step_putReturned hs
    refine ⟨fun _ _ h => (nomatch h), hr.getting, fun j t hj => ?_⟩
    rcases hr.others j t hj with h | ⟨x, h⟩ | h
    · exact Or.inl h
    · obtain ⟨rfl, rfl⟩ := Prod.mk.inj (Option.some.inj (hp.symm.trans h))
      exact Or.inl ⟨op, r, Option.some.inj (hj.symm.trans ht)⟩
    · exact Or.inr (Or.inr h)
  | get =>
    obtain ⟨hidle, rfl⟩ := step_get hs
    refine ⟨fun k x h => opOf_called (hr.putting k x h), fun k h => ?_, fun j t ht => ?_⟩
    · obtain rfl := Server.getting.inj h
      exact opOf_new _ _
    · rcases others_called hr _ j t ht with h | h | h | rfl
      · exact Or.inl h
      · exact Or.inr (Or.inl h)
      · cases hidle.symm.trans h
      · exact Or.inr (Or.inr rfl)
  | getReturned =>
    obtain ⟨k, op, r, hg, ht, rfl⟩ := step_getReturned hs
    refine ⟨hr.putting, fun j h => ?_, fun j t hj => ?_⟩
    · cases r <;> cases h
    · rcases hr.others j t hj with h | h | h
      · exact Or.inl h
      · exact Or.inr (Or.inl h)
      · obtain rfl := Server.getting.inj (hg.symm.trans h)
        exact Or.inl ⟨op, r, Option.some.inj (hj.symm.trans ht)⟩
  | write accepted =>
    obtain ⟨item, hw, rfl⟩ := step_write hs
    have hothers : ∀ (j : ℕ) t, s.monitor.threads[j]? = some t → (∃ op r, t = .returned op r) ∨
        ∃ item, s.putting = some (j, item) := by
      intro j t hj
      rcases hr.others j t hj with h | h | h
      · exact Or.inl h
      · exact Or.inr h
      · cases hw.symm.trans h
    cases accepted <;>
      exact ⟨hr.putting, fun _ h => (nomatch h), fun j t hj => (hothers j t hj).imp_right Or.inl⟩
  | thread a =>
    obtain ⟨hcall, m, hm, rfl⟩ := step_thread hs
    obtain ⟨hops, -⟩ := step_effect hcall hm
    have hop : ∀ k : ℕ, m.threads[k]?.map Thread.op = s.monitor.threads[k]?.map Thread.op := by
      intro k
      rw [← List.getElem?_map, hops, List.getElem?_map]
    refine ⟨fun k x h => (hop k).trans (hr.putting k x h),
      fun k h => (hop k).trans (hr.getting k h), fun j t hj => ?_⟩
    have hlt : j < s.monitor.threads.length := by
      have hlen := congrArg List.length hops
      rw [List.length_map, List.length_map] at hlen
      exact hlen ▸ (List.getElem?_eq_some_iff.mp hj).1
    obtain ⟨x, hx⟩ : ∃ x, s.monitor.threads[j]? = some x := ⟨_, List.getElem?_eq_getElem hlt⟩
    rcases hr.others j x hx with ⟨op, r, rfl⟩ | h
    · exact Or.inl ⟨op, r, Option.some.inj (hj.symm.trans (step_returned hm hx))⟩
    · exact Or.inr h

theorem start_roles (items : List (Option (List Char))) : Roles (start items) :=
  ⟨fun _ _ h => (nomatch h), fun _ h => (nomatch h),
    fun _ _ h => by simp [start, Monitor.initial] at h⟩

theorem outcome_called {m : QueueState} {k : ℕ} {o : Op}
    (h : m.threads[k]?.map Thread.op = some o) (op : Op) :
    outcome (called op m) k = outcome m k := by
  obtain ⟨t, ht, -⟩ := Option.map_eq_some_iff.mp h
  rw [outcome, called, List.getElem?_append_left (List.getElem?_eq_some_iff.mp ht).1]
  rfl

theorem outcome_new (op : Op) (m : QueueState) :
    outcome (called op m) m.threads.length = none := by
  rw [outcome, called, List.getElem?_concat_length]
  rfl

theorem outcome_returned {m : QueueState} {k : ℕ} {op : Op}
    {r : Option Bytes} (h : m.threads[k]? = some (.returned op r)) : outcome m k = some r := by
  rw [outcome, h]
  rfl

theorem held_eq (m : QueueState)
    (h : ∀ k item, s.putting = some (k, item) → outcome m k = outcome s.monitor k) :
    State.held { s with monitor := m } = s.held := by
  unfold State.held
  cases hp : s.putting with
  | none => rfl
  | some p => simp only [h p.1 p.2 hp]

theorem loop_eq (m : QueueState)
    (h : ∀ k, s.server = .getting k → outcome m k = outcome s.monitor k) :
    State.loop { s with monitor := m } = s.loop := by
  unfold State.loop
  cases hg : s.server with
  | getting k => simp only [h k hg]
  | _ => rfl

theorem call_put (item : Option (List Char)) (q : ThreadSafeQueue) :
    queueObject.call (cppPutOp item) q = some (none, cppPut q item) := by
  cases item <;> rfl

/-- A call changes the queue: it is the callback's or the loop's. -/
theorem body_simulates (hr : Roles s) {m : QueueState}
    {k : ℕ} {op : Op} {r : Option Bytes} (hk : s.monitor.threads[k]? = some (.inside op))
    (hc : queueObject.call op s.monitor.shared = some (r, m.shared))
    (hm : m.threads = s.monitor.threads.set k (.signalling op r)) :
    ∃ b, ClosedQueue.step (abstract s) b = some (abstract { s with monitor := m }) := by
  have hbefore : outcome s.monitor k = none := by
    rw [outcome, hk]
    rfl
  have hafter : outcome m k = some r := by
    rw [outcome, hm, List.getElem?_set_self (List.getElem?_eq_some_iff.mp hk).1]
    rfl
  have hother : ∀ j : ℕ, k ≠ j → outcome m j = outcome s.monitor j := by
    intro j hj
    rw [outcome, hm, List.getElem?_set_ne hj]
    rfl
  rcases hr.others k _ hk with ⟨_, _, h⟩ | ⟨item, hp⟩ | hg
  · cases h
  · have hop : op = cppPutOp item := by
      have h := hr.putting k item hp
      rw [opOf, hk] at h
      exact Option.some.inj h
    rw [hop, call_put] at hc
    obtain ⟨-, hshared⟩ := Prod.mk.inj (Option.some.inj hc)
    have hloop : State.loop { s with monitor := m } = s.loop :=
      loop_eq m (fun j hj => hother j (fun h => hr.apart hp (h ▸ hj)))
    refine ⟨.put, ?_⟩
    have hheld : s.held = [item] := by simp [State.held, hp, hbefore]
    have hheld' : State.held { s with monitor := m } = [] := by simp [State.held, hp, hafter]
    simp only [abstract, ClosedQueue.step, hheld, hheld', hloop, ← hshared]
    rfl
  · have hop : op = .get := by
      have h := hr.getting k hg
      rw [opOf, hk] at h
      exact Option.some.inj h
    have hget : s.monitor.shared.get = some (r, m.shared) := by
      rw [hop] at hc
      exact hc
    have hheld : State.held { s with monitor := m } = s.held :=
      held_eq m (fun j item hj => hother j (fun h => hr.apart hj (h ▸ hg)))
    refine ⟨.get, ?_⟩
    have hloop : s.loop = .getting := by simp [State.loop, hg, hbefore]
    cases r with
    | none =>
      have hloop' : State.loop { s with monitor := m } = .returned := by
        simp [State.loop, hg, hafter]
      simp only [abstract, ClosedQueue.step, hloop, hloop', hget, hheld]
    | some item =>
      have hloop' : State.loop { s with monitor := m } = .writing item := by
        simp [State.loop, hg, hafter]
      simp only [abstract, ClosedQueue.step, hloop, hloop', hget, hheld]

/-- A step of the threads is a step of the calls or changes nothing there. -/
theorem step_simulates (hr : Roles s) {a : Act} (hs : step s a = some s') :
    abstract s' = abstract s ∨
      ∃ b, ClosedQueue.step (abstract s) b = some (abstract s') := by
  cases a with
  | put =>
    obtain ⟨item, pending, hp, hpend, rfl⟩ := step_put hs
    left
    have hloop : State.loop { s with monitor := called (cppPutOp item) s.monitor } = s.loop :=
      loop_eq _ (fun k hk => outcome_called (hr.getting k hk) _)
    have hheld : s.held = [] := by simp [State.held, hp]
    simp only [abstract, hheld, hpend, List.nil_append]
    refine congrArg₂ (fun p l => ClosedQueue.State.mk p _ l _) ?_ hloop
    simp [State.held, outcome_new]
  | putReturned =>
    obtain ⟨k, item, op, r, hp, ht, rfl⟩ := step_putReturned hs
    left
    have hheld : s.held = [] := by simp [State.held, hp, outcome_returned ht]
    simp only [abstract, hheld]
    rfl
  | get =>
    obtain ⟨hidle, rfl⟩ := step_get hs
    left
    have hheld : State.held { s with monitor := called .get s.monitor } = s.held :=
      held_eq _ (fun k item hk => outcome_called (hr.putting k item hk) _)
    have hloop : s.loop = .getting := by simp [State.loop, hidle]
    simp only [abstract, hloop]
    refine congrArg₂ (fun p l => ClosedQueue.State.mk p _ l _) (congrArg (· ++ _) hheld) ?_
    simp [State.loop, outcome_new]
  | getReturned =>
    obtain ⟨k, op, r, hg, ht, rfl⟩ := step_getReturned hs
    left
    have hloop : s.loop = match r with
        | some item => .writing item
        | none => .returned := by
      simp only [State.loop, hg, outcome_returned ht]
      cases r <;> rfl
    simp only [abstract, hloop]
    cases r <;> rfl
  | write accepted =>
    obtain ⟨item, hw, rfl⟩ := step_write hs
    right
    refine ⟨.write accepted, ?_⟩
    have hloop : s.loop = .writing item := by simp [State.loop, hw]
    simp only [abstract, ClosedQueue.step, hloop]
    cases accepted <;> rfl
  | thread a =>
    obtain ⟨hcall, m, hm, rfl⟩ := step_thread hs
    obtain ⟨-, ⟨hshared, hout⟩ | ⟨k, op, r, hk, hc, hset⟩⟩ := step_effect hcall hm
    · left
      have hsame : ∀ j : ℕ, outcome m j = outcome s.monitor j := by
        intro j
        have hj : (m.threads[j]?.map Thread.outcome).bind id =
            (s.monitor.threads[j]?.map Thread.outcome).bind id := by
          rw [← List.getElem?_map, hout, List.getElem?_map]
        rw [Option.bind_map, Option.bind_map] at hj
        exact congrArg (Option.map Prod.snd) hj
      have hheld := held_eq m (fun j _ _ => hsame j)
      have hloop := loop_eq m (fun j _ => hsame j)
      simp only [abstract, hshared, hheld, hloop]
    · exact Or.inr (body_simulates hr hk hc hset)

def putCost : Thread Op (Option Bytes) → ℕ
  | .entering _ => 14
  | .inside _ => 13
  | .signalling _ _ => 5
  | .leaving _ _ => 2
  | .waiting _ => 12
  | .notified _ => 14
  | .returned _ _ => 1

def itemCost : Option Bytes → ℕ
  | some _ => 7
  | none => 0

def getCost : Thread Op (Option Bytes) → ℕ
  | .entering _ => 5
  | .inside _ => 4
  | .signalling _ r => 3+itemCost r
  | .leaving _ r => 2+itemCost r
  | .waiting _ => 3
  | .notified _ => 5
  | .returned _ r => 1+itemCost r

def costAt (cost : Thread Op (Option Bytes) → ℕ) (threads : List (Thread Op (Option Bytes)))
    (k : ℕ) : ℕ :=
  (threads[k]?.map cost).getD 0

def callbackCost (threads : List (Thread Op (Option Bytes))) :
    Option (ℕ × Option (List Char)) → ℕ
  | some (k, _) => costAt putCost threads k
  | none => 0

def loopCost (threads : List (Thread Op (Option Bytes))) : Server → ℕ
  | .idle => 6
  | .getting k => costAt getCost threads k
  | .writing _ => 7
  | .returned => 0
  | .stopped => 0

def remaining (s : State) : ℕ :=
  15*s.pending.length+7*s.monitor.shared.items.length+
    callbackCost s.monitor.threads s.putting+loopCost s.monitor.threads s.server

/-- A wake-up without a signal sets its thread back. -/
def setback : Act → ℕ
  | .thread (.wake _) => 3
  | _ => 0

theorem costAt_called {cost : Thread Op (Option Bytes) → ℕ}
    {m : QueueState} {k : ℕ} {o : Op} (h : m.threads[k]?.map Thread.op = some o) (op : Op) :
    costAt cost (called op m).threads k = costAt cost m.threads k := by
  obtain ⟨t, ht, -⟩ := Option.map_eq_some_iff.mp h
  rw [costAt, called, List.getElem?_append_left (List.getElem?_eq_some_iff.mp ht).1]
  rfl

theorem costAt_new (cost : Thread Op (Option Bytes) → ℕ) (op : Op)
    (m : QueueState) :
    costAt cost (called op m).threads m.threads.length = cost (.entering op) := by
  rw [costAt, called, List.getElem?_concat_length]
  rfl

theorem costAt_set {cost : Thread Op (Option Bytes) → ℕ} {ts : List (Thread Op (Option Bytes))}
    {k : ℕ} {x : Thread Op (Option Bytes)} (hk : ts[k]? = some x) (y : Thread Op (Option Bytes)) :
    costAt cost ts k = cost x ∧ costAt cost (ts.set k y) k = cost y ∧
      ∀ j : ℕ, k ≠ j → costAt cost (ts.set k y) j = costAt cost ts j := by
  refine ⟨?_, ?_, fun j hj => ?_⟩
  · rw [costAt, hk]
    rfl
  · rw [costAt, List.getElem?_set_self (List.getElem?_eq_some_iff.mp hk).1]
    rfl
  · rw [costAt, List.getElem?_set_ne hj]
    rfl

/-- A thread that goes on is the callback's or the loop's, and only its cost
changes. -/
theorem cost_move (hr : Roles s) {k : ℕ} {x y : Thread Op (Option Bytes)}
    (hk : s.monitor.threads[k]? = some x) (hx : ∀ op r, x ≠ .returned op r)
    {m : QueueState}
    (hm : m.threads = s.monitor.threads.set k y) :
    ((∃ item, s.putting = some (k, item) ∧ x.op = cppPutOp item) ∧
      callbackCost s.monitor.threads s.putting = putCost x ∧
      callbackCost m.threads s.putting = putCost y ∧
      loopCost m.threads s.server = loopCost s.monitor.threads s.server) ∨
    ((s.server = .getting k ∧ x.op = .get) ∧
      loopCost s.monitor.threads s.server = getCost x ∧ loopCost m.threads s.server = getCost y ∧
      callbackCost m.threads s.putting = callbackCost s.monitor.threads s.putting) := by
  have hop : opOf s k = some x.op := by rw [opOf, hk, Option.map_some]
  rcases hr.others k x hk with ⟨op, r, h⟩ | ⟨item, hp⟩ | hg
  · exact absurd h (hx op r)
  · left
    obtain ⟨hbefore, hafter, -⟩ := costAt_set hk y
    refine ⟨⟨item, hp, Option.some.inj (hop.symm.trans (hr.putting k item hp))⟩, ?_, ?_, ?_⟩
    · simpa only [callbackCost, hp] using hbefore
    · simpa only [callbackCost, hp, hm] using hafter
    · simp only [loopCost, hm]
      cases hg : s.server with
      | getting j => exact (costAt_set hk y).2.2 j (fun h => hr.apart hp (h ▸ hg))
      | _ => rfl
  · right
    obtain ⟨hbefore, hafter, -⟩ := costAt_set hk y
    refine ⟨⟨hg, Option.some.inj (hop.symm.trans (hr.getting k hg))⟩, ?_, ?_, ?_⟩
    · simpa only [loopCost, hg] using hbefore
    · simpa only [loopCost, hg, hm] using hafter
    · simp only [callbackCost, hm]
      cases hp : s.putting with
      | some p => exact (costAt_set hk y).2.2 p.1 (fun h => hr.apart hp (h ▸ hg))
      | none => rfl

/-- A waiter that is notified may take two steps more. -/
theorem notified_cost {signal : Signal} {waiter : ℕ} {ts ts' : List (Thread Op (Option Bytes))}
    (h : notify signal waiter ts = some ts') (k : ℕ) :
    costAt getCost ts' k ≤ costAt getCost ts k+2 := by
  cases hk : ts[k]? with
  | none =>
    have hlen : ts'.length = ts.length := by
      have hmap := congrArg List.length (notify_map (f := fun _ => ()) (fun _ => rfl) h)
      rwa [List.length_map, List.length_map] at hmap
    have hnone : ts'[k]? = none :=
      List.getElem?_eq_none (hlen.symm ▸ List.getElem?_eq_none_iff.mp hk)
    simp only [costAt, hnone, Option.map_none, Option.getD_none]
    omega
  | some x =>
    rcases notify_getElem? h hk with h' | ⟨op, -, rfl, h'⟩
    · simp only [costAt, hk, h']
      omega
    · simp only [costAt, hk, h', Option.map_some, Option.getD_some, getCost]
      omega

theorem move_remaining (hr : Roles s) {m : QueueState}
    {k c : ℕ} {x y : Thread Op (Option Bytes)} (hk : s.monitor.threads[k]? = some x)
    (hx : ∀ op r, x ≠ .returned op r) (hm : m.threads = s.monitor.threads.set k y)
    (hshared : m.shared = s.monitor.shared) (hput : putCost y+1 ≤ putCost x+c)
    (hget : getCost y+1 ≤ getCost x+c) :
    remaining { s with monitor := m }+1 ≤ remaining s+c := by
  simp only [remaining, hshared]
  rcases cost_move hr hk hx hm with ⟨-, h, h', h''⟩ | ⟨-, h, h', h''⟩ <;> omega

theorem run_remaining (hr : Roles s) {m : QueueState}
    {k : ℕ} {op : Op} {r : Option Bytes} (hk : s.monitor.threads[k]? = some (.inside op))
    (hc : queueObject.call op s.monitor.shared = some (r, m.shared))
    (hm : m.threads = s.monitor.threads.set k (.signalling op r)) :
    remaining { s with monitor := m }+1 ≤ remaining s := by
  rcases cost_move hr hk (fun _ _ => (nomatch ·)) hm with
    ⟨⟨item, -, hop⟩, hbefore, hafter, hserver⟩ | ⟨⟨-, hop⟩, hbefore, hafter, hput⟩
  · obtain rfl : op = cppPutOp item := hop
    rw [call_put] at hc
    obtain ⟨-, hshared⟩ := Prod.mk.inj (Option.some.inj hc)
    have hlen := ClosedQueue.cppPut_length s.monitor.shared item
    rw [hshared] at hlen
    simp only [putCost] at hbefore hafter
    simp only [remaining]
    omega
  · obtain rfl : op = .get := hop
    simp only [getCost] at hbefore hafter
    simp only [remaining]
    cases r with
    | none =>
      obtain ⟨hshared, -, -⟩ := get_end hc
      simp only [itemCost] at hafter
      rw [hshared]
      omega
    | some item =>
      obtain ⟨hitems, -⟩ := get_item hc
      simp only [itemCost] at hafter
      rw [hitems, List.length_cons]
      omega

/-- A `get` notifies no thread; a call of the callback, at most that of the
loop. -/
theorem signal_remaining (hr : Roles s) {m : QueueState}
    {k waiter : ℕ} {op : Op} {r : Option Bytes}
    (hk : s.monitor.threads[k]? = some (.signalling op r)) (hshared : m.shared = s.monitor.shared)
    (hn : notify (queueObject.signal op) waiter (s.monitor.threads.set k (.leaving op r)) =
      some m.threads) : remaining { s with monitor := m }+1 ≤ remaining s := by
  have hx : ∀ op' r', Thread.signalling op r ≠ .returned op' r' := fun _ _ => (nomatch ·)
  obtain ⟨m', hm'⟩ : ∃ m' : QueueState,
      m'.threads = s.monitor.threads.set k (.leaving op r) := ⟨{ s.monitor with threads := _ }, rfl⟩
  rw [← hm'] at hn
  simp only [remaining, hshared]
  rcases cost_move hr hk hx hm' with
    ⟨⟨item, hp, -⟩, hbefore, -, hserver⟩ | ⟨⟨-, hop⟩, hbefore, -, -⟩
  · have hself : m.threads[k]? = some (.leaving op r) := by
      have hset : m'.threads[k]? = some (.leaving op r) :=
        hm' ▸ List.getElem?_set_self (List.getElem?_eq_some_iff.mp hk).1
      rcases notify_getElem? hn hset with h | ⟨_, -, h, -⟩
      · exact h
      · cases h
    have hput : callbackCost m.threads s.putting = 2 := by
      simp only [callbackCost, hp, costAt, hself]
      rfl
    have hnotified : loopCost m.threads s.server ≤
        loopCost m'.threads s.server+2 := by
      cases hg : s.server with
      | getting j => exact notified_cost hn j
      | _ => exact Nat.le_add_right _ _
    simp only [putCost] at hbefore
    omega
  · obtain rfl : op = .get := hop
    have hthreads : m.threads = m'.threads := (Option.some.inj hn).symm
    rcases cost_move hr hk hx (hthreads.trans hm') with
      ⟨⟨item, -, h⟩, -⟩ | ⟨-, -, hafter', hput'⟩
    · exact absurd h.symm (cppPutOp_ne_get item)
    · simp only [getCost] at hbefore hafter'
      omega

theorem thread_remaining (hr : Roles s) {a : Monitor.Act Op}
    {m : QueueState} (ha : ∀ op, a ≠ .call op)
    (hs : Monitor.step queueObject s.monitor a = some m) :
    remaining { s with monitor := m }+1 ≤ remaining s+setback (.thread a) := by
  cases step_cases hs with
  | call op => exact absurd rfl (ha op)
  | enter k op hl hk =>
    exact move_remaining hr hk (fun _ _ => (nomatch ·)) rfl rfl (Nat.le_refl _) (Nat.le_refl _)
  | reenter k op hl hk =>
    exact move_remaining hr hk (fun _ _ => (nomatch ·)) rfl rfl (Nat.le_refl _) (Nat.le_refl _)
  | run k op r shared hk hc => exact run_remaining hr hk hc rfl
  | wait k op hk hc =>
    exact move_remaining hr hk (fun _ _ => (nomatch ·)) rfl rfl (Nat.le_refl _) (Nat.le_refl _)
  | signal k waiter op r threads hk hn => exact signal_remaining hr hk rfl hn
  | unlock k op r hk =>
    refine move_remaining hr hk (fun _ _ => (nomatch ·)) rfl rfl (Nat.le_refl _) ?_
    simp only [getCost, setback]
    omega
  | wake k op hk =>
    exact move_remaining hr hk (fun _ _ => (nomatch ·)) rfl rfl (Nat.le_refl _) (Nat.le_refl _)

theorem step_remaining (s : State) (a : Act) (s' : State) (hr : Roles s) (hs : step s a = some s') :
    remaining s'+1 ≤ remaining s+setback a := by
  cases a with
  | put =>
    obtain ⟨item, pending, hp, hpend, rfl⟩ := step_put hs
    have hput : callbackCost (called (cppPutOp item) s.monitor).threads
        (some (s.monitor.threads.length, item)) = 14 := costAt_new putCost _ _
    have hloop : loopCost (called (cppPutOp item) s.monitor).threads s.server =
        loopCost s.monitor.threads s.server := by
      cases hg : s.server with
      | getting k => exact costAt_called (hr.getting k hg) _
      | _ => rfl
    have hshared : (called (cppPutOp item) s.monitor).shared = s.monitor.shared := rfl
    simp only [remaining, hput, hloop, hshared, hpend, List.length_cons]
    omega
  | putReturned =>
    obtain ⟨k, item, op, r, hp, ht, rfl⟩ := step_putReturned hs
    have hbefore : callbackCost s.monitor.threads s.putting = 1 := by
      simp only [hp, callbackCost, costAt, ht]
      rfl
    have hafter : callbackCost s.monitor.threads none = 0 := rfl
    simp only [remaining, hbefore, hafter]
    omega
  | get =>
    obtain ⟨hidle, rfl⟩ := step_get hs
    have hget : loopCost (called .get s.monitor).threads (.getting s.monitor.threads.length) = 5 :=
      costAt_new getCost _ _
    have hbefore : loopCost s.monitor.threads s.server = 6 := by rw [hidle, loopCost]
    have hput : callbackCost (called .get s.monitor).threads s.putting =
        callbackCost s.monitor.threads s.putting := by
      cases hp : s.putting with
      | some p => exact costAt_called (hr.putting p.1 p.2 hp) _
      | none => rfl
    have hshared : (called .get s.monitor).shared = s.monitor.shared := rfl
    simp only [remaining, hget, hput, hshared, hbefore]
    omega
  | getReturned =>
    obtain ⟨k, op, r, hg, ht, rfl⟩ := step_getReturned hs
    have hbefore : loopCost s.monitor.threads s.server = 1+itemCost r := by
      simp only [hg, loopCost, costAt, ht]
      rfl
    simp only [remaining, hbefore]
    cases r <;> simp only [itemCost, loopCost] <;> omega
  | write accepted =>
    obtain ⟨item, hw, rfl⟩ := step_write hs
    have hbefore : loopCost s.monitor.threads s.server = 7 := by rw [hw, loopCost]
    have hidle : loopCost s.monitor.threads .idle = 6 := rfl
    have hstopped : loopCost s.monitor.threads .stopped = 0 := rfl
    cases accepted <;> simp only [remaining, hbefore, hidle, hstopped, if_true, Bool.false_eq_true,
      if_false] <;> omega
  | thread a =>
    obtain ⟨hcall, m, hm, rfl⟩ := step_thread hs
    exact thread_remaining hr hcall hm

theorem start_reaches {as : List Act} {items : List (Option (List Char))}
    (hr : Runs.exec step as (start items) = some s) :
    ∃ bs, Runs.exec (Monitor.step queueObject) bs (Monitor.initial ⟨[], false⟩) =
      some s.monitor := by
  refine Runs.exec_invariant (P := fun s => ∃ bs,
    Runs.exec (Monitor.step queueObject) bs (Monitor.initial ⟨[], false⟩) = some s.monitor)
    (fun s a s' ⟨bs, h⟩ hs => ?_) ⟨[], rfl⟩ hr
  cases a with
  | put =>
    obtain ⟨item, pending, -, -, rfl⟩ := step_put hs
    exact ⟨bs ++ [.call (cppPutOp item)], Runs.exec_snoc.mpr ⟨_, h, rfl⟩⟩
  | putReturned =>
    obtain ⟨k, item, op, r, -, -, rfl⟩ := step_putReturned hs
    exact ⟨bs, h⟩
  | get =>
    obtain ⟨-, rfl⟩ := step_get hs
    exact ⟨bs ++ [.call .get], Runs.exec_snoc.mpr ⟨_, h, rfl⟩⟩
  | getReturned =>
    obtain ⟨k, op, r, -, -, rfl⟩ := step_getReturned hs
    exact ⟨bs, h⟩
  | write accepted =>
    obtain ⟨item, -, rfl⟩ := step_write hs
    cases accepted <;> exact ⟨bs, h⟩
  | thread a =>
    obtain ⟨-, m, hm, rfl⟩ := step_thread hs
    exact ⟨bs ++ [a], Runs.exec_snoc.mpr ⟨_, h, hm⟩⟩

def Stuck (s : State) : Prop :=
  ∀ a, (∀ k, a ≠ .thread (.wake k)) → step s a = none

/-- The call of the loop waits, or the loop is over; the callback has made all
its calls. -/
theorem Stuck.rests (hr : Roles s) {bs : List (Monitor.Act Op)}
    (hm : Runs.exec (Monitor.step queueObject) bs (Monitor.initial ⟨[], false⟩) = some s.monitor)
    (hstuck : Stuck s) : s.putting = none ∧ s.pending = [] ∧
      ((∃ k, s.server = .getting k ∧ s.monitor.threads[k]? = some (.waiting .get) ∧
        s.monitor.shared.get = none) ∨ s.server = .returned ∨ s.server = .stopped) := by
  have hown : ∀ a, own a = true → Monitor.step queueObject s.monitor a = none := by
    intro a ha
    have hs := hstuck (.thread a) (by rintro k ⟨⟩; cases ha)
    have hcall : isCall a = false := by cases a <;> first | rfl | cases ha
    simpa [step, hcall] using hs
  obtain ⟨hsettled, hwaits⟩ := stuck_settled discipline hm hown
  -- A call of either role waits or has returned.
  have hrole : ∀ k op, opOf s k = some op → (∃ r, s.value k = some r) ∨
      (s.monitor.threads[k]? = some (.waiting op) ∧
        queueObject.call op s.monitor.shared = none) := by
    intro k op hop
    obtain ⟨t, ht, rfl⟩ := Option.map_eq_some_iff.mp hop
    have hset := hsettled t (List.mem_of_getElem? ht)
    cases t with
    | waiting op => exact Or.inr ⟨ht, hwaits op (List.mem_of_getElem? ht)⟩
    | returned op r => exact Or.inl ⟨r, by simp [State.value, ht]⟩
    | _ => cases hset
  have hput : s.putting = none := by
    cases hp : s.putting with
    | none => rfl
    | some p =>
      rcases hrole p.1 _ (hr.putting p.1 p.2 hp) with ⟨r, hv⟩ | ⟨-, hc⟩
      · have hs := hstuck .putReturned (fun _ => (nomatch ·))
        simp [step, hp, hv] at hs
      · rw [call_put] at hc
        cases hc
  have hpend : s.pending = [] := by
    cases hp : s.pending with
    | nil => rfl
    | cons item pending =>
      have hs := hstuck .put (fun _ => (nomatch ·))
      simp [step, hput, hp] at hs
  refine ⟨hput, hpend, ?_⟩
  cases hg : s.server with
  | idle =>
    have hs := hstuck .get (fun _ => (nomatch ·))
    simp [step, hg] at hs
  | getting k =>
    rcases hrole k _ (hr.getting k hg) with ⟨r, hv⟩ | ⟨ht, hc⟩
    · have hs := hstuck .getReturned (fun _ => (nomatch ·))
      simp [step, hg, hv] at hs
    · exact Or.inl ⟨k, rfl, ht, hc⟩
  | writing item =>
    have hs := hstuck (.write true) (fun _ => (nomatch ·))
    simp [step, hg] at hs
  | returned => exact Or.inr (Or.inl rfl)
  | stopped => exact Or.inr (Or.inr rfl)

theorem loop_waiting {k : ℕ} (hg : s.server = .getting k)
    (ht : s.monitor.threads[k]? = some (.waiting .get)) : s.loop = .getting := by
  simp [State.loop, hg, outcome, ht, Thread.outcome]

theorem Stuck.abstract_rests (hr : Roles s) {bs : List (Monitor.Act Op)}
    (hm : Runs.exec (Monitor.step queueObject) bs (Monitor.initial ⟨[], false⟩) = some s.monitor)
    (hstuck : Stuck s) (b : ClosedQueue.Act) : ClosedQueue.step (abstract s) b = none := by
  obtain ⟨hput, hpend, hloop⟩ := hstuck.rests hr hm
  have hloop' : (s.loop = .getting ∧ s.monitor.shared.get = none) ∨ s.loop = .returned ∨
      s.loop = .stopped := by
    rcases hloop with ⟨k, hg, ht, hq⟩ | hg | hg
    · exact Or.inl ⟨loop_waiting hg ht, hq⟩
    · exact Or.inr (Or.inl (by simp [State.loop, hg]))
    · exact Or.inr (Or.inr (by simp [State.loop, hg]))
  cases b with
  | put => simp [ClosedQueue.step, abstract, State.held, hput, hpend]
  | get =>
    rcases hloop' with ⟨hl, hq⟩ | hl | hl
    · simp [ClosedQueue.step, abstract, hl, hq]
    · simp [ClosedQueue.step, abstract, hl]
    · simp [ClosedQueue.step, abstract, hl]
  | write accepted =>
    rcases hloop' with ⟨hl, -⟩ | hl | hl <;> simp [ClosedQueue.step, abstract, hl]

/-- The threads make the calls of a run in which every call is one step. -/
theorem run_refines {items : List (Option (List Char))} {as : List Act}
    (hr : Runs.exec step as (start items) = some s) :
    ∃ bs, Runs.exec ClosedQueue.step bs (ClosedQueue.start items) = some (abstract s) := by
  have hinv := Runs.exec_invariant (P := fun s => Roles s ∧ ∃ bs,
    Runs.exec ClosedQueue.step bs (ClosedQueue.start items) = some (abstract s))
    (fun s a s' ⟨hroles, bs, h⟩ hs => ?_) ⟨start_roles items, [], rfl⟩ hr
  · exact hinv.2
  · refine ⟨step_roles s a s' hroles hs, ?_⟩
    rcases step_simulates hroles hs with he | ⟨b, hb⟩
    · exact ⟨bs, he ▸ h⟩
    · exact ⟨bs ++ [b], Runs.exec_snoc.mpr ⟨_, h, hb⟩⟩

end

def Generates (m : ReplicaManager.Manager) (prompt : List Char) (requestId : String) : Prop :=
  ∃ engine outputs ending, m.engine = some engine ∧
    engine (ClosedQueue.formatted prompt) ReplicaManager.samplingParams requestId =
      .yields outputs ending

def itemsOf (m : ReplicaManager.Manager) (prompt : List Char) (requestId : String) :
    List (Option (List Char)) :=
  ReplicaManager.produced m (ClosedQueue.formatted prompt) requestId

/-- The steps of the threads make up a run of the calls and are bounded but
for wake-ups without a signal. When no thread can go on, a request that was
generated has been answered with every text, unless a reply was refused, and
any other waits in its first `get` for ever. -/
structure Threaded (m : ReplicaManager.Manager) (prompt : List Char) (requestId : String)
    (as : List Act) (s : State) : Prop where
  refines : ∃ bs, Runs.exec ClosedQueue.step bs (ClosedQueue.start (itemsOf m prompt requestId)) =
    some (abstract s)
  bounded : as.length ≤ 15*(itemsOf m prompt requestId).length+6+(as.map setback).sum
  answers : Stuck s → Generates m prompt requestId → s.monitor.shared.closed = true ∧
    (s.server = .stopped ∨ (s.server = .returned ∧ s.replies =
      ((itemsOf m prompt requestId).filterMap id).map (fun text => reply (utf8 text))))
  waits : Stuck s → ¬ Generates m prompt requestId → s.replies = [] ∧
    s.monitor.shared = ⟨[], false⟩ ∧
      ∃ k, s.server = .getting k ∧ s.monitor.threads[k]? = some (.waiting .get)

theorem request_threads (m : ReplicaManager.Manager) (prompt : List Char) (requestId : String)
    (as : List Act) (s : State)
    (hr : Runs.exec step as (start (itemsOf m prompt requestId)) = some s) :
    Threaded m prompt requestId as s := by
  have hroles := Runs.exec_invariant step_roles (start_roles _) hr
  obtain ⟨bs, hbs⟩ := run_refines hr
  obtain ⟨ms, hms⟩ := start_reaches hr
  refine ⟨⟨bs, hbs⟩, ?_, fun hstuck hgen => ?_, fun hstuck hgen => ?_⟩
  · have hle := Runs.exec_length_le_cost step_roles step_remaining (start_roles _) hr
    have hstart : remaining (start (itemsOf m prompt requestId)) =
        15*(itemsOf m prompt requestId).length+6 := rfl
    omega
  · have hrests := hstuck.abstract_rests hroles hms
    obtain ⟨engine, outputs, ending, he, hg⟩ := hgen
    obtain ⟨texts, htexts⟩ := ReplicaManager.produced_yields he hg
    have hclosed : ClosedQueue.QueueClosed (itemsOf m prompt requestId) := by
      rw [itemsOf, htexts]
      exact ClosedQueue.queueClosed_of_sentinel texts
    obtain ⟨hc, hend⟩ := hclosed.ends bs (abstract s) hbs hrests
    refine ⟨hc, ?_⟩
    obtain ⟨-, -, hloop⟩ := hstuck.rests hroles hms
    rcases hloop with ⟨k, hg, ht, -⟩ | hret | hstop
    · have hl : (abstract s).server = .getting := loop_waiting hg ht
      cases hl.symm.trans (hend (by simp [hl])).1
    · have hl : (abstract s).server = .returned := by simp [abstract, State.loop, hret]
      exact Or.inr ⟨hret, (hend (by simp [hl])).2⟩
    · exact Or.inl hstop
  · have hnil : itemsOf m prompt requestId = [] := by
      cases he : m.engine with
      | none => exact ReplicaManager.produced_unbuilt he _ _
      | some engine =>
        cases hg : engine (ClosedQueue.formatted prompt) ReplicaManager.samplingParams
            requestId with
        | raises e => exact ReplicaManager.produced_raises he hg
        | yields outputs ending => exact absurd ⟨engine, outputs, ending, he, hg⟩ hgen
    rw [hnil] at hbs
    have habs : abstract s = ClosedQueue.start [] := ClosedQueue.unput_waits hbs
    have hl : s.loop = .getting := congrArg ClosedQueue.State.server habs
    obtain ⟨-, -, hloop⟩ := hstuck.rests hroles hms
    refine ⟨congrArg ClosedQueue.State.replies habs, congrArg ClosedQueue.State.queue habs, ?_⟩
    rcases hloop with ⟨k, hg, ht, -⟩ | hret | hstop
    · exact ⟨k, hg, ht⟩
    · simp [State.loop, hret] at hl
    · simp [State.loop, hstop] at hl

def onePiece : ReplicaManager.Manager :=
  ⟨"/v1/chat/tinyllama", 1, 9000, "TinyLlama/TinyLlama-1.1B-Chat-v1.0",
    some (fun _ _ _ => .yields [some ['H', 'i']] none)⟩

def onePieceRun : List Act :=
  [.get, .thread (.lock 0), .thread (.body 0), .thread (.wake 0), .thread (.lock 0),
    .thread (.body 0), .put, .thread (.lock 1), .thread (.body 1), .thread (.signal 1 0),
    .thread (.unlock 1), .putReturned, .thread (.lock 0), .thread (.body 0),
    .thread (.signal 0 0), .put, .thread (.unlock 0), .getReturned, .write true,
    .thread (.lock 2), .thread (.body 2), .thread (.signal 2 0), .thread (.unlock 2), .get,
    .thread (.lock 3), .thread (.body 3), .thread (.signal 3 0), .thread (.unlock 3),
    .putReturned, .getReturned]

theorem request_threads_sample : ∃ s,
    Runs.exec step onePieceRun (start (itemsOf onePiece ['h'] "request")) = some s ∧
      s.server = .returned ∧ s.replies = [reply [72, 105]] ∧
      Threaded onePiece ['h'] "request" onePieceRun s :=
  ⟨_, rfl, rfl, rfl, request_threads onePiece ['h'] "request" onePieceRun _ rfl⟩

end ServingSystem.ReplicaThreads
