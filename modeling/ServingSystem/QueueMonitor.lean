import ServingSystem.ClosedQueue
import ServingSystem.Monitor

/-!
# The queue of a replica at its lock

`ThreadSafeQueue` with its mutex and its condition variable: `put` signals one
waiter, `close` signals all, and `get` waits while the queue is open and
empty. Any number of threads call it.
-/

set_option autoImplicit false

namespace ServingSystem.QueueMonitor
open Monitor TokenPipeline Proxy Proxy.HttpSession

inductive Op where
  | put (val : Bytes)
  | get
  | close
  deriving DecidableEq, Repr

def queueObject : Object ThreadSafeQueue Op (Option Bytes) where
  call
    | .put val, q => some (none, q.put val)
    | .get, q => q.get
    | .close, q => some (none, q.close)
  signal
    | .put _ => .one
    | .get => .none
    | .close => .all

/-- A closed queue answers every `get`. -/
def avail (q : ThreadSafeQueue) : ℕ∞ := if q.closed then ⊤ else q.items.length

def blocking : Op → Bool
  | .get => true
  | _ => false

theorem get_none {q : ThreadSafeQueue} : q.get = none ↔ avail q = 0 := by
  obtain ⟨items, closed⟩ := q
  cases items with
  | nil => cases closed <;> simp [ThreadSafeQueue.get, avail]
  | cons i items => cases closed <;> simp [ThreadSafeQueue.get, avail]

theorem get_takes {q q' : ThreadSafeQueue} {r : Option Bytes} (h : q.get = some (r, q')) :
    avail q'+1 ≤ avail q := by
  cases r with
  | none =>
    obtain ⟨rfl, -, hc⟩ := get_end h
    simp [avail, hc]
  | some item =>
    obtain ⟨hi, hc⟩ := get_item h
    cases hq : q.closed <;> simp [avail, hc, hq, hi]

def discipline : Discipline queueObject where
  avail := avail
  blocking := blocking
  waits op q := by
    cases op with
    | get => exact get_none.trans (by simp [blocking])
    | put val => simp [queueObject, blocking]
    | close => simp [queueObject, blocking]
  takes op q r q' hb h := by
    cases op with
    | get => exact get_takes h
    | put val => cases hb
    | close => cases hb
  gives op q r q' hb h hall := by
    cases op with
    | get => cases hb
    | close => exact absurd rfl hall
    | put val =>
      obtain ⟨-, rfl⟩ := Prod.mk.inj (Option.some.inj h)
      cases hc : q.closed <;> simp [avail, ThreadSafeQueue.put, hc, queueObject]

def puts (log : List (Op × Option Bytes)) : List Bytes :=
  log.filterMap (fun e => match e.1 with
    | .put val => some val
    | _ => none)

def gots (log : List (Op × Option Bytes)) : List Bytes :=
  log.filterMap (fun e => match e.1 with
    | .get => e.2
    | _ => none)

theorem replay_fifo {log : List (Op × Option Bytes)} {q q' : ThreadSafeQueue}
    (h : replay queueObject log q = some q') :
    q.items ++ puts log = gots log ++ q'.items ∧
      (q'.closed = true ↔ q.closed = true ∨ ∃ r, (.close, r) ∈ log) := by
  induction log generalizing q with
  | nil =>
    obtain rfl := Option.some.inj h
    simp [puts, gots]
  | cons e log ih =>
    obtain ⟨op, r⟩ := e
    obtain ⟨out, hout, h⟩ := Option.bind_eq_some_iff.mp h
    obtain ⟨hr, hrest⟩ := Option.ite_none_right_eq_some.mp h
    subst hr
    obtain ⟨hflow, hclosed⟩ := ih hrest
    cases op with
    | put val =>
      obtain rfl := Option.some.inj hout
      refine ⟨?_, ?_⟩
      · simpa [puts, gots, ThreadSafeQueue.put] using hflow
      · simpa [ThreadSafeQueue.put] using hclosed
    | close =>
      obtain rfl := Option.some.inj hout
      have hc : q'.closed = true := hclosed.mpr (Or.inl rfl)
      refine ⟨?_, ?_⟩
      · simpa [puts, gots, ThreadSafeQueue.close] using hflow
      · exact ⟨fun _ => Or.inr ⟨_, List.mem_cons_self ..⟩, fun _ => hc⟩
    | get =>
      obtain ⟨r, q₁⟩ := out
      cases r with
      | none =>
        obtain ⟨rfl, -, -⟩ := get_end hout
        refine ⟨?_, ?_⟩
        · simpa [puts, gots] using hflow
        · simpa using hclosed
      | some item =>
        obtain ⟨hi, hq⟩ := get_item hout
        refine ⟨?_, ?_⟩
        · rw [hi]
          simpa [puts, gots] using hflow
        · simpa [hq] using hclosed

/-- The calls that have changed the queue did so in one order: made one after
the other in it they have the same results and leave the same queue. The
values come out as they went in, and a `get` ends only after a `close`, with
nothing left. When no thread can go on, only `get`s of an open, empty queue
have not returned. -/
structure Delivers (s : Monitor.State ThreadSafeQueue Op (Option Bytes)) : Prop where
  once : (s.threads.filterMap Thread.outcome).Perm s.log
  replayed : replay queueObject s.log ⟨[], false⟩ = some s.shared
  fifo : puts s.log = gots s.log ++ s.shared.items
  ended : ∀ before after, s.log = before ++ (.get, none)::after →
    replay queueObject before ⟨[], false⟩ = some ⟨[], true⟩ ∧
      (∃ r, (.close, r) ∈ before) ∧ gots before = puts before
  awake : (∀ a, own a = true → step queueObject s a = none) → ∀ t ∈ s.threads,
    (∃ op r, t = .returned op r) ∨
      (t = .waiting .get ∧ s.shared.items = [] ∧ s.shared.closed = false)

/-- A `get` that returns nothing found the queue closed and empty. -/
theorem replay_ended {before after : List (Op × Option Bytes)} {q : ThreadSafeQueue}
    (h : replay queueObject (before ++ (.get, none)::after) ⟨[], false⟩ = some q) :
    replay queueObject before ⟨[], false⟩ = some ⟨[], true⟩ ∧
      (∃ r, (.close, r) ∈ before) ∧ gots before = puts before := by
  rw [replay_append] at h
  obtain ⟨q₁, hbefore, h⟩ := Option.bind_eq_some_iff.mp h
  obtain ⟨⟨r, q₂⟩, hget, h⟩ := Option.bind_eq_some_iff.mp h
  obtain ⟨rfl, -⟩ := Option.ite_none_right_eq_some.mp h
  obtain ⟨-, hitems, hclosed⟩ := get_end hget
  obtain ⟨hflow, hclose⟩ := replay_fifo hbefore
  refine ⟨?_, (hclose.mp hclosed).resolve_left Bool.false_ne_true, ?_⟩
  · rw [hbefore, ← hitems, ← hclosed]
  · rw [hitems, List.append_nil] at hflow
    exact hflow.symm

/-- For any number of threads, in any order of their steps and with any
wake-ups without a signal. -/
theorem queue_delivers (as : List (Monitor.Act Op))
    (s : Monitor.State ThreadSafeQueue Op (Option Bytes))
    (hr : Runs.exec (step queueObject) as (Monitor.initial ⟨[], false⟩) = some s) :
    Delivers s := by
  have hserial := reachable_serial hr
  have hreplayed := hserial.replayed
  refine ⟨hserial.logged, hreplayed, (replay_fifo hreplayed).1, fun before after he => ?_,
    fun hstuck t ht => ?_⟩
  · rw [he] at hreplayed
    exact replay_ended hreplayed
  · obtain ⟨hsettled, hwaits⟩ := stuck_settled discipline hr hstuck
    have hset := hsettled t ht
    cases t with
    | returned op r => exact Or.inl ⟨op, r, rfl⟩
    | waiting op =>
      have hcall := hwaits op ht
      cases op with
      | get =>
        refine Or.inr ⟨rfl, ?_⟩
        have hzero : avail s.shared = 0 := get_none.mp hcall
        cases hc : s.shared.closed <;> simp [avail, hc] at hzero
        exact ⟨hzero, rfl⟩
      | put val => cases hcall
      | close => cases hcall
    | _ => cases hset

def twoReaders : List (Monitor.Act Op) :=
  [.call .get, .call .get, .lock 0, .body 0, .lock 1, .body 1, .call (.put [104]), .lock 2,
    .body 2, .signal 2 0, .unlock 2, .wake 1, .lock 0, .body 0, .signal 0 0, .unlock 0, .lock 1,
    .body 1, .call .close, .lock 3, .body 3, .signal 3 0, .unlock 3, .lock 1, .body 1, .signal 1 0,
    .unlock 1]

theorem queue_delivers_sample : ∃ s,
    Runs.exec (step queueObject) twoReaders (Monitor.initial ⟨[], false⟩) = some s ∧
    s.threads = [.returned .get (some [104]), .returned .get none, .returned (.put [104]) none,
      .returned .close none] ∧ Delivers s :=
  ⟨_, rfl, rfl, queue_delivers twoReaders _ rfl⟩

end ServingSystem.QueueMonitor
