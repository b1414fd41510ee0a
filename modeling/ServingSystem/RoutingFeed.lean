import ServingSystem.Positions
import ServingSystem.Protos
import ServingSystem.Runs

/-!
# Publication of routing snapshots

The part of `HeadController` that hands routing snapshots to the proxies:
`_on_deployment_change` and the `SubscribeToRoutingUpdates` streams. A task
of the event loop runs until it suspends, which a stream does in `yield` and
in `wait()`; acquiring an uncontended lock does not suspend, so each
publication is one step. The list of published snapshots is never read.
-/

set_option autoImplicit false

namespace ServingSystem.Head.RoutingFeed
open Protos Positions

/-- A subscription stream at its suspension points, with the local variables
that are live there. A woken stream has its `wait()` resolved but has not run
since. -/
inductive Stream where
  | yieldingInitial (snapshot : RoutingUpdate)
  | waiting (last : RoutingUpdate)
  | woken (last : RoutingUpdate)
  | yielding (last snapshot : RoutingUpdate)
  | ended

structure Feed where
  latestRoutingSnapshot : Option RoutingUpdate
  routingUpdateEvent : Bool
  streams : List Stream
  clock : ℕ
  published : List RoutingUpdate

def initial (clock : ℕ) : Feed := ⟨none, false, [], clock, []⟩

def wake : Stream → Stream
  | .waiting last => .woken last
  | s => s

def setEvent (f : Feed) : Feed :=
  { f with routingUpdateEvent := true, streams := f.streams.map wake }

def clearEvent (f : Feed) : Feed := { f with routingUpdateEvent := false }

def onDeploymentChange (f : Feed) (newSnapshot : RoutingUpdate) : Feed :=
  clearEvent (setEvent
    { f with
      latestRoutingSnapshot := some newSnapshot
      clock := newSnapshot.timestampNs
      published := f.published ++ [newSnapshot] })

def subscribe (f : Feed) (initialSnapshot : RoutingUpdate) : Feed :=
  { f with
    latestRoutingSnapshot := some initialSnapshot
    clock := initialSnapshot.timestampNs
    streams := f.streams ++ [.yieldingInitial initialSnapshot] }

def wait (f : Feed) (last : RoutingUpdate) : Stream :=
  if f.routingUpdateEvent then .woken last else .waiting last

def advance (f : Feed) : Stream → Option Stream
  | .yieldingInitial snapshot => some (wait f snapshot)
  | .yielding _ snapshot => some (wait f snapshot)
  | .woken last =>
    match f.latestRoutingSnapshot with
    | some newSnapshot =>
      if newSnapshot.timestampNs > last.timestampNs then some (.yielding last newSnapshot)
      else some (wait f last)
    | none => some (wait f last)
  | .waiting _ => none
  | .ended => none

inductive Act where
  | publish (newSnapshot : RoutingUpdate)
  | subscribe (initialSnapshot : RoutingUpdate)
  | resume (stream : ℕ)
  | cancel (stream : ℕ)

def step (f : Feed) : Act → Option Feed
  | .publish newSnapshot =>
    if f.clock < newSnapshot.timestampNs then some (onDeploymentChange f newSnapshot) else none
  | .subscribe initialSnapshot =>
    if f.clock < initialSnapshot.timestampNs then some (subscribe f initialSnapshot) else none
  | .resume k =>
    (f.streams[k]?.bind (advance f)).map (fun s => { f with streams := f.streams.set k s })
  | .cancel k =>
    if k < f.streams.length then some { f with streams := f.streams.set k .ended } else none

/-- Every stream parked in `wait()` has last yielded the latest published
snapshot, or its own initial snapshot taken after that publication. -/
def UpToDate (f : Feed) : Prop :=
  ∀ last, .waiting last ∈ f.streams → ∀ p, f.published.getLast? = some p →
    last = p ∨ p.timestampNs < last.timestampNs

def Stream.Yielding : Stream → Prop
  | .yieldingInitial _ => True
  | .yielding _ _ => True
  | _ => False

/-- A publication finds no stream suspended in a `yield`. -/
def PublishedToWaiters (f : Feed) : Act → Prop
  | .publish _ => ∀ s ∈ f.streams, ¬ s.Yielding
  | _ => True

def Stream.snapshots : Stream → List RoutingUpdate
  | .yieldingInitial snapshot => [snapshot]
  | .waiting last => [last]
  | .woken last => [last]
  | .yielding last snapshot => [last, snapshot]
  | .ended => []

def Stream.delivered : Stream → Option RoutingUpdate
  | .yieldingInitial snapshot => some snapshot
  | .waiting last => some last
  | .yielding _ snapshot => some snapshot
  | _ => none

def snapshots (f : Feed) : List RoutingUpdate :=
  f.latestRoutingSnapshot.toList ++ f.streams.flatMap Stream.snapshots ++ f.published

def Covers (f : Feed) (x : RoutingUpdate) : Prop :=
  ∀ p ∈ f.published, p.timestampNs ≤ x.timestampNs

structure Inv (f : Feed) : Prop where
  event_clear : f.routingUpdateEvent = false
  stamped : ∀ x ∈ snapshots f, x.timestampNs ≤ f.clock
  identified : ∀ x ∈ snapshots f, ∀ y ∈ snapshots f, x.timestampNs = y.timestampNs → x = y
  latest : ∀ n, f.latestRoutingSnapshot = some n → Covers f n
  subscribed : f.streams ≠ [] → f.latestRoutingSnapshot ≠ none

def Fresh (f : Feed) : Prop := ∀ s ∈ f.streams, ∀ x, s.delivered = some x → Covers f x

theorem initial_inv (clock : ℕ) : Inv (initial clock) := by
  constructor <;> simp [initial, snapshots]

theorem snapshots_wake (s : Stream) : (wake s).snapshots = s.snapshots := by
  cases s <;> rfl

theorem inv_of_subset {f g : Feed} (hi : Inv f) (hc : g.clock = f.clock)
    (he : g.routingUpdateEvent = f.routingUpdateEvent)
    (hl : g.latestRoutingSnapshot = f.latestRoutingSnapshot)
    (hp : g.published = f.published) (hs : g.streams ≠ [] → f.streams ≠ [])
    (hsub : ∀ x ∈ snapshots g, x ∈ snapshots f) : Inv g where
  event_clear := he.trans hi.event_clear
  stamped x hx := hc ▸ hi.stamped x (hsub x hx)
  identified x hx y hy := hi.identified x (hsub x hx) y (hsub y hy)
  latest n hn p hpub := hi.latest n (hl ▸ hn) p (hp ▸ hpub)
  subscribed h := hl ▸ hi.subscribed (hs h)

/-- A new snapshot is stamped later than all known ones, hence identified. -/
theorem inv_of_new {f g : Feed} {n : RoutingUpdate} (hi : Inv f)
    (hn : f.clock < n.timestampNs) (hc : g.clock = n.timestampNs)
    (he : g.routingUpdateEvent = false) (hl : g.latestRoutingSnapshot = some n)
    (hp : ∀ p ∈ g.published, p = n ∨ p ∈ f.published)
    (hsub : ∀ x ∈ snapshots g, x = n ∨ x ∈ snapshots f) : Inv g := by
  have hlt : ∀ x ∈ snapshots f, x.timestampNs < n.timestampNs :=
    fun x hx => (hi.stamped x hx).trans_lt hn
  refine ⟨he, fun x hx => ?_, fun x hx y hy hxy => ?_, fun m hm p hpub => ?_, fun _ => ?_⟩
  · rcases hsub x hx with rfl | hx
    · exact hc.ge
    · exact hc ▸ (hlt x hx).le
  · rcases hsub x hx with rfl | hx <;> rcases hsub y hy with rfl | hy
    · rfl
    · exact absurd hxy (hlt y hy).ne'
    · exact absurd hxy (hlt x hx).ne
    · exact hi.identified x hx y hy hxy
  · obtain rfl := Option.some.inj (hl.symm.trans hm)
    rcases hp p hpub with rfl | hpub
    · exact le_rfl
    · exact (hlt p (List.mem_append_right _ hpub)).le
  · simp [hl]

theorem mem_streams_snapshots {f : Feed} {s : Stream} {x : RoutingUpdate} (hs : s ∈ f.streams)
    (hx : x ∈ s.snapshots) : x ∈ snapshots f :=
  List.mem_append_left _ (List.mem_append_right _ (List.mem_flatMap.mpr ⟨s, hs, hx⟩))

theorem snapshots_set {f : Feed} {k : ℕ} {s' : Stream}
    (hs : ∀ x ∈ s'.snapshots, x ∈ snapshots f) :
    ∀ x ∈ snapshots { f with streams := f.streams.set k s' }, x ∈ snapshots f := by
  intro x hx
  simp only [snapshots, List.mem_append, List.mem_flatMap] at hx
  rcases hx with (hx | ⟨s, hm, hx⟩) | hx
  · exact List.mem_append_left _ (List.mem_append_left _ hx)
  · rcases mem_set hm with rfl | hm
    · exact hs x hx
    · exact mem_streams_snapshots hm hx
  · exact List.mem_append_right _ hx

theorem wait_eq {f : Feed} (hi : Inv f) (last : RoutingUpdate) : wait f last = .waiting last := by
  simp [wait, hi.event_clear]

theorem advance_cases {f : Feed} (hi : Inv f) {s s' : Stream} (hs : s ∈ f.streams)
    (ha : advance f s = some s') :
    (∃ x, s.delivered = some x ∧ s.Yielding ∧ s' = .waiting x) ∨
    (∃ last n, s = .woken last ∧ f.latestRoutingSnapshot = some n ∧
      ((last.timestampNs < n.timestampNs ∧ s' = .yielding last n) ∨
        (n.timestampNs ≤ last.timestampNs ∧ s' = .waiting last))) := by
  cases s with
  | yieldingInitial x =>
    refine Or.inl ⟨x, rfl, trivial, ?_⟩
    simpa [advance, wait_eq hi, eq_comm] using ha
  | yielding last x =>
    refine Or.inl ⟨x, rfl, trivial, ?_⟩
    simpa [advance, wait_eq hi, eq_comm] using ha
  | woken last =>
    obtain ⟨n, hn⟩ := Option.ne_none_iff_exists'.mp
      (hi.subscribed (List.ne_nil_of_mem hs))
    refine Or.inr ⟨last, n, rfl, hn, ?_⟩
    simp only [advance, hn, wait_eq hi] at ha
    split at ha
    next h => exact Or.inl ⟨h, (Option.some.inj ha).symm⟩
    next h => exact Or.inr ⟨not_lt.mp h, (Option.some.inj ha).symm⟩
  | waiting last => simp [advance] at ha
  | ended => simp [advance] at ha

theorem resume_inv {f g : Feed} {k : ℕ} (hi : Inv f) (hs : step f (.resume k) = some g) :
    Inv g := by
  simp only [step, Option.map_eq_some_iff, Option.bind_eq_some_iff] at hs
  obtain ⟨s', ⟨s, hk, ha⟩, rfl⟩ := hs
  have hm := List.mem_of_getElem? hk
  refine inv_of_subset hi rfl rfl rfl rfl (fun _ => List.ne_nil_of_mem hm) (snapshots_set ?_)
  rcases advance_cases hi hm ha with ⟨x, hd, -, rfl⟩ | ⟨last, n, rfl, hn, ⟨-, rfl⟩ | ⟨-, rfl⟩⟩
  · intro y hy
    obtain rfl := List.mem_singleton.mp hy
    refine mem_streams_snapshots hm ?_
    cases s <;> simp_all [Stream.delivered, Stream.snapshots]
  · intro y hy
    rcases List.mem_cons.mp hy with rfl | hy
    · exact mem_streams_snapshots hm (by simp [Stream.snapshots])
    · obtain rfl := List.mem_singleton.mp hy
      simp [snapshots, hn]
  · intro y hy
    exact mem_streams_snapshots hm hy

theorem step_inv (f : Feed) (a : Act) (g : Feed) (hi : Inv f) (hs : step f a = some g) :
    Inv g := by
  cases a with
  | publish n =>
    obtain ⟨hn, rfl⟩ := Option.ite_some_none_eq_some.mp hs
    refine inv_of_new hi hn rfl rfl rfl (fun p hp => ?_) (fun x hx => ?_)
    · simpa [onDeploymentChange, clearEvent, setEvent, or_comm] using hp
    · simp only [onDeploymentChange, clearEvent, setEvent, snapshots, Option.toList_some,
        List.flatMap_map, snapshots_wake, List.mem_append, List.mem_singleton] at hx ⊢
      tauto
  | subscribe n =>
    obtain ⟨hn, rfl⟩ := Option.ite_some_none_eq_some.mp hs
    refine inv_of_new hi hn rfl hi.event_clear rfl (fun p hp => Or.inr hp) (fun x hx => ?_)
    simp only [subscribe, snapshots, Option.toList_some, List.flatMap_append,
      List.flatMap_singleton, Stream.snapshots, List.mem_append, List.mem_singleton] at hx ⊢
    tauto
  | resume k => exact resume_inv hi hs
  | cancel k =>
    obtain ⟨hk, rfl⟩ := Option.ite_some_none_eq_some.mp hs
    exact inv_of_subset hi rfl rfl rfl rfl
      (fun _ => List.ne_nil_of_length_pos (Nat.zero_lt_of_lt hk))
      (snapshots_set (by simp [Stream.snapshots]))

theorem step_fresh (f : Feed) (a : Act) (g : Feed) (hi : Inv f) (hf : Fresh f)
    (hc : PublishedToWaiters f a) (hs : step f a = some g) : Fresh g := by
  cases a with
  | publish n =>
    obtain ⟨-, rfl⟩ := Option.ite_some_none_eq_some.mp hs
    intro s hm x hd
    obtain ⟨s₀, hm₀, rfl⟩ := List.mem_map.mp hm
    have hy := hc s₀ hm₀
    cases s₀ <;> simp_all [wake, Stream.delivered, Stream.Yielding]
  | subscribe n =>
    obtain ⟨hn, rfl⟩ := Option.ite_some_none_eq_some.mp hs
    intro s hm x hd
    rcases List.mem_append.mp hm with hm | hm
    · exact hf s hm x hd
    · obtain rfl := List.mem_singleton.mp hm
      obtain rfl := Option.some.inj hd
      intro p hp
      exact ((hi.stamped p (List.mem_append_right _ hp)).trans_lt hn).le
  | resume k =>
    simp only [step, Option.map_eq_some_iff, Option.bind_eq_some_iff] at hs
    obtain ⟨s', ⟨s, hk, ha⟩, rfl⟩ := hs
    have hms := List.mem_of_getElem? hk
    intro t hm x hd
    rcases mem_set hm with rfl | hm
    · rcases advance_cases hi hms ha with
        ⟨y, hy, -, rfl⟩ | ⟨last, n, rfl, hn, ⟨-, rfl⟩ | ⟨hle, rfl⟩⟩
      · exact hf s hms x (hy.trans hd)
      · obtain rfl := Option.some.inj hd
        exact hi.latest _ hn
      · obtain rfl := Option.some.inj hd
        exact fun p hp => (hi.latest n hn p hp).trans hle
    · exact hf t hm x hd
  | cancel k =>
    obtain ⟨-, rfl⟩ := Option.ite_some_none_eq_some.mp hs
    intro t hm x hd
    rcases mem_set hm with rfl | hm
    · cases hd
    · exact hf t hm x hd

def InvFresh (f : Feed) : Prop := Inv f ∧ Fresh f

theorem initial_invFresh (clock : ℕ) : InvFresh (initial clock) :=
  ⟨initial_inv clock, by simp [Fresh, initial]⟩

theorem step_invFresh (f : Feed) (a : Act) (g : Feed) (hf : InvFresh f)
    (hc : PublishedToWaiters f a) (hs : step f a = some g) : InvFresh g :=
  ⟨step_inv f a g hf.1 hs, step_fresh f a g hf.1 hf.2 hc hs⟩

theorem upToDate_of_fresh {f : Feed} (hi : Inv f) (hf : Fresh f) : UpToDate f := by
  intro last hm p hp
  have hpub : p ∈ f.published := List.mem_of_getLast? hp
  rcases (hf _ hm last rfl p hpub).lt_or_eq with h | h
  · exact Or.inr h
  · exact Or.inl (hi.identified _ (mem_streams_snapshots hm (by simp [Stream.snapshots])) _
      (List.mem_append_right _ hpub) h.symm)

/-- A publication that finds a stream in a `yield` is lost to it: when the
stream runs again it parks with the older snapshot. -/
theorem publish_past_yield {f : Feed} (hi : Inv f) {k : ℕ} {s : Stream}
    (hk : f.streams[k]? = some s) (hy : s.Yielding) {n : RoutingUpdate}
    (hn : f.clock < n.timestampNs) :
    ∃ g, Runs.exec step [.publish n, .resume k] f = some g ∧ ¬ UpToDate g := by
  have hp : step f (.publish n) = some (onDeploymentChange f n) := if_pos hn
  have hj := step_inv f _ _ hi hp
  have hk' : (onDeploymentChange f n).streams[k]? = some s := by
    simp only [onDeploymentChange, clearEvent, setEvent, List.getElem?_map, hk, Option.map_some]
    cases s <;> first | rfl | exact hy.elim
  obtain ⟨x, hd, ha⟩ : ∃ x, s.delivered = some x ∧
      advance (onDeploymentChange f n) s = some (.waiting x) := by
    cases s with
    | yieldingInitial x => exact ⟨x, rfl, congrArg some (wait_eq hj x)⟩
    | yielding last x => exact ⟨x, rfl, congrArg some (wait_eq hj x)⟩
    | _ => exact hy.elim
  refine ⟨{ onDeploymentChange f n with
    streams := (onDeploymentChange f n).streams.set k (.waiting x) }, ?_, fun hu => ?_⟩
  · rw [Runs.exec_cons]
    refine ⟨_, hp, ?_⟩
    rw [Runs.exec_cons]
    exact ⟨_, by simp [step, hk', ha], rfl⟩
  · have hx : x.timestampNs < n.timestampNs := by
      refine (hi.stamped x (mem_streams_snapshots (List.mem_of_getElem? hk) ?_)).trans_lt hn
      cases s <;> simp_all [Stream.delivered, Stream.snapshots]
    have hw : Stream.waiting x ∈ (onDeploymentChange f n).streams.set k (.waiting x) :=
      List.mem_set (List.getElem?_eq_some_iff.mp hk').1 _
    rcases hu x hw n (by simp [onDeploymentChange, clearEvent, setEvent]) with rfl | h
    · exact lt_irrefl _ hx
    · exact lt_asymm hx h

/-- Runs that publish only while no stream is in a `yield` keep every parked
stream up to date; a publication past a suspended `yield` is missed. -/
theorem publications_reach_parked_streams (clock : ℕ) :
    (∀ as f, Runs.exec step as (initial clock) = some f →
      Runs.Along step PublishedToWaiters as (initial clock) → UpToDate f) ∧
    ∀ as f k s n, Runs.exec step as (initial clock) = some f → f.streams[k]? = some s →
      s.Yielding → f.clock < n.timestampNs →
      ∃ g, Runs.exec step (as ++ [.publish n, .resume k]) (initial clock) = some g ∧
        ¬ UpToDate g := by
  constructor
  · intro as f hr hc
    have h := Runs.exec_invariant_along step_invFresh (initial_invFresh clock) hc hr
    exact upToDate_of_fresh h.1 h.2
  · intro as f k s n hr hk hy hn
    have hi := Runs.exec_invariant step_inv (initial_inv clock) hr
    obtain ⟨g, hg, hu⟩ := publish_past_yield hi hk hy hn
    exact ⟨g, by rw [Runs.exec_append, hr]; exact hg, hu⟩

def emptySnapshot (timestampNs : ℕ) : RoutingUpdate := ⟨Dict.empty, timestampNs⟩

theorem publications_reach_parked_streams_sample : ∃ f g,
    Runs.exec step [.subscribe (emptySnapshot 1), .resume 0, .publish (emptySnapshot 2)]
      (initial 0) = some f ∧ UpToDate f ∧
    Runs.exec step ([.subscribe (emptySnapshot 1)] ++ [.publish (emptySnapshot 2), .resume 0])
      (initial 0) = some g ∧ ¬ UpToDate g := by
  obtain ⟨g, hg, hu⟩ := (publications_reach_parked_streams 0).2
    [.subscribe (emptySnapshot 1)] _ 0 _ (emptySnapshot 2) rfl rfl trivial (by decide)
  refine ⟨_, g, rfl, (publications_reach_parked_streams 0).1
    [.subscribe (emptySnapshot 1), .resume 0, .publish (emptySnapshot 2)] _ rfl ?_, hg, hu⟩
  simp [Runs.Along, PublishedToWaiters, step, subscribe, initial, emptySnapshot, advance, wait,
    Stream.Yielding]

/-- The snapshot published while the only stream was sending its initial one
never reaches it. -/
theorem update_lost_during_yield : ¬ ∀ as f,
    Runs.exec step as (initial 0) = some f → UpToDate f := by
  intro h
  have hu := h [.subscribe (emptySnapshot 1), .publish (emptySnapshot 2), .resume 0] _ rfl
    (emptySnapshot 1) (List.mem_singleton.mpr rfl) (emptySnapshot 2) rfl
  simp [emptySnapshot] at hu

end ServingSystem.Head.RoutingFeed
