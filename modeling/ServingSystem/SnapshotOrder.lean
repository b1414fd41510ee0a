import ServingSystem.Registry
import ServingSystem.RoutingFeed
import ServingSystem.Runs
import Mathlib.Data.List.Sort

/-!
# The order of the snapshots a proxy receives

`_on_deployment_change` and `SubscribeToRoutingUpdates` with a switch at every
lock, wait and yield, so that a table read earlier may be stored later than a
newer one. The registry changes at any time between; the clock never gives one
time twice. A proxy reads one stream at a time, in order, may lose it at any
time and then subscribes again. `reads` records every table read from the
registry, in that order. The feed, in which a publication and the first part
of a subscription are one step each, has some of these runs and no others.
-/

set_option autoImplicit false

namespace ServingSystem.Head.SnapshotOrder
open Protos (RoutingUpdate)
open DeploymentManager Positions

/-- `_on_deployment_change` before its first and its second lock. -/
inductive Publisher where
  | computing
  | storing (newSnapshot : RoutingUpdate)
  | done

inductive Phase where
  | computing
  | storing (initialSnapshot : RoutingUpdate)
  | yielding (snapshot : RoutingUpdate)
  | waiting (lastYieldedTimestampNs : ℕ)
  | woken (lastYieldedTimestampNs : ℕ)
  | ended

structure Stream where
  phase : Phase
  sent : List RoutingUpdate

structure Proxy where
  current : Option (ℕ × ℕ)
  received : List RoutingUpdate

structure State where
  registry : Registry
  clock : ℕ
  reads : List RoutingUpdate
  latestRoutingSnapshot : Option RoutingUpdate
  routingUpdateEvent : Bool
  publishers : List Publisher
  streams : List Stream
  proxies : List Proxy

def read (t : ℕ) (s : State) : Option (RoutingUpdate × State) :=
  if s.clock < t then
    some (getCurrentRoutingTable s.registry t, { s with
      clock := t
      reads := s.reads ++ [getCurrentRoutingTable s.registry t] })
  else none

def wake (x : Stream) : Stream :=
  match x.phase with
  | .waiting last => { x with phase := .woken last }
  | _ => x

def setEvent (s : State) : State :=
  { s with routingUpdateEvent := true, streams := s.streams.map wake }

def clearEvent (s : State) : State := { s with routingUpdateEvent := false }

def publish (t : ℕ) (s : State) : Publisher → Option (Publisher × State)
  | .computing => (read t s).map (fun r => (.storing r.1, r.2))
  | .storing newSnapshot =>
    some (.done, clearEvent (setEvent { s with latestRoutingSnapshot := some newSnapshot }))
  | .done => none

def wait (s : State) (last : ℕ) : Phase :=
  if s.routingUpdateEvent then .woken last else .waiting last

def Stream.yield (x : Stream) (snapshot : RoutingUpdate) : Stream :=
  ⟨.yielding snapshot, x.sent ++ [snapshot]⟩

def advance (t : ℕ) (s : State) (x : Stream) : Option (Stream × State) :=
  match x.phase with
  | .computing => (read t s).map (fun r => ({ x with phase := .storing r.1 }, r.2))
  | .storing initialSnapshot =>
    some (x.yield initialSnapshot, { s with latestRoutingSnapshot := some initialSnapshot })
  | .yielding snapshot => some ({ x with phase := wait s snapshot.timestampNs }, s)
  | .woken last =>
    match s.latestRoutingSnapshot with
    | some newSnapshot =>
      if newSnapshot.timestampNs > last then some (x.yield newSnapshot, s)
      else some ({ x with phase := wait s last }, s)
    | none => some ({ x with phase := wait s last }, s)
  | .waiting _ => none
  | .ended => none

inductive Act where
  | change (registry : Registry)
  | publish
  | publisher (task t : ℕ)
  | stream (stream t : ℕ)
  | cancel (stream : ℕ)
  | proxy
  | subscribe (proxy : ℕ)
  | receive (proxy : ℕ)
  | disconnect (proxy : ℕ)

def subscribe (s : State) (k : ℕ) (p : Proxy) : State :=
  { s with
    streams := s.streams ++ [⟨.computing, []⟩]
    proxies := s.proxies.set k { p with current := some (s.streams.length, 0) } }

def receive (s : State) (k : ℕ) (p : Proxy) : Option State :=
  p.current.bind (fun c =>
    (s.streams[c.1]?.bind (fun x => x.sent[c.2]?)).map (fun update => { s with
      proxies := s.proxies.set k ⟨some (c.1, c.2+1), p.received ++ [update]⟩ }))

def step (s : State) : Act → Option State
  | .change registry => some { s with registry := registry }
  | .publish => some { s with publishers := s.publishers ++ [.computing] }
  | .publisher k t => (s.publishers[k]?.bind (publish t s)).map (fun r =>
      { r.2 with publishers := r.2.publishers.set k r.1 })
  | .stream k t => (s.streams[k]?.bind (advance t s)).map (fun r =>
      { r.2 with streams := r.2.streams.set k r.1 })
  | .cancel k => s.streams[k]?.map (fun x =>
      { s with streams := s.streams.set k { x with phase := .ended } })
  | .proxy => some { s with proxies := s.proxies ++ [⟨none, []⟩] }
  | .subscribe k => s.proxies[k]?.bind (fun p =>
      if p.current = none then some (subscribe s k p) else none)
  | .receive k => s.proxies[k]?.bind (receive s k)
  | .disconnect k => s.proxies[k]?.map (fun p =>
      { s with proxies := s.proxies.set k { p with current := none } })

def initial (registry : Registry) (clock : ℕ) : State :=
  ⟨registry, clock, [], none, false, [], [], []⟩

def Newer (x y : RoutingUpdate) : Prop := x.timestampNs < y.timestampNs

/-- Each proxy receives newer and newer snapshots, in the order in which they
were read. -/
def NeverBack (s : State) : Prop :=
  ∀ p ∈ s.proxies, p.received.Pairwise Newer ∧ p.received.Sublist s.reads

/-- What a stream has left to yield is newer than all of `l`, and how far it
is known. -/
def Below (phase : Phase) (l : List RoutingUpdate) : Prop :=
  match phase with
  | .computing => True
  | .storing u => ∀ x ∈ l, Newer x u
  | .yielding u => ∀ x ∈ l, x.timestampNs ≤ u.timestampNs
  | .waiting last => ∀ x ∈ l, x.timestampNs ≤ last
  | .woken last => ∀ x ∈ l, x.timestampNs ≤ last
  | .ended => True

structure Tail (x : Stream) (received : List RoutingUpdate) (n : ℕ) : Prop where
  length : n ≤ x.sent.length
  sorted : (received ++ x.sent.drop n).Pairwise Newer
  below : Below x.phase (received ++ x.sent.drop n)

def Ordered (s : State) (p : Proxy) : Prop :=
  match p.current with
  | none => p.received.Pairwise Newer
  | some (k, n) => ∃ x, s.streams[k]? = some x ∧ Tail x p.received n

structure Held (reads : List RoutingUpdate) (x : Stream) : Prop where
  sent : ∀ u ∈ x.sent, u ∈ reads
  storing : ∀ u, x.phase = .storing u → u ∈ reads
  unsent : x.phase = .computing ∨ (∃ u, x.phase = .storing u) → x.sent = []

structure Inv (s : State) : Prop where
  sorted : s.reads.Pairwise Newer
  stamped : ∀ x ∈ s.reads, x.timestampNs ≤ s.clock
  latest : ∀ u, s.latestRoutingSnapshot = some u → u ∈ s.reads
  publishers : ∀ u, .storing u ∈ s.publishers → u ∈ s.reads
  streams : ∀ x ∈ s.streams, Held s.reads x
  received : ∀ p ∈ s.proxies, ∀ u ∈ p.received, u ∈ s.reads
  ordered : ∀ p ∈ s.proxies, Ordered s p

instance : Std.Antisymm Newer := ⟨fun _ _ h h' => absurd h (lt_asymm h')⟩

theorem Ordered.sorted {s : State} {p : Proxy} (h : Ordered s p) : p.received.Pairwise Newer := by
  unfold Ordered at h
  cases hc : p.current with
  | none =>
    rw [hc] at h
    exact h
  | some c =>
    rw [hc] at h
    obtain ⟨x, -, ht⟩ := h
    exact (List.pairwise_append.mp ht.sorted).1

theorem Inv.neverBack {s : State} (hi : Inv s) : NeverBack s := by
  intro p hp
  have hs := (hi.ordered p hp).sorted
  have hne : ∀ {x y}, Newer x y → x ≠ y := by
    rintro x y h rfl
    exact lt_irrefl _ h
  have hnodup : p.received.Nodup := hs.imp hne
  refine ⟨hs, List.sublist_of_subperm_of_pairwise ?_ hs hi.sorted⟩
  exact List.subperm_of_subset hnodup (hi.received p hp)

/-- Whoever reads the stream may go on reading it. -/
def Follows (reads : List RoutingUpdate) (x x' : Stream) : Prop :=
  ∀ received n, (∀ u ∈ received, u ∈ reads) → Tail x received n → Tail x' received n

section
variable {reads : List RoutingUpdate} {x : Stream}

theorem follows_phase {phase : Phase}
    (h : ∀ l, Below x.phase l → (∀ u ∈ l, u ∈ x.sent ∨ u ∈ reads) → Below phase l) :
    Follows reads x { x with phase := phase } := by
  intro received n hr ht
  refine ⟨ht.length, ht.sorted, h _ ht.below (fun u hu => ?_)⟩
  rcases List.mem_append.mp hu with hu | hu
  · exact Or.inr (hr u hu)
  · exact Or.inl (List.mem_of_mem_drop hu)

theorem follows_yield {u : RoutingUpdate} (h : ∀ l, Below x.phase l → ∀ y ∈ l, Newer y u) :
    Follows reads x (x.yield u) := by
  intro received n hr ht
  have hb := h _ ht.below
  have hd : (x.yield u).sent.drop n = x.sent.drop n ++ [u] :=
    List.drop_append_of_le_length ht.length
  refine ⟨?_, ?_, ?_⟩
  · show n ≤ (x.sent ++ [u]).length
    rw [List.length_append]
    exact ht.length.trans (Nat.le_add_right _ _)
  · rw [hd, ← List.append_assoc, List.pairwise_append]
    refine ⟨ht.sorted, List.pairwise_singleton _ _, fun y hy z hz => ?_⟩
    obtain rfl := List.mem_singleton.mp hz
    exact hb y hy
  · rw [hd, ← List.append_assoc]
    intro y hy
    rcases List.mem_append.mp hy with hy | hy
    · exact (hb y hy).le
    · rw [List.mem_singleton.mp hy]

theorem follows_wake : Follows reads x (wake x) := by
  unfold wake
  split
  next last h => exact follows_phase (fun l hb _ => by rwa [h] at hb)
  next => exact fun _ _ _ ht => ht

theorem Held.mono {reads' : List RoutingUpdate} (h : ∀ u ∈ reads, u ∈ reads')
    (hx : Held reads x) : Held reads' x :=
  ⟨fun u hu => h u (hx.sent u hu), fun u hu => h u (hx.storing u hu), hx.unsent⟩

theorem held_phase {phase : Phase} (hx : Held reads x) (hc : phase ≠ .computing)
    (hs : ∀ u, phase ≠ .storing u) : Held reads { x with phase := phase } := by
  refine ⟨hx.sent, fun u h => absurd h (hs u), ?_⟩
  rintro (h | ⟨u, h⟩)
  · exact absurd h hc
  · exact absurd h (hs u)

theorem held_yield {u : RoutingUpdate} (hx : Held reads x) (hu : u ∈ reads) :
    Held reads (x.yield u) := by
  refine ⟨fun v hv => ?_, fun v => (nomatch ·), ?_⟩
  · rcases List.mem_append.mp hv with hv | hv
    · exact hx.sent v hv
    · exact List.mem_singleton.mp hv ▸ hu
  · rintro (h | ⟨v, h⟩) <;> cases h

theorem held_wake (hx : Held reads x) : Held reads (wake x) := by
  unfold wake
  split
  next => exact held_phase hx (by simp) (by simp)
  next => exact hx

end

theorem ordered_follows {s r : State} {p : Proxy} (h : Ordered s p)
    (hp : ∀ u ∈ p.received, u ∈ s.reads)
    (hf : ∀ (k : ℕ) x, s.streams[k]? = some x →
      ∃ x', r.streams[k]? = some x' ∧ Follows s.reads x x') : Ordered r p := by
  unfold Ordered at h ⊢
  cases hc : p.current with
  | none =>
    rw [hc] at h
    exact h
  | some c =>
    rw [hc] at h
    obtain ⟨x, hx, ht⟩ := h
    obtain ⟨x', hx', hfx⟩ := hf c.1 x hx
    exact ⟨x', hx', hfx _ _ hp ht⟩

structure Extends (s r : State) : Prop where
  sorted : r.reads.Pairwise Newer
  stamped : ∀ x ∈ r.reads, x.timestampNs ≤ r.clock
  latest : ∀ u, r.latestRoutingSnapshot = some u → u ∈ r.reads
  publishers : ∀ u, .storing u ∈ r.publishers → u ∈ r.reads
  grows : ∀ u ∈ s.reads, u ∈ r.reads
  streams : r.streams = s.streams
  proxies : r.proxies = s.proxies

section
variable {s r : State}

theorem Inv.extends (hi : Inv s) : Extends s s :=
  ⟨hi.sorted, hi.stamped, hi.latest, hi.publishers, fun _ => id, rfl, rfl⟩

theorem extends_latest (hi : Inv s) {u : RoutingUpdate} (hu : u ∈ s.reads) :
    Extends s { s with latestRoutingSnapshot := some u } := by
  refine ⟨hi.sorted, hi.stamped, fun v hv => ?_, hi.publishers, fun _ => id, rfl, rfl⟩
  exact Option.some.inj hv ▸ hu

/-- A table that is read is newer than all that were read before. -/
theorem extends_read (hi : Inv s) {t : ℕ} {u : RoutingUpdate} (h : read t s = some (u, r)) :
    Extends s r ∧ u ∈ r.reads ∧ ∀ y ∈ s.reads, Newer y u := by
  obtain ⟨ht, h⟩ := Option.ite_none_right_eq_some.mp h
  obtain ⟨rfl, rfl⟩ := Prod.mk.inj (Option.some.inj h)
  have hnew : ∀ y ∈ s.reads, Newer y (getCurrentRoutingTable s.registry t) :=
    fun y hy => lt_of_le_of_lt (hi.stamped y hy) ht
  have hgrows : ∀ u ∈ s.reads, u ∈ s.reads ++ [getCurrentRoutingTable s.registry t] :=
    fun u hu => List.mem_append_left _ hu
  refine ⟨⟨?_, fun x hx => ?_, fun v hv => hgrows v (hi.latest v hv),
    fun v hv => hgrows v (hi.publishers v hv), hgrows, rfl, rfl⟩, by simp, hnew⟩
  · rw [List.pairwise_append]
    refine ⟨hi.sorted, List.pairwise_singleton _ _, fun y hy z hz => ?_⟩
    exact List.mem_singleton.mp hz ▸ hnew y hy
  · rcases List.mem_append.mp hx with hx | hx
    · exact (hi.stamped x hx).trans ht.le
    · obtain rfl := List.mem_singleton.mp hx
      exact le_of_eq rfl

theorem inv_streams (hi : Inv s) (he : Extends s r) (event : Bool) (streams : List Stream)
    (hh : ∀ x ∈ streams, Held r.reads x)
    (hf : ∀ (k : ℕ) x, s.streams[k]? = some x →
      ∃ x', streams[k]? = some x' ∧ Follows s.reads x x') :
    Inv { r with routingUpdateEvent := event, streams := streams } := by
  refine ⟨he.sorted, he.stamped, he.latest, he.publishers, hh, fun p hp u hu => ?_, fun p hp => ?_⟩
  · exact he.grows u (hi.received p (he.proxies ▸ hp) u hu)
  · have hp : p ∈ s.proxies := he.proxies ▸ hp
    exact ordered_follows (hi.ordered p hp) (hi.received p hp) hf

theorem inv_stream (hi : Inv s) (he : Extends s r) {k : ℕ} {x x' : Stream}
    (hx : s.streams[k]? = some x) (hh : Held r.reads x') (hf : Follows s.reads x x') :
    Inv { r with streams := r.streams.set k x' } := by
  apply inv_streams hi he r.routingUpdateEvent
  · intro y hy
    rw [he.streams] at hy
    rcases mem_set hy with rfl | hy
    · exact hh
    · exact (hi.streams y hy).mono he.grows
  · intro j y hy
    rw [he.streams]
    by_cases hj : k = j
    · subst hj
      obtain rfl := Option.some.inj (hx.symm.trans hy)
      exact ⟨x', List.getElem?_set_self (List.getElem?_eq_some_iff.mp hx).1, hf⟩
    · exact ⟨y, by rw [List.getElem?_set_ne hj, hy], fun _ _ _ ht => ht⟩

theorem inv_wait (hi : Inv s) {k : ℕ} {x : Stream} (hx : s.streams[k]? = some x) {last : ℕ}
    (h : ∀ l, Below x.phase l → ∀ y ∈ l, y.timestampNs ≤ last) :
    Inv { s with streams := s.streams.set k { x with phase := wait s last } } := by
  have hh := hi.streams x (List.mem_of_getElem? hx)
  unfold wait
  split
  · exact inv_stream hi hi.extends hx (held_phase hh (by simp) (by simp))
      (follows_phase (fun l hb _ => h l hb))
  · exact inv_stream hi hi.extends hx (held_phase hh (by simp) (by simp))
      (follows_phase (fun l hb _ => h l hb))

theorem compute_inv (hi : Inv s) {k t : ℕ} {x : Stream} (hx : s.streams[k]? = some x)
    (hp : x.phase = .computing) {u : RoutingUpdate} (hr : read t s = some (u, r)) :
    Inv { r with streams := r.streams.set k { x with phase := .storing u } } := by
  have hh := hi.streams x (List.mem_of_getElem? hx)
  obtain ⟨hext, hu, hnew⟩ := extends_read hi hr
  have hheld : Held r.reads { x with phase := .storing u } := by
    refine ⟨(hh.mono hext.grows).sent, fun v hv => ?_, fun _ => hh.unsent (Or.inl hp)⟩
    exact Phase.storing.inj hv ▸ hu
  apply inv_stream hi hext hx hheld
  exact follows_phase (fun l _ hl y hy => hnew y ((hl y hy).elim (hh.sent y) id))

/-- A stream that was woken yields a newer table or waits again. -/
theorem woken_inv (hi : Inv s) {k t last : ℕ} {x x' : Stream} (hx : s.streams[k]? = some x)
    (hp : x.phase = .woken last) (hs : advance t s x = some (x', r)) :
    Inv { r with streams := r.streams.set k x' } := by
  have hh := hi.streams x (List.mem_of_getElem? hx)
  have hlast : ∀ l, Below x.phase l → ∀ y ∈ l, y.timestampNs ≤ last := by
    intro l hb
    rw [hp] at hb
    exact hb
  simp only [advance, hp] at hs
  split at hs
  next u hu =>
    split at hs
    next hlt =>
      obtain ⟨rfl, rfl⟩ := Prod.mk.inj (Option.some.inj hs)
      apply inv_stream hi hi.extends hx (held_yield hh (hi.latest u hu))
      exact follows_yield (fun l hb y hy => lt_of_le_of_lt (hlast l hb y hy) hlt)
    next =>
      obtain ⟨rfl, rfl⟩ := Prod.mk.inj (Option.some.inj hs)
      exact inv_wait hi hx hlast
  next =>
    obtain ⟨rfl, rfl⟩ := Prod.mk.inj (Option.some.inj hs)
    exact inv_wait hi hx hlast

theorem advance_inv (hi : Inv s) {k t : ℕ} {x x' : Stream} (hx : s.streams[k]? = some x)
    (hs : advance t s x = some (x', r)) : Inv { r with streams := r.streams.set k x' } := by
  have hh := hi.streams x (List.mem_of_getElem? hx)
  cases hp : x.phase with
  | computing =>
    simp only [advance, hp] at hs
    obtain ⟨⟨u, r'⟩, hr, he⟩ := Option.map_eq_some_iff.mp hs
    obtain ⟨rfl, rfl⟩ := Prod.mk.inj he
    exact compute_inv hi hx hp hr
  | storing u =>
    simp only [advance, hp] at hs
    obtain ⟨rfl, rfl⟩ := Prod.mk.inj (Option.some.inj hs)
    have hu := hh.storing u hp
    refine inv_stream hi (extends_latest hi hu) hx (held_yield hh hu) (follows_yield ?_)
    intro l hb
    rw [hp] at hb
    exact hb
  | yielding u =>
    simp only [advance, hp] at hs
    obtain ⟨rfl, rfl⟩ := Prod.mk.inj (Option.some.inj hs)
    apply inv_wait hi hx
    intro l hb
    rw [hp] at hb
    exact hb
  | woken last => exact woken_inv hi hx hp hs
  | waiting last =>
    simp only [advance, hp] at hs
    cases hs
  | ended =>
    simp only [advance, hp] at hs
    cases hs

theorem Extends.inv (hi : Inv s) (he : Extends s r) : Inv r := by
  apply inv_streams hi he r.routingUpdateEvent
  · intro x hx
    exact (hi.streams x (he.streams ▸ hx)).mono he.grows
  · intro k x hx
    exact ⟨x, he.streams ▸ hx, fun _ _ _ ht => ht⟩

/-- A publication has stored a table that was read. -/
theorem inv_publisher (hi : Inv s) {k : ℕ} {y : Publisher}
    (hy : ∀ u, y = .storing u → u ∈ s.reads) :
    Inv { s with publishers := s.publishers.set k y } := by
  refine ⟨hi.sorted, hi.stamped, hi.latest, fun u hu => ?_, hi.streams, hi.received, hi.ordered⟩
  rcases mem_set hu with h | h
  · exact hy u h.symm
  · exact hi.publishers u h

theorem publish_inv (hi : Inv s) {k t : ℕ} {x y : Publisher} (hx : s.publishers[k]? = some x)
    (hs : publish t s x = some (y, r)) : Inv { r with publishers := r.publishers.set k y } := by
  cases x with
  | computing =>
    obtain ⟨⟨u, r'⟩, hr, he⟩ := Option.map_eq_some_iff.mp hs
    obtain ⟨rfl, rfl⟩ := Prod.mk.inj he
    obtain ⟨hext, hu, -⟩ := extends_read hi hr
    apply inv_publisher (hext.inv hi)
    intro v hv
    exact Publisher.storing.inj hv ▸ hu
  | storing u =>
    obtain ⟨rfl, rfl⟩ := Prod.mk.inj (Option.some.inj hs)
    have hu := hi.publishers u (List.mem_of_getElem? hx)
    have hw := inv_streams hi (extends_latest hi hu) false (s.streams.map wake)
      (fun x hx => ?_) (fun j x hx => ⟨wake x, ?_, follows_wake⟩)
    · exact inv_publisher hw (by simp)
    · obtain ⟨z, hz, rfl⟩ := List.mem_map.mp hx
      exact held_wake (hi.streams z hz)
    · rw [List.getElem?_map, hx, Option.map_some]
  | done => cases hs

theorem inv_proxy (hi : Inv s) {k : ℕ} {p : Proxy} (hp : ∀ u ∈ p.received, u ∈ s.reads)
    (ho : Ordered s p) : Inv { s with proxies := s.proxies.set k p } := by
  refine ⟨hi.sorted, hi.stamped, hi.latest, hi.publishers, hi.streams, fun q hq => ?_,
    fun q hq => ?_⟩
  · rcases mem_set hq with rfl | hq
    · exact hp
    · exact hi.received q hq
  · rcases mem_set hq with rfl | hq
    · exact ho
    · exact hi.ordered q hq

theorem subscribe_inv (hi : Inv s) {k : ℕ} {p : Proxy} (hp : p ∈ s.proxies) :
    Inv (subscribe s k p) := by
  have hstreams : Inv { s with streams := s.streams ++ [⟨.computing, []⟩] } := by
    apply inv_streams hi hi.extends s.routingUpdateEvent
    · intro x hx
      rcases List.mem_append.mp hx with hx | hx
      · exact hi.streams x hx
      · obtain rfl := List.mem_singleton.mp hx
        exact ⟨by simp, fun u => (nomatch ·), fun _ => rfl⟩
    · intro j x hx
      exact ⟨x, (List.getElem?_append_left (List.getElem?_eq_some_iff.mp hx).1).trans hx,
        fun _ _ _ ht => ht⟩
  apply inv_proxy hstreams
  · exact hi.received p hp
  · refine ⟨⟨.computing, []⟩, List.getElem?_concat_length, le_rfl, ?_, trivial⟩
    simpa using (hi.ordered p hp).sorted

theorem receive_inv (hi : Inv s) {k : ℕ} {p : Proxy} (hp : p ∈ s.proxies)
    (hs : receive s k p = some r) : Inv r := by
  obtain ⟨⟨j, n⟩, hc, hs⟩ := Option.bind_eq_some_iff.mp hs
  obtain ⟨u, hu, rfl⟩ := Option.map_eq_some_iff.mp hs
  obtain ⟨x, hx, hn⟩ := Option.bind_eq_some_iff.mp hu
  have hord := hi.ordered p hp
  simp only [Ordered, hc] at hord
  obtain ⟨x', hx', ht⟩ := hord
  obtain rfl := Option.some.inj (hx.symm.trans hx')
  obtain ⟨hlt, rfl⟩ := List.getElem?_eq_some_iff.mp hn
  have hsplit : p.received ++ [x.sent[n]] ++ x.sent.drop (n+1) = p.received ++ x.sent.drop n := by
    rw [List.append_assoc, List.singleton_append, ← List.drop_eq_getElem_cons hlt]
  apply inv_proxy hi
  · intro v hv
    rcases List.mem_append.mp hv with hv | hv
    · exact hi.received p hp v hv
    · rw [List.mem_singleton.mp hv]
      exact (hi.streams x (List.mem_of_getElem? hx)).sent _ (List.getElem_mem hlt)
  · refine ⟨x, hx, hlt, ?_, ?_⟩
    · rw [hsplit]
      exact ht.sorted
    · rw [hsplit]
      exact ht.below

theorem step_inv (s : State) (a : Act) (s' : State) (hi : Inv s) (hs : step s a = some s') :
    Inv s' := by
  cases a with
  | change registry =>
    obtain rfl := Option.some.inj hs
    exact ⟨hi.sorted, hi.stamped, hi.latest, hi.publishers, hi.streams, hi.received, hi.ordered⟩
  | publish =>
    obtain rfl := Option.some.inj hs
    refine ⟨hi.sorted, hi.stamped, hi.latest, fun u hu => ?_, hi.streams, hi.received, hi.ordered⟩
    rcases List.mem_append.mp hu with hu | hu
    · exact hi.publishers u hu
    · cases List.mem_singleton.mp hu
  | publisher k t =>
    obtain ⟨⟨y, r⟩, hr, rfl⟩ := Option.map_eq_some_iff.mp hs
    obtain ⟨x, hx, hr⟩ := Option.bind_eq_some_iff.mp hr
    exact publish_inv hi hx hr
  | stream k t =>
    obtain ⟨⟨y, r⟩, hr, rfl⟩ := Option.map_eq_some_iff.mp hs
    obtain ⟨x, hx, hr⟩ := Option.bind_eq_some_iff.mp hr
    exact advance_inv hi hx hr
  | cancel k =>
    obtain ⟨x, hx, rfl⟩ := Option.map_eq_some_iff.mp hs
    have hh := hi.streams x (List.mem_of_getElem? hx)
    exact inv_stream hi hi.extends hx (held_phase hh (by simp) (by simp))
      (follows_phase (fun _ _ _ => trivial))
  | proxy =>
    obtain rfl := Option.some.inj hs
    refine ⟨hi.sorted, hi.stamped, hi.latest, hi.publishers, hi.streams, fun p hp => ?_,
      fun p hp => ?_⟩
    · rcases List.mem_append.mp hp with hp | hp
      · exact hi.received p hp
      · rw [List.mem_singleton.mp hp]
        exact fun _ => (nomatch ·)
    · rcases List.mem_append.mp hp with hp | hp
      · exact hi.ordered p hp
      · rw [List.mem_singleton.mp hp]
        exact List.Pairwise.nil
  | subscribe k =>
    obtain ⟨p, hp, hs⟩ := Option.bind_eq_some_iff.mp hs
    obtain ⟨-, rfl⟩ := Option.ite_some_none_eq_some.mp hs
    exact subscribe_inv hi (List.mem_of_getElem? hp)
  | receive k =>
    obtain ⟨p, hp, hs⟩ := Option.bind_eq_some_iff.mp hs
    exact receive_inv hi (List.mem_of_getElem? hp) hs
  | disconnect k =>
    obtain ⟨p, hp, rfl⟩ := Option.map_eq_some_iff.mp hs
    have hm := List.mem_of_getElem? hp
    apply inv_proxy hi
    · exact hi.received p hm
    · exact (hi.ordered p hm).sorted

end

theorem initial_inv (registry : Registry) (clock : ℕ) : Inv (initial registry clock) := by
  constructor <;> simp [initial]

/-- No proxy ever goes back to an older table, over all its streams. -/
theorem proxies_never_go_back (registry : Registry) (clock : ℕ) (as : List Act) (s : State)
    (hr : Runs.exec step as (initial registry clock) = some s) : NeverBack s :=
  (Runs.exec_invariant step_inv (initial_inv registry clock) hr).neverBack

def overtaken : List Act :=
  [.proxy, .subscribe 0, .publish, .publisher 0 1, .stream 0 2, .stream 0 0, .receive 0,
    .stream 0 0, .publisher 0 0, .stream 0 0, .disconnect 0, .subscribe 0, .stream 1 3,
    .stream 1 0, .receive 0]

theorem proxies_never_go_back_sample : ∃ s,
    Runs.exec step overtaken
      (initial ⟨Dict.empty, Dict.empty, Dict.empty, Dict.empty, 0⟩ 0) = some s ∧
    s.proxies.map (fun p => p.received.map RoutingUpdate.timestampNs) = [[2, 3]] ∧ NeverBack s :=
  ⟨_, rfl, rfl, proxies_never_go_back _ 0 overtaken _ rfl⟩

def phaseOf : RoutingFeed.Stream → Phase
  | .yieldingInitial snapshot => .yielding snapshot
  | .waiting last => .waiting last.timestampNs
  | .woken last => .woken last.timestampNs
  | .yielding _ snapshot => .yielding snapshot
  | .ended => .ended

/-- The feed has the shared snapshot, the event and the streams of the head,
no publication and no subscription being under way. -/
structure Mirrors (f : RoutingFeed.Feed) (s : State) : Prop where
  latest : s.latestRoutingSnapshot = f.latestRoutingSnapshot
  event : s.routingUpdateEvent = f.routingUpdateEvent
  clock : s.clock = f.clock
  streams : s.streams.map Stream.phase = f.streams.map phaseOf

/-- A snapshot is a table read from some registry. -/
def Reads : RoutingFeed.Act → Prop
  | .publish p => ∃ g, p = getCurrentRoutingTable g p.timestampNs
  | .subscribe p => ∃ g, p = getCurrentRoutingTable g p.timestampNs
  | _ => True

section
variable {f f' : RoutingFeed.Feed} {s r : State}

theorem read_later {t : ℕ} (h : s.clock < t) :
    read t s = some (getCurrentRoutingTable s.registry t, { s with
      clock := t
      reads := s.reads ++ [getCurrentRoutingTable s.registry t] }) :=
  if_pos h

theorem wake_mirrored {xs : List Stream} {ys : List RoutingFeed.Stream}
    (h : xs.map Stream.phase = ys.map phaseOf) :
    (xs.map wake).map Stream.phase = (ys.map RoutingFeed.wake).map phaseOf := by
  have hx : ∀ x : Stream, (wake x).phase = (wake ⟨x.phase, []⟩).phase := by
    rintro ⟨phase, sent⟩
    cases phase <;> rfl
  have hy : ∀ y : RoutingFeed.Stream,
      phaseOf (RoutingFeed.wake y) = (wake ⟨phaseOf y, []⟩).phase := by
    intro y
    cases y <;> rfl
  have hmap := congrArg (List.map (fun phase => (wake ⟨phase, []⟩).phase)) h
  simpa only [List.map_map, Function.comp_def, ← hx, ← hy] using hmap

theorem publisher_computing {k t : ℕ} (hk : s.publishers[k]? = some .computing)
    (ht : s.clock < t) : step s (.publisher k t) = some { s with
      clock := t
      reads := s.reads ++ [getCurrentRoutingTable s.registry t]
      publishers := s.publishers.set k (.storing (getCurrentRoutingTable s.registry t)) } := by
  rw [step, hk, Option.bind_some, publish, read_later ht]
  rfl

theorem publisher_storing {k t : ℕ} {u : RoutingUpdate}
    (hk : s.publishers[k]? = some (.storing u)) : step s (.publisher k t) = some { s with
      latestRoutingSnapshot := some u
      routingUpdateEvent := false
      publishers := s.publishers.set k .done
      streams := s.streams.map wake } := by
  rw [step, hk]
  rfl

theorem stream_computing {k t : ℕ} (hk : s.streams[k]? = some ⟨.computing, []⟩)
    (ht : s.clock < t) : step s (.stream k t) = some { s with
      clock := t
      reads := s.reads ++ [getCurrentRoutingTable s.registry t]
      streams := s.streams.set k ⟨.storing (getCurrentRoutingTable s.registry t), []⟩ } := by
  rw [step, hk, Option.bind_some, advance, read_later ht]
  rfl

theorem stream_storing {k t : ℕ} {u : RoutingUpdate}
    (hk : s.streams[k]? = some ⟨.storing u, []⟩) : step s (.stream k t) = some { s with
      latestRoutingSnapshot := some u
      streams := s.streams.set k ⟨.yielding u, [u]⟩ } := by
  rw [step, hk]
  rfl

theorem publish_mirrored (h : Mirrors f s) (g : Registry) {t : ℕ} (ht : f.clock < t) :
    ∃ bs s', Runs.exec step bs s = some s' ∧
      Mirrors (RoutingFeed.onDeploymentChange f (getCurrentRoutingTable g t)) s' := by
  let k := s.publishers.length
  let called : State := { s with registry := g, publishers := s.publishers ++ [.computing] }
  have hread := publisher_computing (s := called) List.getElem?_concat_length (h.clock ▸ ht)
  have hstored := publisher_storing (t := t) (u := getCurrentRoutingTable g t) (k := k)
    (s := { called with
      clock := t
      reads := s.reads ++ [getCurrentRoutingTable g t]
      publishers := called.publishers.set k (.storing (getCurrentRoutingTable g t)) })
    (List.getElem?_set_self (by simp [called, k]))
  exact ⟨[.change g, .publish, .publisher k t, .publisher k t], _,
    Runs.exec_cons.mpr ⟨_, rfl, Runs.exec_cons.mpr ⟨called, rfl, Runs.exec_cons.mpr
      ⟨_, hread, Runs.exec_cons.mpr ⟨_, hstored, rfl⟩⟩⟩⟩,
    rfl, rfl, rfl, wake_mirrored h.streams⟩

theorem subscribe_mirrored (h : Mirrors f s) (g : Registry) {t : ℕ} (ht : f.clock < t) :
    ∃ bs s', Runs.exec step bs s = some s' ∧
      Mirrors (RoutingFeed.subscribe f (getCurrentRoutingTable g t)) s' := by
  let k := s.streams.length
  let joined : State := { s with registry := g, proxies := s.proxies ++ [⟨none, []⟩] }
  let called := subscribe joined s.proxies.length ⟨none, []⟩
  have hcall : step joined (.subscribe s.proxies.length) = some called := by
    simp [step, joined, called]
  have hread := stream_computing (s := called) List.getElem?_concat_length (h.clock ▸ ht)
  have hstored := stream_storing (t := t) (u := getCurrentRoutingTable g t) (k := k)
    (s := { called with
      clock := t
      reads := s.reads ++ [getCurrentRoutingTable g t]
      streams := called.streams.set k ⟨.storing (getCurrentRoutingTable g t), []⟩ })
    (List.getElem?_set_self (by simp [called, joined, subscribe, k]))
  refine ⟨[.change g, .proxy, .subscribe s.proxies.length, .stream k t, .stream k t], _,
    Runs.exec_cons.mpr ⟨_, rfl, Runs.exec_cons.mpr ⟨joined, rfl, Runs.exec_cons.mpr
      ⟨called, hcall, Runs.exec_cons.mpr ⟨_, hread, Runs.exec_cons.mpr ⟨_, hstored, rfl⟩⟩⟩⟩⟩,
    rfl, h.event, rfl, ?_⟩
  simp [called, joined, subscribe, k, h.streams, RoutingFeed.subscribe, phaseOf]

theorem phase_at (h : Mirrors f s) {k : ℕ} {y : RoutingFeed.Stream} (hy : f.streams[k]? = some y) :
    ∃ x, s.streams[k]? = some x ∧ x.phase = phaseOf y := by
  have hk : (s.streams.map Stream.phase)[k]? = some (phaseOf y) := by
    rw [h.streams, List.getElem?_map, hy, Option.map_some]
  exact Option.map_eq_some_iff.mp (List.getElem?_map.symm.trans hk)

theorem Mirrors.set (h : Mirrors f s) {k : ℕ} {x : Stream} {y : RoutingFeed.Stream}
    (hx : x.phase = phaseOf y) :
    Mirrors { f with streams := f.streams.set k y } { s with streams := s.streams.set k x } := by
  refine ⟨h.latest, h.event, h.clock, ?_⟩
  change (s.streams.set k x).map _ = (f.streams.set k y).map _
  rw [List.map_set, List.map_set, h.streams, hx]

theorem wait_mirrored (h : Mirrors f s) (p : RoutingUpdate) :
    wait s p.timestampNs = phaseOf (RoutingFeed.wait f p) := by
  unfold wait RoutingFeed.wait
  rw [h.event]
  split <;> rfl

theorem advance_mirrored (h : Mirrors f s) {x : Stream} {y y' : RoutingFeed.Stream}
    (hx : x.phase = phaseOf y) (hs : RoutingFeed.advance f y = some y') :
    ∃ x', advance 0 s x = some (x', s) ∧ x'.phase = phaseOf y' := by
  have hwait : ∀ p, y' = RoutingFeed.wait f p →
      (⟨wait s p.timestampNs, x.sent⟩ : Stream).phase = phaseOf y' := by
    rintro p rfl
    exact wait_mirrored h p
  unfold advance
  rw [hx]
  cases y with
  | yieldingInitial p => exact ⟨_, rfl, hwait p (Option.some.inj hs).symm⟩
  | yielding last p => exact ⟨_, rfl, hwait p (Option.some.inj hs).symm⟩
  | woken last =>
    simp only [phaseOf, h.latest]
    simp only [RoutingFeed.advance] at hs
    cases hl : f.latestRoutingSnapshot with
    | none =>
      rw [hl] at hs
      exact ⟨_, rfl, hwait last (Option.some.inj hs).symm⟩
    | some newSnapshot =>
      simp only [hl] at hs
      by_cases hnew : newSnapshot.timestampNs > last.timestampNs
      · rw [if_pos hnew] at hs
        obtain rfl := Option.some.inj hs
        exact ⟨_, if_pos hnew, rfl⟩
      · rw [if_neg hnew] at hs
        exact ⟨_, if_neg hnew, hwait last (Option.some.inj hs).symm⟩
  | waiting last => cases hs
  | ended => cases hs

/-- A step of the feed is made up of steps with no other in between. -/
theorem step_mirrored (h : Mirrors f s) {a : RoutingFeed.Act} (ha : Reads a)
    (hs : RoutingFeed.step f a = some f') :
    ∃ bs s', Runs.exec step bs s = some s' ∧ Mirrors f' s' := by
  cases a with
  | publish p =>
    obtain ⟨hlt, hs⟩ := Option.ite_none_right_eq_some.mp hs
    obtain rfl := Option.some.inj hs
    obtain ⟨g, he⟩ := ha
    rw [he]
    exact publish_mirrored h g hlt
  | subscribe p =>
    obtain ⟨hlt, hs⟩ := Option.ite_none_right_eq_some.mp hs
    obtain rfl := Option.some.inj hs
    obtain ⟨g, he⟩ := ha
    rw [he]
    exact subscribe_mirrored h g hlt
  | resume k =>
    obtain ⟨y', hy', rfl⟩ := Option.map_eq_some_iff.mp hs
    obtain ⟨y, hy, hadv⟩ := Option.bind_eq_some_iff.mp hy'
    obtain ⟨x, hx, hphase⟩ := phase_at h hy
    obtain ⟨x', hx', hphase'⟩ := advance_mirrored h hphase hadv
    refine ⟨[.stream k 0], _, Runs.exec_cons.mpr ⟨_, ?_, rfl⟩, h.set hphase'⟩
    rw [step, hx, Option.bind_some, hx', Option.map_some]
  | cancel k =>
    obtain ⟨hk, rfl⟩ := Option.ite_some_none_eq_some.mp hs
    obtain ⟨x, hx, -⟩ := phase_at h (List.getElem?_eq_getElem hk)
    refine ⟨[.cancel k], _, Runs.exec_cons.mpr ⟨_, ?_, rfl⟩,
      h.set (x := { x with phase := .ended }) rfl⟩
    rw [step, hx, Option.map_some]

/-- Every run of the feed that publishes tables of registries is one of the
head with its switches. -/
theorem run_mirrored (h : Mirrors f s) {as : List RoutingFeed.Act} (ha : ∀ a ∈ as, Reads a)
    (hr : Runs.exec RoutingFeed.step as f = some f') :
    ∃ bs s', Runs.exec step bs s = some s' ∧ Mirrors f' s' := by
  induction as generalizing f s with
  | nil => exact ⟨[], s, rfl, Option.some.inj hr ▸ h⟩
  | cons a as ih =>
    obtain ⟨f₁, hs, hr⟩ := Runs.exec_cons.mp hr
    obtain ⟨bs, s₁, hbs, h₁⟩ := step_mirrored h (ha a (List.mem_cons_self ..)) hs
    obtain ⟨cs, s₂, hcs, h₂⟩ := ih h₁ (fun b hb => ha b (List.mem_cons_of_mem _ hb)) hr
    exact ⟨bs ++ cs, s₂, by rw [Runs.exec_append, hbs, Option.bind_some, hcs], h₂⟩

end

theorem feed_mirrored (registry : Registry) (clock : ℕ) {as : List RoutingFeed.Act}
    {f : RoutingFeed.Feed} (ha : ∀ a ∈ as, Reads a)
    (hr : Runs.exec RoutingFeed.step as (RoutingFeed.initial clock) = some f) :
    ∃ bs s, Runs.exec step bs (initial registry clock) = some s ∧ Mirrors f s :=
  run_mirrored ⟨rfl, rfl, rfl, rfl⟩ ha hr

end ServingSystem.Head.SnapshotOrder
