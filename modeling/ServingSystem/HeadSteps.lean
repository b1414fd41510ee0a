import ServingSystem.CreationTasks

/-!
# What the handlers of the head leave alone

The handlers that answer no creation and remove no replica, and the one that
lists a created replica: what they do to the nodes, to the history, to the
snapshots in use and to the items that wait for a replica.
-/

set_option autoImplicit false

namespace ServingSystem.Head.HeadController
open Protos (ReplicaCreationReply RegisterRequest)
open DeploymentManager Positions

def Creation.item : Creation → Option (String × ℕ)
  | .called address d _ _ => some (address, d)
  | .requesting address d _ _ => some (address, d)
  | .done => none

def State.items (s : State) : List (String × ℕ) :=
  s.replicaQueue ++ s.sleeping.toList ++ s.creations.filterMap Creation.item

def queuedItem (request : RegisterRequest) : String × ℕ :=
  (request.nodeAddress ++ ":" ++ request.port, 2)

def internal : Act → Bool
  | .takeQueued => true
  | .spawnCreation => true
  | .request _ => true
  | .recordMetrics _ _ _ _ => true
  | .subscribe _ => true
  | .resume _ => true
  | .cancel _ => true
  | _ => false

/-- A step that lists and removes nothing. -/
structure Quiet (s s' : State) : Prop where
  history : s'.history = s.history
  nodes : ∀ w ∈ s.registry.nodeMap.keys, w ∈ s'.registry.nodeMap.keys
  snapshots : ∀ p ∈ RoutingFeed.snapshots s'.feed, p ∈ RoutingFeed.snapshots s.feed ∨
    ∃ t, p = getCurrentRoutingTable s.registry t

theorem mem_snapshots {f : RoutingFeed.Feed} {p : Protos.RoutingUpdate} :
    p ∈ RoutingFeed.snapshots f ↔ f.latestRoutingSnapshot = some p ∨
      (∃ x ∈ f.streams, p ∈ x.snapshots) ∨ p ∈ f.published := by
  simp [RoutingFeed.snapshots]

/-- A stream goes on with the snapshots it has and the shared one. -/
theorem advance_snapshots {f : RoutingFeed.Feed} {x y : RoutingFeed.Stream}
    (h : RoutingFeed.advance f x = some y) {p : Protos.RoutingUpdate} (hp : p ∈ y.snapshots) :
    p ∈ x.snapshots ∨ f.latestRoutingSnapshot = some p := by
  have hwait : ∀ last, p ∈ (RoutingFeed.wait f last).snapshots → p = last := by
    intro last hm
    unfold RoutingFeed.wait at hm
    split at hm <;> exact List.mem_singleton.mp hm
  cases x with
  | yieldingInitial snapshot =>
    obtain rfl := Option.some.inj h
    exact Or.inl (List.mem_singleton.mpr (hwait _ hp))
  | yielding last snapshot =>
    obtain rfl := Option.some.inj h
    exact Or.inl (hwait _ hp ▸ List.mem_cons_of_mem _ (List.mem_singleton_self _))
  | woken last =>
    simp only [RoutingFeed.advance] at h
    split at h
    next newSnapshot hn =>
      split at h
      next =>
        obtain rfl := Option.some.inj h
        rcases List.mem_cons.mp hp with rfl | hp
        · exact Or.inl (List.mem_singleton_self _)
        · exact Or.inr (List.mem_singleton.mp hp ▸ hn)
      next =>
        obtain rfl := Option.some.inj h
        exact Or.inl (List.mem_singleton.mpr (hwait _ hp))
    next =>
      obtain rfl := Option.some.inj h
      exact Or.inl (List.mem_singleton.mpr (hwait _ hp))
  | waiting last => cases h
  | ended => cases h

theorem resume_snapshots {f f' : RoutingFeed.Feed} {k : ℕ}
    (h : RoutingFeed.step f (.resume k) = some f') :
    ∀ p ∈ RoutingFeed.snapshots f', p ∈ RoutingFeed.snapshots f := by
  obtain ⟨y, hy, rfl⟩ := Option.map_eq_some_iff.mp h
  obtain ⟨x, hx, hadv⟩ := Option.bind_eq_some_iff.mp hy
  intro p hp
  rw [mem_snapshots] at hp ⊢
  rcases hp with hp | ⟨z, hz, hp⟩ | hp
  · exact Or.inl hp
  · rcases mem_set hz with rfl | hz
    · rcases advance_snapshots hadv hp with hp | hp
      · exact Or.inr (Or.inl ⟨x, List.mem_of_getElem? hx, hp⟩)
      · exact Or.inl hp
    · exact Or.inr (Or.inl ⟨z, hz, hp⟩)
  · exact Or.inr (Or.inr hp)

theorem cancel_snapshots {f f' : RoutingFeed.Feed} {k : ℕ}
    (h : RoutingFeed.step f (.cancel k) = some f') :
    ∀ p ∈ RoutingFeed.snapshots f', p ∈ RoutingFeed.snapshots f := by
  obtain ⟨-, rfl⟩ := Option.ite_some_none_eq_some.mp h
  intro p hp
  rw [mem_snapshots] at hp ⊢
  rcases hp with hp | ⟨z, hz, hp⟩ | hp
  · exact Or.inl hp
  · rcases mem_set hz with rfl | hz
    · cases hp
    · exact Or.inr (Or.inl ⟨z, hz, hp⟩)
  · exact Or.inr (Or.inr hp)

theorem subscribe_snapshots (f : RoutingFeed.Feed) (p₀ : Protos.RoutingUpdate) :
    ∀ p ∈ RoutingFeed.snapshots (RoutingFeed.subscribe f p₀),
      p ∈ RoutingFeed.snapshots f ∨ p = p₀ := by
  intro p hp
  rw [mem_snapshots] at hp ⊢
  rcases hp with hp | ⟨z, hz, hp⟩ | hp
  · exact Or.inr (Option.some.inj hp).symm
  · rcases List.mem_append.mp hz with hz | hz
    · exact Or.inl (Or.inr (Or.inl ⟨z, hz, hp⟩))
    · obtain rfl := List.mem_singleton.mp hz
      exact Or.inr (List.mem_singleton.mp hp)
  · exact Or.inl (Or.inr (Or.inr hp))

theorem wake_snapshots (x : RoutingFeed.Stream) : (RoutingFeed.wake x).snapshots = x.snapshots := by
  cases x <;> rfl

theorem published_snapshots (f : RoutingFeed.Feed) (p₀ : Protos.RoutingUpdate) :
    ∀ p ∈ RoutingFeed.snapshots (RoutingFeed.onDeploymentChange f p₀),
      p ∈ RoutingFeed.snapshots f ∨ p = p₀ := by
  intro p hp
  rw [mem_snapshots] at hp ⊢
  rcases hp with hp | ⟨z, hz, hp⟩ | hp
  · exact Or.inr (Option.some.inj hp).symm
  · obtain ⟨x, hx, rfl⟩ := List.mem_map.mp hz
    rw [wake_snapshots] at hp
    exact Or.inl (Or.inr (Or.inl ⟨x, hx, hp⟩))
  · rcases List.mem_append.mp hp with hp | hp
    · exact Or.inl (Or.inr (Or.inr hp))
    · exact Or.inr (List.mem_singleton.mp hp)

theorem Quiet.tasks (s : State) (replicaQueue : List (String × ℕ))
    (sleeping : Option (String × ℕ)) (creations : List Creation) (pendingReplicas : List ℕ) :
    Quiet s { s with replicaQueue, sleeping, creations, pendingReplicas } :=
  ⟨rfl, fun _ h => h, fun _ h => Or.inl h⟩

theorem Quiet.feed {s : State} {f : RoutingFeed.Feed}
    (h : ∀ p ∈ RoutingFeed.snapshots f, p ∈ RoutingFeed.snapshots s.feed) :
    Quiet s { s with feed := f } :=
  ⟨rfl, fun _ h => h, fun p hp => Or.inl (h p hp)⟩

theorem registerNode_quiet (request : RegisterRequest) (s : State) :
    Quiet s (registerNode request s) :=
  ⟨rfl, fun _ h => Dict.mem_keys_set.mpr (Or.inr h), fun _ h => Or.inl h⟩

theorem failed_quiet {s s' : State} {k : ℕ} (hs : step s (.failed k) = some s') : Quiet s s' := by
  obtain ⟨_, _, _, _, -, rfl⟩ := step_failed hs
  exact Quiet.tasks s _ _ _ _

theorem internal_quiet {s s' : State} {a : Act} (ha : internal a = true)
    (hs : step s a = some s') : Quiet s s' := by
  cases a with
  | takeQueued =>
    obtain ⟨_, _, -, -, rfl⟩ := step_takeQueued hs
    exact Quiet.tasks s _ _ _ _
  | spawnCreation =>
    obtain ⟨item, -, rfl⟩ := Option.map_eq_some_iff.mp hs
    exact Quiet.tasks s _ _ _ _
  | request k =>
    obtain ⟨_, _, _, _, -, rfl⟩ := step_request hs
    exact Quiet.tasks s _ _ _ _
  | recordMetrics w n avg sent =>
    obtain rfl := Option.some.inj hs
    exact ⟨rfl, fun _ h => h, fun _ h => Or.inl h⟩
  | subscribe t =>
    obtain rfl := Option.some.inj hs
    refine ⟨rfl, fun _ h => h, fun p hp => ?_⟩
    rcases subscribe_snapshots s.feed _ p hp with hp | rfl
    · exact Or.inl hp
    · exact Or.inr ⟨t, rfl⟩
  | resume k =>
    obtain ⟨f, hf, rfl⟩ := Option.map_eq_some_iff.mp hs
    exact Quiet.feed (resume_snapshots hf)
  | cancel k =>
    obtain ⟨f, hf, rfl⟩ := Option.map_eq_some_iff.mp hs
    exact Quiet.feed (cancel_snapshots hf)
  | _ => cases ha

def State.listedReplica (s : State) (d c u w : ℕ) (p : Protos.ReplicaContent)
    (address : String) (t : ℕ) : State :=
  onDeploymentChange t { s with
    registry := (s.registry.placed d w c u address p).charged w c u }

theorem replied_one {s : State} {d c u w t : ℕ} {p : Protos.ReplicaContent} {address : String}
    (hd : d ∈ s.registry.ids) (hw : w ∈ s.registry.nodeMap.keys) :
    replied d c u ⟨w, [p], address, true⟩ t s = s.listedReplica d c u w p address t := by
  obtain ⟨dep, hdep⟩ := Dict.mem_keys.mp hd
  obtain ⟨node, hnode⟩ := Dict.mem_keys.mp hw
  have hadd := add_one hdep w c u address p
  rw [hnode] at hadd
  simp only [replied, if_true]
  rw [run_ok hadd]
  rfl

theorem replied_refused {s : State} {d c u t : ℕ} {response : ReplicaCreationReply}
    (h : ¬ response.created) : replied d c u response t { s with
      history := s.history ++ answered d response } = s := by
  rw [replied, answered, if_neg h, if_neg h, List.append_nil]

section
variable {s s' : State}

theorem mem_items {item : String × ℕ} : item ∈ s.items ↔ item ∈ s.replicaQueue ∨
    s.sleeping = some item ∨ item ∈ s.creations.filterMap Creation.item := by
  simp only [State.items, List.mem_append, Option.mem_toList, or_assoc]

theorem internal_items {a : Act} (ha : internal a = true) (hs : step s a = some s') :
    s'.items.Subperm s.items := by
  cases a with
  | takeQueued =>
    obtain ⟨item, queue, hw, hq, rfl⟩ := step_takeQueued hs
    have hperm : (queue ++ [item]).Perm (item::queue) := List.perm_append_singleton item queue
    simpa [State.items, hw, hq] using (hperm.append_right _).subperm
  | spawnCreation =>
    obtain ⟨item, hw, rfl⟩ := Option.map_eq_some_iff.mp hs
    have hperm : (s.creations.filterMap Creation.item ++ [item]).Perm
        ([item] ++ s.creations.filterMap Creation.item) := List.perm_append_comm
    simpa [State.items, hw, Creation.item] using (hperm.append_left s.replicaQueue).subperm
  | request k =>
    obtain ⟨address, d, c, u, hk, rfl⟩ := step_request hs
    refine (List.subperm_append_left _).mpr ?_
    split
    · have heq := filterMap_set_eq (f := Creation.item) (b := .requesting address d c u) hk rfl
      exact (List.Perm.of_eq heq).subperm
    · exact (List.sublist_cons_self _ _).subperm.trans
        (filterMap_unset_perm (f := Creation.item) hk rfl rfl).subperm
  | recordMetrics w n avg sent =>
    obtain rfl := Option.some.inj hs
    exact List.Subperm.refl _
  | subscribe t =>
    obtain rfl := Option.some.inj hs
    exact List.Subperm.refl _
  | resume k =>
    obtain ⟨f, -, rfl⟩ := Option.map_eq_some_iff.mp hs
    exact List.Subperm.refl _
  | cancel k =>
    obtain ⟨f, -, rfl⟩ := Option.map_eq_some_iff.mp hs
    exact List.Subperm.refl _
  | _ => cases ha

theorem registerNode_items (request : RegisterRequest) (s : State) :
    (registerNode request s).items.Perm (queuedItem request::s.items) := by
  change (s.replicaQueue ++ [queuedItem request] ++ s.sleeping.toList ++ _).Perm _
  simp only [State.items, List.append_assoc]
  exact List.perm_middle

/-- A task that has run its first step goes on waiting, or has ended. -/
theorem step_started {a : Act} (hs : step s a = some s') {k : ℕ} {x : Creation}
    (hk : s.creations[k]? = some x) (hx : ∀ address d c u, x ≠ .called address d c u) :
    s'.creations[k]? = some x ∨ s'.creations[k]? = some .done := by
  have hlt := (List.getElem?_eq_some_iff.mp hk).1
  rcases step_creations s a s' hs with h | ⟨_, _, _, _, h⟩ | ⟨j, _, _, _, _, -, hj, h⟩ |
    ⟨j, -, h⟩
  · exact Or.inl (h ▸ hk)
  · exact Or.inl (by rw [h, List.getElem?_append_left hlt, hk])
  · have hne : j ≠ k := by
      rintro rfl
      exact hx _ _ _ _ (Option.some.inj (hk.symm.trans hj))
    exact Or.inl (by rw [h, List.getElem?_set_ne hne, hk])
  · by_cases hjk : j = k
    · subst hjk
      exact Or.inr (by rw [h, List.getElem?_set_self hlt])
    · exact Or.inl (by rw [h, List.getElem?_set_ne hjk, hk])

/-- A task that ends leaves the other items where they are. -/
theorem ended_items {a : Act} (hs : step s a = some s') {k : ℕ}
    (ha : a = .failed k ∨ ∃ response t, a = .reply k response t) : ∃ address d c u,
      s.creations[k]? = some (.requesting address d c u) ∧
      ((address, d)::s'.items).Perm s.items := by
  have hdone : ∀ {x : Creation} {item : String × ℕ}, s.creations[k]? = some x →
      x.item = some item →
      (item::(s.replicaQueue ++ s.sleeping.toList ++
        (s.creations.set k .done).filterMap Creation.item)).Perm s.items :=
    fun hk hi => List.perm_middle.symm.trans ((filterMap_unset_perm hk hi rfl).append_left _)
  rcases ha with rfl | ⟨response, t, rfl⟩
  · obtain ⟨address, d, c, u, hk, rfl⟩ := step_failed hs
    exact ⟨address, d, c, u, hk, hdone hk rfl⟩
  · obtain ⟨address, d, c, u, hk, rfl⟩ := step_reply hs
    refine ⟨address, d, c, u, hk, ?_⟩
    rw [replied_frame State.items (fun _ _ _ _ _ => rfl)]
    exact hdone hk rfl

/-- For each task the address it was started for, where an address asked for
as many replicas as the map says, those that still wait included. -/
structure Origins (s : State) (origins : List String) (asks : String → ℕ) : Prop where
  length : origins.length = s.creations.length
  item : ∀ (k : ℕ) x item, s.creations[k]? = some x → x.item = some item →
    origins[k]? = some item.1
  count : ∀ address, origins.count address+
    (s.replicaQueue ++ s.sleeping.toList).countP (fun item => item.1 = address) = asks address

variable {origins : List String} {asks : String → ℕ}

theorem Origins.frame (h : Origins s origins asks)
    (he : (s'.creations, s'.replicaQueue, s'.sleeping) =
      (s.creations, s.replicaQueue, s.sleeping)) : Origins s' origins asks := by
  obtain ⟨hc, he⟩ := Prod.mk.inj he
  obtain ⟨hq, hw⟩ := Prod.mk.inj he
  exact ⟨hc ▸ h.length, hc ▸ h.item, hq ▸ hw ▸ h.count⟩

theorem Origins.set (h : Origins s origins asks) {k : ℕ} {x y : Creation}
    (hk : s.creations[k]? = some x) (hy : y.item = x.item ∨ y.item = none) :
    Origins { s with creations := s.creations.set k y } origins asks := by
  refine ⟨by simpa using h.length, fun j z item hz hi => ?_, h.count⟩
  rcases getElem?_set_cases hz with ⟨rfl, rfl⟩ | ⟨-, hz⟩
  · rcases hy with hy | hy
    · exact h.item j x item hk (hy ▸ hi)
    · rw [hy] at hi
      cases hi
  · exact h.item j z item hz hi

theorem Origins.register (h : Origins s origins asks) (request : RegisterRequest) :
    Origins (registerNode request s) origins
      (fun address => asks address+if (queuedItem request).1 = address then 1 else 0) := by
  refine ⟨h.length, h.item, fun address => ?_⟩
  change _+(s.replicaQueue ++ [queuedItem request] ++ s.sleeping.toList).countP _ = _
  rw [← h.count]
  simp only [List.countP_append, List.countP_singleton, decide_eq_true_eq]
  omega

theorem Origins.internal (h : Origins s origins asks) {a : Act} (ha : internal a = true)
    (hs : step s a = some s') : ∃ origins', origins <+: origins' ∧ Origins s' origins' asks := by
  cases a with
  | takeQueued =>
    obtain ⟨item, queue, hw, hq, rfl⟩ := step_takeQueued hs
    refine ⟨origins, List.prefix_rfl, h.length, h.item, fun address => ?_⟩
    rw [← h.count, hw, hq, Option.toList_none, Option.toList_some, List.append_nil,
      (List.perm_append_singleton item queue).countP_eq]
  | spawnCreation =>
    obtain ⟨item, hw, rfl⟩ := Option.map_eq_some_iff.mp hs
    refine ⟨origins ++ [item.1], List.prefix_append _ _, by simp [h.length], fun k x i hk hi => ?_,
      fun address => ?_⟩
    · rcases getElem?_snoc.mp hk with hk | ⟨rfl, rfl⟩
      · have hk := h.item k x i hk hi
        rwa [List.getElem?_append_left (List.getElem?_eq_some_iff.mp hk).1]
      · obtain rfl := Option.some.inj hi
        rw [← h.length, List.getElem?_concat_length]
    · rw [← h.count, hw]
      simp only [List.count_append, List.count_singleton, List.countP_append, Option.toList_none,
        Option.toList_some, List.countP_nil, List.countP_singleton, beq_iff_eq, decide_eq_true_eq]
      omega
  | request k =>
    obtain ⟨address, d, c, u, hk, rfl⟩ := step_request hs
    refine ⟨origins, List.prefix_rfl, h.set hk ?_⟩
    split
    · exact Or.inl rfl
    · exact Or.inr rfl
  | recordMetrics w n avg sent =>
    obtain rfl := Option.some.inj hs
    exact ⟨origins, List.prefix_rfl, h.frame rfl⟩
  | subscribe t =>
    obtain rfl := Option.some.inj hs
    exact ⟨origins, List.prefix_rfl, h.frame rfl⟩
  | resume k =>
    obtain ⟨f, -, rfl⟩ := Option.map_eq_some_iff.mp hs
    exact ⟨origins, List.prefix_rfl, h.frame rfl⟩
  | cancel k =>
    obtain ⟨f, -, rfl⟩ := Option.map_eq_some_iff.mp hs
    exact ⟨origins, List.prefix_rfl, h.frame rfl⟩
  | _ => cases ha

theorem Origins.ended (h : Origins s origins asks) {a : Act} (hs : step s a = some s') {k : ℕ}
    (ha : a = .failed k ∨ ∃ response t, a = .reply k response t) : Origins s' origins asks := by
  rcases ha with rfl | ⟨response, t, rfl⟩
  · obtain ⟨_, _, _, _, hk, rfl⟩ := step_failed hs
    exact (h.set hk (Or.inr rfl)).frame rfl
  · obtain ⟨_, _, _, _, hk, rfl⟩ := step_reply hs
    exact (h.set hk (Or.inr rfl)).frame (replied_frame
      (fun s => (s.creations, s.replicaQueue, s.sleeping)) (fun _ _ _ _ _ => rfl) _ _ _ _ _ _)

end

end ServingSystem.Head.HeadController
