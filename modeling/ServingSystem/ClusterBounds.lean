import ServingSystem.ClusterRouting
import Mathlib.Algebra.Order.BigOperators.Group.Finset

/-!
# How much a registration starts

Each registration that the head handles starts one task, at the address of its
worker; a task is attempted three times at most, and each attempt is handled
once at most. So the handlers of a worker are at most three for each of its
registrations, and its listed replicas at most one.
-/

set_option autoImplicit false

namespace ServingSystem.Cluster
open Head DeploymentManager HeadController WorkerRegistry Positions
open RetriedCreation (numAttempts)

def asks (nodes : List (ℕ × String)) (registrations : List ℕ) (address : String) : ℕ :=
  registrations.countP (fun j => nodes[j]?.any (fun n => endpoint n.2 = address))

def adds (p : String → Bool) : Event → Bool
  | .added _ key _ => p key
  | .dead _ => false

/-- Which registrations, waiting items and added replicas count: an item only
where its registration does, and a replica only where its item did. -/
structure Charge (nodes : List (ℕ × String)) where
  registered : ℕ → Bool
  asked : String → Bool
  added : String → Bool
  of_asked : ∀ (j : ℕ) n, nodes[j]? = some n → asked (endpoint n.2) → registered j
  of_added : ∀ (j : ℕ) n, nodes[j]? = some n → ∀ id, added (replicaId n.1 id) →
    asked (endpoint n.2)

def Charge.Covers {nodes : List (ℕ × String)} (c : Charge nodes) (head : HeadController.State)
    (registrations : List ℕ) : Prop :=
  head.history.countP (adds c.added)+head.items.countP (fun item => c.asked item.1) ≤
    registrations.countP c.registered

structure Counted (nodes : List (ℕ × String)) (s : State) (origins : List String) : Prop where
  tries : ∀ task, s.tries task ≤ numAttempts
  started : Origins s.head origins (asks nodes s.registrations)
  attempted : ∀ a ∈ s.attempts, origins[a.task]? = some a.address
  reached : ∀ a ∈ s.attempts, ∀ j i, a.handler = some (j, i) →
    ∃ n, nodes[j]? = some n ∧ a.address = endpoint n.2
  handlers : ∀ (j : ℕ) w, s.workers[j]? = some w →
    w.replicaNum = s.attempts.countP (fun a => a.handler.any (fun h => h.1 = j))
  charged : ∀ c : Charge nodes, c.Covers s.head s.registrations

def listedCount (p : String → Bool) (g : Registry) : ℕ :=
  (g.deployments.entries.map (fun e => e.2.replicas.countP (fun r => p r.replicaNum))).sum

/-- Each registration is charged with at most three handlers and one listed
replica of its worker. -/
structure Bounded (s : State) : Prop where
  handlers : ∀ (j : ℕ) w, s.workers[j]? = some w → w.calls.length ≤ 3*s.registrations.count j
  ids : ∀ w ∈ s.workers, (w.calls.map Scheduler.Call.replicaId).Nodup
  launched : ∀ w ∈ s.workers, ∀ l ∈ ReplicaPorts.launches w, l.replicaId ≤ w.calls.length
  listed : ∀ (j : ℕ) w, s.workers[j]? = some w →
    listedCount (belongs w.workerId) s.head.registry ≤ s.registrations.count j
  total : listedCount (fun _ => true) s.head.registry ≤ s.registrations.length

/-- Elements of a list, each at most so often, are few. -/
theorem length_le_mul {l m : List ℕ} {k : ℕ} (hm : ∀ x ∈ l, x ∈ m) (hc : ∀ x, l.count x ≤ k) :
    l.length ≤ k*m.length := by
  have hsum : ∑ i ∈ m.toFinset, (l : Multiset ℕ).count i = l.length :=
    Multiset.sum_count_eq_card (fun x hx => List.mem_toFinset.mpr (hm x (by simpa using hx)))
  have hle := Finset.sum_le_card_nsmul m.toFinset (fun i => (l : Multiset ℕ).count i) k
    (fun i _ => by simpa using hc i)
  rw [hsum, Nat.nsmul_eq_mul, Nat.mul_comm] at hle
  exact hle.trans (Nat.mul_le_mul_left k m.toFinset_card_le)

def positions (x : String) (l : List String) : List ℕ :=
  (l.zipIdx.filter (fun p => p.1 = x)).map Prod.snd

theorem mem_positions {x : String} {l : List String} {k : ℕ} :
    k ∈ positions x l ↔ l[k]? = some x := by
  simp [positions, List.mem_zipIdx_iff_getElem?]

theorem positions_length (x : String) (l : List String) : (positions x l).length = l.count x := by
  have hmap : l.zipIdx.map Prod.fst = l := List.zipIdx_map_fst 0 l
  calc (positions x l).length
      = l.zipIdx.countP (fun p => p.1 = x) := by
        rw [positions, List.length_map, List.countP_eq_length_filter]
    _ = (l.zipIdx.map Prod.fst).countP (fun y => y = x) := by
        rw [List.countP_map]
        rfl
    _ = l.count x := by
        rw [hmap, List.count_eq_countP]
        rfl

section
variable {deployments : Dict ℕ DeploymentHandle} {nodes : List (ℕ × String)} {s s' : State}
  {origins : List String}

theorem sum_indicator_le {l : List ℕ} (hl : l.Nodup) (d : ℕ) :
    (l.map (fun d' => if d = d' then 1 else 0)).sum ≤ 1 := by
  have hcount : (l.map (fun d' => if d = d' then 1 else 0)).sum = l.count d := by
    rw [List.count_eq_countP, List.countP_eq_length_filter, List.sum_map_ite]
    simp [beq_eq_decide, eq_comm]
  exact hcount ▸ List.nodup_iff_count_le_one.mp hl d

/-- An event adds to the live replicas of at most one deployment. -/
theorem live_sum (p : String → Bool) {ds : List ℕ} (hds : ds.Nodup) (events : List Event) :
    (ds.map (fun d => (live events d).countP (fun r => p r.1))).sum ≤ events.countP (adds p) := by
  induction events with
  | nil => simp [live]
  | cons e events ih =>
    cases e with
    | added d' key address =>
      have hone : ∀ d ∈ ds, (live (.added d' key address::events) d).countP (fun r => p r.1) ≤
          (live events d).countP (fun r => p r.1)+
            if d' = d then (if p key then 1 else 0) else 0 := by
        intro d _
        by_cases hd : d' = d <;> by_cases hk : Event.dead key ∉ events <;>
          simp [live, hd, hk, List.countP_cons]
      have hrest : (ds.map (fun d => if d' = d then (if p key then 1 else 0) else 0)).sum ≤
          if p key then 1 else 0 := by
        split
        · exact sum_indicator_le hds d'
        · simp
      calc (ds.map (fun d => (live (.added d' key address::events) d).countP
            (fun r => p r.1))).sum
          ≤ (ds.map (fun d => (live events d).countP (fun r => p r.1)+
              if d' = d then (if p key then 1 else 0) else 0)).sum := List.sum_le_sum hone
        _ = (ds.map (fun d => (live events d).countP (fun r => p r.1))).sum+
            (ds.map (fun d => if d' = d then (if p key then 1 else 0) else 0)).sum :=
            List.sum_map_add
        _ ≤ events.countP (adds p)+(if p key then 1 else 0) := Nat.add_le_add ih hrest
        _ = (.added d' key address::events).countP (adds p) := by
            rw [List.countP_cons]
            rfl
    | dead key => exact ih

theorem Charge.Covers.quiet {c : Charge nodes} {head head' : HeadController.State}
    {registrations : List ℕ} (h : c.Covers head registrations)
    (hhist : head'.history = head.history) (hitems : head'.items.Subperm head.items) :
    c.Covers head' registrations := by
  unfold Charge.Covers at h ⊢
  rw [hhist]
  exact (Nat.add_le_add_left (hitems.countP_le _) _).trans h

theorem Counted.head (hc : Counted nodes s origins) {head : HeadController.State}
    {origins' : List String} (hpre : origins <+: origins') {registrations : List ℕ}
    (ho : Origins head origins' (asks nodes registrations))
    (hcharged : ∀ c : Charge nodes, c.Covers head registrations) :
    Counted nodes { s with head, registrations } origins' where
  tries := hc.tries
  started := ho
  attempted x hx := by
    obtain ⟨hlt, he⟩ := List.getElem?_eq_some_iff.mp (hc.attempted x hx)
    obtain ⟨rest, rfl⟩ := hpre
    rw [List.getElem?_append_left hlt, hc.attempted x hx]
  reached := hc.reached
  handlers := hc.handlers
  charged := hcharged

theorem register_counted (hi : Inv deployments nodes s) (hc : Counted nodes s origins) {j : ℕ}
    {resource : Protos.Resource} (hs : register j resource s = some s') :
    Counted nodes s' origins := by
  obtain ⟨w, hw, rfl⟩ := Option.map_eq_some_iff.mp hs
  have hnode := hi.node hw
  refine hc.head List.prefix_rfl ?_ (fun c => ?_)
  · have ho := hc.started.register (registerRequest w resource)
    have hasks : (fun address => asks nodes s.registrations address+
        if (queuedItem (registerRequest w resource)).1 = address then 1 else 0) =
        asks nodes (s.registrations ++ [j]) := by
      funext address
      rw [asks, asks, List.countP_append, List.countP_singleton, hnode]
      simp [queuedItem, registerRequest, endpoint, identity]
    rwa [hasks] at ho
  · have hold := hc.charged c
    have hof := c.of_asked j _ hnode
    unfold Charge.Covers at hold ⊢
    rw [(registerNode_items _ s.head).countP_eq, List.countP_cons, List.countP_append,
      List.countP_singleton]
    change s.head.history.countP _+(_+if c.asked (endpoint w.nodeAddress) then 1 else 0) ≤ _
    by_cases hask : c.asked (endpoint w.nodeAddress)
    · rw [if_pos hask, if_pos (hof hask)]
      omega
    · rw [if_neg hask]
      omega

theorem attempt_counted (hc : Counted nodes s origins) {task : ℕ}
    (hs : attempt task s = some s') : Counted nodes s' origins := by
  obtain ⟨address, d, c, u, dep, hk, ht, -, rfl⟩ := attempt_step hs
  refine ⟨fun task' => ?_, hc.started, fun x hx => ?_, fun x hx j i hh => ?_, fun j w hw => ?_,
    hc.charged⟩
  · have hle := hc.tries task'
    have heq : State.tries { s with
        attempts := s.attempts ++ [⟨task, address, d, dep.deploymentName, none⟩] } task' =
        s.tries task'+(if task = task' then 1 else 0) := by
      simp [State.tries, List.countP_append, List.countP_singleton]
    rw [heq]
    split
    next h => exact h ▸ ht
    next => exact hle
  · rcases List.mem_append.mp hx with hx | hx
    · exact hc.attempted x hx
    · obtain rfl := List.mem_singleton.mp hx
      exact hc.started.item task _ _ hk rfl
  · rcases List.mem_append.mp hx with hx | hx
    · exact hc.reached x hx j i hh
    · obtain rfl := List.mem_singleton.mp hx
      cases hh
  · rw [hc.handlers j w hw]
    simp

theorem arrive_counted (hi : Inv deployments nodes s) (hc : Counted nodes s origins) {n j : ℕ}
    {launch : Option ℕ} (hs : arrive n j launch s = some s') : Counted nodes s' origins := by
  obtain ⟨a, w, w', ha, hw, hnone, haddr, hstep, rfl⟩ := arrive_step hs
  have hinv := (hi.worker w (List.mem_of_getElem? hw)).1
  have hnum : w'.replicaNum = w.replicaNum+1 := create_num hinv hstep
  refine ⟨fun task => ?_, hc.started, fun x hx => ?_, fun x hx j' i hh => ?_, fun k v hk => ?_,
    hc.charged⟩
  · have hmap := map_set_eq (f := Attempt.task) (b := { a with
      handler := some (j, w.calls.length) }) ha rfl
    have hcount : ∀ l : List Attempt, l.countP (fun a => a.task = task) =
        (l.map Attempt.task).countP (fun k => k = task) := fun l => by
      rw [List.countP_map]
      rfl
    rw [State.tries, hcount, hmap, ← hcount]
    exact hc.tries task
  · rcases mem_set hx with rfl | hx
    · exact hc.attempted a (List.mem_of_getElem? ha)
    · exact hc.attempted x hx
  · rcases mem_set hx with rfl | hx
    · obtain ⟨rfl, -⟩ := Prod.mk.inj (Option.some.inj hh)
      exact ⟨identity w, hi.node hw, haddr⟩
    · exact hc.reached x hx j' i hh
  · have hcount := countP_set (fun a : Attempt => a.handler.any (fun h => h.1 = k)) ha
      { a with handler := some (j, w.calls.length) }
    simp only [hnone, Option.any_none, Option.any_some, Bool.false_eq_true, if_false,
      decide_eq_true_eq, sub_zero] at hcount
    rcases getElem?_set_cases hk with ⟨rfl, rfl⟩ | ⟨hne, hk⟩
    · have hold := hc.handlers k w hw
      rw [if_pos rfl] at hcount
      change v.replicaNum = (s.attempts.set n _).countP _
      omega
    · have hold := hc.handlers k v hk
      rw [if_neg hne.symm] at hcount
      change v.replicaNum = (s.attempts.set n _).countP _
      omega

theorem answer_counted (hi : Inv deployments nodes s) (hc : Counted nodes s origins) {n t : ℕ}
    (hs : answer n t s = some s') : Counted nodes s' origins := by
  obtain ⟨a, j, i, w, c, response, h, ha, hh, hw, hcall, hp, hstep, rfl⟩ := answer_step hs
  have hmem := List.mem_of_getElem? ha
  have hends : HeadController.Act.reply a.task response t = .failed a.task ∨ ∃ response' t',
      HeadController.Act.reply a.task response t = .reply a.task response' t' :=
    Or.inr ⟨response, t, rfl⟩
  obtain ⟨address, d, cpus, gpus, hk, hitems⟩ := ended_items hstep hends
  refine hc.head List.prefix_rfl (hc.started.ended hstep hends) (fun charge => ?_)
  by_cases hcr : response.created
  · have hold := hc.charged charge
    obtain ⟨_, _, -, -, he⟩ := created_answer hi hmem hh hw hcall hp hcr hstep
    obtain ⟨_, _, hk', -⟩ := answered_task hi hmem hstep
    obtain ⟨rfl, rfl, -, -⟩ := Creation.requesting.inj (Option.some.inj (hk.symm.trans hk'))
    obtain ⟨node, hnode, haddr⟩ := hc.reached a hmem j i hh
    obtain rfl := Option.some.inj (hnode.symm.trans (hi.node hw))
    have hof := charge.of_added j (identity w) hnode c.replicaId
    rw [← haddr] at hof
    unfold Charge.Covers at hold ⊢
    rw [← hitems.countP_eq, List.countP_cons] at hold
    have hhist : h.history.countP (adds charge.added) =
        s.head.history.countP (adds charge.added)+
          if charge.added (replicaId w.workerId c.replicaId) then 1 else 0 := by
      rw [he]
      change (s.head.history ++ [_]).countP _ = _
      rw [List.countP_append, List.countP_singleton]
      rfl
    rw [hhist]
    by_cases hadd : charge.added (replicaId w.workerId c.replicaId)
    · rw [if_pos hadd]
      rw [if_pos (hof hadd)] at hold
      omega
    · rw [if_neg hadd]
      omega
  · refine (hc.charged charge).quiet ?_ ((List.sublist_cons_self _ _).subperm.trans
      hitems.subperm)
    rw [refused_answer hi hmem hcr hstep]

theorem step_counted (hi : Inv deployments nodes s) (hc : Counted nodes s origins) {a : Act}
    (hs : step s a = some s') : ∃ origins', Counted nodes s' origins' := by
  cases a with
  | register j resource => exact ⟨origins, register_counted hi hc hs⟩
  | attempt task => exact ⟨origins, attempt_counted hc hs⟩
  | arrive n j launch => exact ⟨origins, arrive_counted hi hc hs⟩
  | answer n t => exact ⟨origins, answer_counted hi hc hs⟩
  | giveUp task =>
    obtain ⟨-, hs⟩ := Option.ite_none_right_eq_some.mp hs
    obtain ⟨h, hstep, rfl⟩ := Option.map_eq_some_iff.mp hs
    obtain ⟨_, _, _, _, -, hitems⟩ := ended_items hstep (Or.inl rfl)
    exact ⟨origins, hc.head List.prefix_rfl (hc.started.ended hstep (Or.inl rfl)) (fun c =>
      (hc.charged c).quiet (failed_quiet hstep).history
        ((List.sublist_cons_self _ _).subperm.trans hitems.subperm))⟩
  | report j =>
    obtain ⟨w, -, rfl⟩ := Option.map_eq_some_iff.mp hs
    exact ⟨origins, hc.tries, hc.started, hc.attempted, hc.reached, hc.handlers, hc.charged⟩
  | deliver i t => exact ⟨origins, hi.delivered hs ▸ hc⟩
  | worker j a =>
    obtain ⟨hcreates, hs⟩ := Option.ite_none_left_eq_some.mp hs
    obtain ⟨w, hw, hs⟩ := Option.bind_eq_some_iff.mp hs
    obtain ⟨w', hw', rfl⟩ := Option.map_eq_some_iff.mp hs
    refine ⟨origins, hc.tries, hc.started, hc.attempted, hc.reached, fun k v hk => ?_,
      hc.charged⟩
    rcases getElem?_set_cases hk with ⟨rfl, rfl⟩ | ⟨-, hk⟩
    · rcases (step_identity (hi.worker w (List.mem_of_getElem? hw)).1 hw').2.2 with
        ⟨_, _, _, he, -⟩ | h
      · exact absurd (he ▸ rfl : creates a = true) hcreates
      · exact h.trans (hc.handlers k w hw)
    · exact hc.handlers k v hk
  | head a =>
    obtain ⟨hint, hs⟩ := Option.ite_none_right_eq_some.mp hs
    obtain ⟨h, hstep, rfl⟩ := Option.map_eq_some_iff.mp hs
    obtain ⟨origins', hpre, ho⟩ := hc.started.internal hint hstep
    exact ⟨origins', hc.head hpre ho (fun c => (hc.charged c).quiet
      (internal_quiet hint hstep).history (internal_items hint hstep))⟩

def Charge.all (nodes : List (ℕ × String)) : Charge nodes where
  registered _ := true
  asked _ := true
  added _ := true
  of_asked _ _ _ _ := rfl
  of_added _ _ _ _ _ := rfl

def Charge.ofWorker (hn : (nodes.map Prod.fst).Nodup) (ha : (nodes.map Prod.snd).Nodup) {j : ℕ}
    {n : ℕ × String} (hj : nodes[j]? = some n) : Charge nodes where
  registered k := k = j
  asked address := address = endpoint n.2
  added key := belongs n.1 key
  of_asked k m hm h := decide_eq_true (index_unique ha hm hj (endpoint_inj (of_decide_eq_true h)))
  of_added k m hm id h := by
    obtain rfl := index_unique hn hj hm (belongs_replicaId.mp h)
    obtain rfl := Option.some.inj (hj.symm.trans hm)
    exact decide_eq_true rfl

theorem Inv.listed_le (hi : Inv deployments nodes s) (p : String → Bool) :
    listedCount p s.head.registry ≤ s.head.history.countP (adds p) := by
  have hlive : ∀ e ∈ s.head.registry.deployments.entries,
      e.2.replicas.countP (fun r => p r.replicaNum) =
        (live s.head.history e.1).countP (fun r => p r.1) := by
    intro e hm
    have hlist := hi.head.tracks.lists e.1
    rw [Dict.get_eq_some.mpr hm] at hlist
    obtain ⟨dep, -, he⟩ := Option.map_eq_some_iff.mp hlist.symm
    rw [(Prod.mk.inj he).2, List.countP_map]
    rfl
  have hkeys : s.head.registry.deployments.entries.map
        (fun e => (live s.head.history e.1).countP (fun r => p r.1)) =
      s.head.registry.deployments.keys.map
        (fun d => (live s.head.history d).countP (fun r => p r.1)) := by
    rw [Dict.keys, List.map_map]
    rfl
  rw [listedCount, List.map_congr_left hlive, hkeys]
  exact live_sum p s.head.registry.deployments.nodup _

theorem Counted.listed (hc : Counted nodes s origins) (hi : Inv deployments nodes s)
    (c : Charge nodes) :
    listedCount c.added s.head.registry ≤ s.registrations.countP c.registered :=
  (hi.listed_le c.added).trans ((Nat.le_add_right _ _).trans (hc.charged c))

/-- The attempts at an address, three for each registration at it. -/
theorem Counted.attempts_le (hc : Counted nodes s origins) (address : String) :
    s.attempts.countP (fun a => a.address = address) ≤
      numAttempts*asks nodes s.registrations address := by
  have hlen := length_le_mul
    (l := (s.attempts.filter (fun a => a.address = address)).map Attempt.task)
    (m := positions address origins) (k := numAttempts) (fun task hm => ?_) (fun task => ?_)
  · rw [List.length_map, ← List.countP_eq_length_filter, positions_length] at hlen
    refine hlen.trans (Nat.mul_le_mul_left _ ?_)
    exact (Nat.le_add_right _ _).trans (hc.started.count address).le
  · obtain ⟨a, ha, rfl⟩ := List.mem_map.mp hm
    obtain ⟨ha, he⟩ := List.mem_filter.mp ha
    exact mem_positions.mpr (of_decide_eq_true he ▸ hc.attempted a ha)
  · have hsub : ((s.attempts.filter (fun a => a.address = address)).map Attempt.task).Sublist
        (s.attempts.map Attempt.task) := List.filter_sublist.map _
    refine (hsub.count_le task).trans (le_of_eq_of_le ?_ (hc.tries task))
    rw [List.count_eq_countP, List.countP_map, State.tries]
    exact List.countP_congr (fun a _ => by simp)

theorem Counted.handlers_le (hc : Counted nodes s origins) (hi : Inv deployments nodes s)
    (ha : (nodes.map Prod.snd).Nodup) {j : ℕ} {w : Scheduler.State}
    (hw : s.workers[j]? = some w) : w.replicaNum ≤ 3*s.registrations.count j := by
  have hnode := hi.node hw
  have hasks : asks nodes s.registrations (endpoint w.nodeAddress) = s.registrations.count j := by
    rw [asks, List.count_eq_countP]
    refine List.countP_congr (fun k _ => ?_)
    rw [beq_iff_eq, Option.any_eq_true]
    constructor
    · rintro ⟨n, hn, he⟩
      exact index_unique ha hn hnode (endpoint_inj (of_decide_eq_true he))
    · rintro rfl
      exact ⟨_, hnode, decide_eq_true rfl⟩
  calc w.replicaNum
      = s.attempts.countP (fun a => a.handler.any (fun h => h.1 = j)) := hc.handlers j w hw
    _ ≤ s.attempts.countP (fun a => a.address = endpoint w.nodeAddress) := by
        refine List.countP_mono_left (fun a hm h => ?_)
        obtain ⟨⟨k, i⟩, hh, hk⟩ := (Option.any_eq_true _ _).mp h
        obtain rfl := of_decide_eq_true hk
        obtain ⟨n, hn, he⟩ := hc.reached a hm k i hh
        obtain rfl := Option.some.inj (hn.symm.trans hnode)
        exact decide_eq_true he
    _ ≤ numAttempts*asks nodes s.registrations (endpoint w.nodeAddress) := hc.attempts_le _
    _ = 3*s.registrations.count j := by
        rw [hasks]
        rfl

theorem Counted.bounded (hc : Counted nodes s origins) (hi : Inv deployments nodes s)
    (hn : (nodes.map Prod.fst).Nodup) (ha : (nodes.map Prod.snd).Nodup) : Bounded s := by
  have hcalls : ∀ w ∈ s.workers, w.calls.length = w.replicaNum := by
    intro w hw
    have h := congrArg List.length (hi.worker w hw).1.ids
    simpa using h
  refine ⟨fun j w hw => ?_, fun w hw => ?_, fun w hw l hl => ?_, fun j w hw => ?_, ?_⟩
  · rw [hcalls w (List.mem_of_getElem? hw)]
    exact hc.handlers_le hi ha hw
  · rw [(hi.worker w hw).1.ids]
    exact List.nodup_range'
  · rw [hcalls w hw]
    exact (ReplicaPorts.mem_launches (hi.worker w hw).1 hl).2.1
  · have h := hc.listed hi (Charge.ofWorker hn ha (hi.node hw))
    rwa [List.count_eq_countP]
  · have h := hc.listed hi (Charge.all nodes)
    rwa [Charge.all, List.countP_true] at h

end

theorem initial_counted (deployments : Dict ℕ DeploymentHandle) (nodes : List (ℕ × String)) :
    Counted nodes (initial deployments nodes) [] := by
  refine ⟨fun _ => Nat.zero_le _, ⟨rfl, nofun, fun _ => rfl⟩, nofun, nofun, fun j w hw => ?_,
    fun _ => le_rfl⟩
  obtain ⟨n, -, rfl⟩ := Option.map_eq_some_iff.mp (List.getElem?_map.symm.trans hw)
  rfl

/-- However attempts fail and are repeated, each registration handled leads
to at most three `CreateReplica` handlers on its worker, each with an id of
its own there, and to at most one listed replica, of its worker and in all. -/
theorem registrations_bound_launches (deployments : Dict ℕ DeploymentHandle)
    (he : NoReplicas deployments) (nodes : List (ℕ × String))
    (hn : (nodes.map Prod.fst).Nodup) (ha : (nodes.map Prod.snd).Nodup) (as : List Act)
    (s : State) (hr : Runs.exec step as (initial deployments nodes) = some s) : Bounded s := by
  have hboth := Runs.exec_invariant
    (P := fun t => Inv deployments nodes t ∧ ∃ origins, Counted nodes t origins)
    (fun t a t' ht hs => ⟨step_inv hn ha t a t' ht.1 hs, ht.2.elim (fun _ hc =>
      step_counted ht.1 hc hs)⟩)
    ⟨initial_inv he nodes, _, initial_counted deployments nodes⟩ hr
  obtain ⟨hi, _, hc⟩ := hboth
  exact hc.bounded hi hn ha

theorem registrations_bound_launches_sample : ∃ s,
    Runs.exec step lostAttempt (initial ownDeployments twoNodes) = some s ∧ Bounded s := by
  obtain ⟨s, hs, -⟩ := lostAttempt_runs
  exact ⟨s, hs, registrations_bound_launches ownDeployments ownDeployments_noReplicas twoNodes
    (by decide) (by decide) lostAttempt s hs⟩

end ServingSystem.Cluster
