import ServingSystem.CreationTasks

/-!
# Where a replica request is

A request is an item put on `replica_queue`. The ledger numbers the requests
in that order and follows each through the handlers of the head: the queue,
the item `replica_creation` holds, the `create_replica` task it started, and
what the end of the task recorded: an entry in `pending_replicas`, a replica
added to a list, both or neither. A direct call of `create_replica` carries no
request.
-/

set_option autoImplicit false

namespace ServingSystem.Head.ReplicaRequests
open Protos (ReplicaCreationReply)
open HeadController DeploymentManager Positions StateExcept

structure Ledger where
  requests : List (String × ℕ)
  queue : List ℕ
  sleeping : Option ℕ
  tasks : List (Option ℕ)
  pending : List ℕ
  satisfied : List ℕ

/-- What the ended task `k` left behind, read off the states around it: a
longer `pending_replicas`, or a new replica record. -/
def settle (k : ℕ) (s s' : HeadController.State) (l : Ledger) : Ledger :=
  if s'.creations[k]? = some .done then { l with
    tasks := l.tasks.set k none
    pending := l.pending ++ (if s.pendingReplicas.length < s'.pendingReplicas.length then
      l.tasks[k]?.join.toList else [])
    satisfied := l.satisfied ++ (if s.registry.objects < s'.registry.objects then
      l.tasks[k]?.join.toList else []) }
  else l

def follow (s s' : HeadController.State) (l : Ledger) : HeadController.Act → Ledger
  | .registerNode _ => { l with
      requests := l.requests ++ s'.replicaQueue.getLast?.toList
      queue := l.queue ++ [l.requests.length] }
  | .takeQueued => { l with queue := l.queue.tail, sleeping := l.queue.head? }
  | .spawnCreation => { l with sleeping := none, tasks := l.tasks ++ [l.sleeping] }
  | .createReplica _ _ _ _ => { l with tasks := l.tasks ++ [none] }
  | .request k => settle k s s' l
  | .reply k _ _ => settle k s s' l
  | .failed k => settle k s s' l
  | _ => l

structure State where
  head : HeadController.State
  ledger : Ledger

def step (s : State) (a : HeadController.Act) : Option State :=
  (HeadController.step s.head a).map (fun h => ⟨h, follow s.head h s.ledger a⟩)

def initial (deployments : Dict ℕ DeploymentHandle) : State :=
  ⟨HeadController.initial deployments, ⟨[], [], none, [], [], []⟩⟩

def Ledger.places (l : Ledger) (r : ℕ) : ℕ :=
  l.queue.count r + l.sleeping.toList.count r + l.tasks.count (some r) + l.pending.count r +
    l.satisfied.count r

def OnePlace (s : State) : Prop :=
  ∀ r < s.ledger.requests.length, s.ledger.places r = 1

/-- A task with a request finds its deployment; the reply to it is created,
and lists a replica exactly when its node is registered. -/
def Accounted (s : State) : HeadController.Act → Prop
  | .request k => ∀ r address d c u, s.ledger.tasks[k]? = some (some r) →
      s.head.creations[k]? = some (.called address d c u) → d ∈ s.head.registry.ids
  | .reply k response _ => ∀ r, s.ledger.tasks[k]? = some (some r) →
      response.created ∧
        (response.replicas ≠ [] ↔ response.workerId ∈ s.head.registry.nodeMap.keys)
  | _ => True

def Stands (requests : List (String × ℕ)) (item : String × ℕ) (r : ℕ) : Prop :=
  requests[r]? = some item

def Carries (requests : List (String × ℕ)) (x : Creation) (carried : Option ℕ) : Prop :=
  ∀ r, carried = some r → ∃ address d, Stands requests (address, d) r ∧
    (x = .called address d 0 0 ∨ x = .requesting address d 0 0)

/-- The ledger's numbers stand for the items that are really there. -/
structure Mirrors (s : State) : Prop where
  queue : List.Forall₂ (Stands s.ledger.requests) s.head.replicaQueue s.ledger.queue
  sleeping : Option.Rel (Stands s.ledger.requests) s.head.sleeping s.ledger.sleeping
  tasks : List.Forall₂ (Carries s.ledger.requests) s.head.creations s.ledger.tasks
  known : RequestsKnown s.head
  fresh : ∀ r, s.ledger.requests.length ≤ r → s.ledger.places r = 0

theorem Stands.append {requests new : List (String × ℕ)} {item : String × ℕ} {r : ℕ}
    (h : Stands requests item r) : Stands (requests ++ new) item r :=
  (List.getElem?_append_left (List.getElem?_eq_some_iff.mp h).1).trans h

theorem Carries.append {requests new : List (String × ℕ)} {x : Creation} {carried : Option ℕ}
    (h : Carries requests x carried) : Carries (requests ++ new) x carried := by
  intro r hr
  obtain ⟨address, d, hs, hx⟩ := h r hr
  exact ⟨address, d, hs.append, hx⟩

theorem rel_append {requests new : List (String × ℕ)} {item : Option (String × ℕ)}
    {r : Option ℕ} (h : Option.Rel (Stands requests) item r) :
    Option.Rel (Stands (requests ++ new)) item r := by
  cases h with
  | none => exact Option.Rel.none
  | some h => exact Option.Rel.some h.append

theorem carries_none (requests : List (String × ℕ)) (x : Creation) : Carries requests x none :=
  fun _ => (nomatch ·)

/-- One task ends: its request leaves it, for as many records as were made. -/
theorem settle_places {k : ℕ} {s s' : HeadController.State} {l : Ledger} {carried : Option ℕ}
    (hdone : s'.creations[k]? = some .done) (hk : l.tasks[k]? = some carried) (r : ℕ) :
    (settle k s s' l).places r+(if carried = some r then 1 else 0) =
      l.places r+(if carried = some r then
        (if s.pendingReplicas.length < s'.pendingReplicas.length then 1 else 0)+
        (if s.registry.objects < s'.registry.objects then 1 else 0) else 0) := by
  obtain ⟨hlt, hget⟩ := List.getElem?_eq_some_iff.mp hk
  have hset := List.count_set hlt (a := none) (b := some r)
  rw [hget] at hset
  simp only [settle, if_pos hdone, Ledger.places, List.count_append, hk, Option.join_some]
  by_cases hc : carried = some r
  · subst hc
    have hpos : 0 < l.tasks.count (some r) := List.count_pos_iff.mpr (List.mem_of_getElem? hk)
    simp only [beq_self_eq_true, if_true, reduceCtorEq, beq_iff_eq, if_false] at hset
    rw [hset]
    split <;> split <;> simp <;> omega
  · have hzero : carried.toList.count r = 0 := by
      rw [List.count_eq_zero, Option.mem_toList]
      exact hc
    simp only [beq_iff_eq, hc, if_false, reduceCtorEq] at hset
    rw [hset]
    split <;> split <;> simp [hzero]

theorem one_place_iff {s s' : State} {k : ℕ} {carried : Option ℕ} (hm : Mirrors s)
    (hp : OnePlace s) (hdone : s'.head.creations[k]? = some .done)
    (hl : s'.ledger = settle k s.head s'.head s.ledger) (hk : s.ledger.tasks[k]? = some carried) :
    OnePlace s' ↔ ∀ r, carried = some r →
      (if s.head.pendingReplicas.length < s'.head.pendingReplicas.length then 1 else 0)+
      (if s.head.registry.objects < s'.head.registry.objects then 1 else 0) = 1 := by
  have hreq : s'.ledger.requests = s.ledger.requests := by
    rw [hl, settle, if_pos hdone]
  have hplaces := settle_places (s := s.head) hdone hk
  rw [← hl] at hplaces
  constructor
  · intro h r hr
    have hlt : r < s.ledger.requests.length := by
      by_contra hge
      have hzero := hm.fresh r (not_lt.mp hge)
      have hpos : 0 < s.ledger.tasks.count (some r) :=
        List.count_pos_iff.mpr (hr ▸ List.mem_of_getElem? hk)
      unfold Ledger.places at hzero
      omega
    have hone := hp r hlt
    have hone' := h r (hreq ▸ hlt)
    have heq := hplaces r
    rw [if_pos hr, if_pos hr] at heq
    omega
  · intro h r hlt
    have hone := hp r (hreq ▸ hlt)
    have heq := hplaces r
    by_cases hr : carried = some r
    · have hrec := h r hr
      rw [if_pos hr, if_pos hr] at heq
      omega
    · rw [if_neg hr, if_neg hr] at heq
      omega

theorem mirrors_settle {s s' : State} {k : ℕ} {carried : Option ℕ} (hm : Mirrors s)
    (hs : s'.head.creations = s.head.creations.set k .done)
    (hq : s'.head.replicaQueue = s.head.replicaQueue) (hw : s'.head.sleeping = s.head.sleeping)
    (hknown : RequestsKnown s'.head) (hl : s'.ledger = settle k s.head s'.head s.ledger)
    (hk : s.ledger.tasks[k]? = some carried) : Mirrors s' := by
  have hlen : k < s.head.creations.length := by
    rw [hm.tasks.length_eq]
    exact (List.getElem?_eq_some_iff.mp hk).1
  have hdone : s'.head.creations[k]? = some .done := by
    rw [hs, List.getElem?_set_self hlen]
  have hplaces := settle_places (s := s.head) hdone hk
  rw [← hl] at hplaces
  rw [settle, if_pos hdone] at hl
  refine ⟨?_, ?_, ?_, hknown, fun r hr => ?_⟩
  · rw [hl, hq]
    exact hm.queue
  · rw [hl, hw]
    exact hm.sleeping
  · rw [hl, hs]
    exact forall₂_set hm.tasks (carries_none _ _)
  · have hr : s.ledger.requests.length ≤ r := by rwa [hl] at hr
    have hzero := hm.fresh r hr
    have hne : carried ≠ some r := by
      rintro rfl
      have hpos : 0 < s.ledger.tasks.count (some r) :=
        List.count_pos_iff.mpr (List.mem_of_getElem? hk)
      unfold Ledger.places at hzero
      omega
    have heq := hplaces r
    rw [if_neg hne, if_neg hne] at heq
    omega

theorem still {s s' : State} (hm : Mirrors s) (hl : s'.ledger = s.ledger)
    (hc : s'.head.creations = s.head.creations) (hq : s'.head.replicaQueue = s.head.replicaQueue)
    (hw : s'.head.sleeping = s.head.sleeping) (hknown : RequestsKnown s'.head) :
    Mirrors s' ∧ (OnePlace s → OnePlace s') := by
  obtain ⟨head, ledger⟩ := s'
  obtain rfl : ledger = s.ledger := hl
  refine ⟨⟨?_, ?_, ?_, hknown, hm.fresh⟩, fun hp => hp⟩
  · exact hq ▸ hm.queue
  · exact hw ▸ hm.sleeping
  · exact hc ▸ hm.tasks

theorem registered {s : State} (hm : Mirrors s) (head : HeadController.State)
    (item : String × ℕ) (hc : head.creations = s.head.creations)
    (hq : head.replicaQueue = s.head.replicaQueue ++ [item])
    (hw : head.sleeping = s.head.sleeping) (hknown : RequestsKnown head) {l : Ledger}
    (hl : l = { s.ledger with
      requests := s.ledger.requests ++ [item]
      queue := s.ledger.queue ++ [s.ledger.requests.length] }) :
    Mirrors ⟨head, l⟩ ∧ (OnePlace s → OnePlace ⟨head, l⟩) := by
  subst hl
  have hplaces : ∀ r, Ledger.places { s.ledger with
      requests := s.ledger.requests ++ [item]
      queue := s.ledger.queue ++ [s.ledger.requests.length] } r =
      s.ledger.places r+(if s.ledger.requests.length = r then 1 else 0) := by
    intro r
    simp only [Ledger.places, List.count_append, List.count_singleton, beq_iff_eq]
    omega
  refine ⟨⟨?_, ?_, ?_, hknown, fun r hr => ?_⟩, fun hp r hr => ?_⟩
  · rw [hq]
    exact forall₂_snoc (hm.queue.imp (fun _ _ h => h.append)) List.getElem?_concat_length
  · rw [hw]
    exact rel_append hm.sleeping
  · rw [hc]
    exact hm.tasks.imp (fun _ _ h => h.append)
  · rw [List.length_append, List.length_singleton] at hr
    rw [hplaces, hm.fresh r (by omega), if_neg (by omega)]
  · rw [List.length_append, List.length_singleton] at hr
    rw [hplaces]
    rcases Nat.lt_succ_iff_lt_or_eq.mp hr with hlt | rfl
    · rw [hp r hlt, if_neg (by omega)]
    · rw [hm.fresh _ le_rfl, if_pos rfl]

theorem moved {s s' : State} (hm : Mirrors s)
    (hplaces : ∀ r, s'.ledger.places r = s.ledger.places r)
    (hreq : s'.ledger.requests = s.ledger.requests)
    (hqueue : List.Forall₂ (Stands s'.ledger.requests) s'.head.replicaQueue s'.ledger.queue)
    (hsleep : Option.Rel (Stands s'.ledger.requests) s'.head.sleeping s'.ledger.sleeping)
    (htasks : List.Forall₂ (Carries s'.ledger.requests) s'.head.creations s'.ledger.tasks)
    (hknown : RequestsKnown s'.head) : Mirrors s' ∧ (OnePlace s → OnePlace s') := by
  refine ⟨⟨hqueue, hsleep, htasks, hknown, fun r hr => ?_⟩, fun hp r hr => ?_⟩
  · rw [hplaces]
    exact hm.fresh r (hreq ▸ hr)
  · rw [hplaces]
    exact hp r (hreq ▸ hr)

theorem taken {s : State} (hm : Mirrors s) {item : String × ℕ} {queue : List (String × ℕ)}
    (hw : s.head.sleeping = none) (hq : s.head.replicaQueue = item::queue) {s' : State}
    (hs : s' = ⟨{ s.head with replicaQueue := queue, sleeping := some item },
      { s.ledger with queue := s.ledger.queue.tail, sleeping := s.ledger.queue.head? }⟩) :
    Mirrors s' ∧ (OnePlace s → OnePlace s') := by
  have hqueue := hm.queue
  have hsleep := hm.sleeping
  rw [hq] at hqueue
  rw [hw] at hsleep
  obtain ⟨r₀, tail, hr₀, htail, hl⟩ := List.forall₂_cons_left_iff.mp hqueue
  have hnone : s.ledger.sleeping = none := by
    cases h : s.ledger.sleeping with
    | none => rfl
    | some r =>
      rw [h] at hsleep
      cases hsleep
  have hplaces : ∀ r, s'.ledger.places r = s.ledger.places r := by
    intro r
    rw [hs]
    simp only [Ledger.places, hl, hnone, List.tail_cons, List.head?_cons, Option.toList_some,
      Option.toList_none, List.count_cons, List.count_nil]
    omega
  apply moved hm hplaces
  · rw [hs]
  · rw [hs, hl]
    exact htail
  · rw [hs, hl]
    exact Option.Rel.some hr₀
  · rw [hs]
    exact hm.tasks
  · rw [hs]
    exact hm.known

theorem spawned {s : State} (hm : Mirrors s) {item : String × ℕ}
    (hw : s.head.sleeping = some item) {s' : State}
    (hs : s' = ⟨{ s.head with
        sleeping := none
        creations := s.head.creations ++ [.called item.1 item.2 0 0] },
      { s.ledger with sleeping := none, tasks := s.ledger.tasks ++ [s.ledger.sleeping] }⟩) :
    Mirrors s' ∧ (OnePlace s → OnePlace s') := by
  have hsleep := hm.sleeping
  rw [hw] at hsleep
  obtain ⟨r₀, hr₀, hstands⟩ : ∃ r₀, s.ledger.sleeping = some r₀ ∧
      Stands s.ledger.requests item r₀ := by
    cases h : s.ledger.sleeping with
    | none =>
      rw [h] at hsleep
      cases hsleep
    | some r =>
      rw [h] at hsleep
      cases hsleep with
      | some hr => exact ⟨r, rfl, hr⟩
  have hplaces : ∀ r, s'.ledger.places r = s.ledger.places r := by
    intro r
    rw [hs]
    simp only [Ledger.places, hr₀, Option.toList_some, Option.toList_none, List.count_append,
      List.count_singleton, List.count_nil, beq_iff_eq, Option.some.injEq]
    omega
  apply moved hm hplaces
  · rw [hs]
  · rw [hs]
    exact hm.queue
  · rw [hs]
    exact Option.Rel.none
  · rw [hs, hr₀]
    apply forall₂_snoc hm.tasks
    intro r hr
    obtain rfl := Option.some.inj hr
    exact ⟨item.1, item.2, hstands, Or.inl rfl⟩
  · rw [hs]
    refine step_known s.head .spawnCreation _ hm.known ?_
    simp only [HeadController.step, hw, Option.map_some]

theorem called {s : State} (hm : Mirrors s) {x : Creation} {s' : State}
    (hs : s' = ⟨{ s.head with creations := s.head.creations ++ [x] },
      { s.ledger with tasks := s.ledger.tasks ++ [none] }⟩) (hknown : RequestsKnown s'.head) :
    Mirrors s' ∧ (OnePlace s → OnePlace s') := by
  have hplaces : ∀ r, s'.ledger.places r = s.ledger.places r := by
    intro r
    rw [hs]
    simp [Ledger.places]
  refine moved hm hplaces ?_ ?_ ?_ ?_ hknown
  · rw [hs]
  · rw [hs]
    exact hm.queue
  · rw [hs]
    exact hm.sleeping
  · rw [hs]
    exact forall₂_snoc hm.tasks (carries_none _ _)

theorem asked {s : State} (hm : Mirrors s) {k : ℕ} {address : String} {d c u : ℕ}
    (hk : s.head.creations[k]? = some (.called address d c u)) {s' : State}
    (hs : s' = ⟨{ s.head with creations := s.head.creations.set k (.requesting address d c u) },
      s.ledger⟩) (hknown : RequestsKnown s'.head) : Mirrors s' := by
  obtain ⟨carried, hl, hcar⟩ := forall₂_getElem? hm.tasks hk
  have hkeep : s.ledger.tasks.set k carried = s.ledger.tasks := by
    obtain ⟨hlt, rfl⟩ := List.getElem?_eq_some_iff.mp hl
    exact List.set_getElem_self hlt
  refine ⟨?_, ?_, ?_, hknown, ?_⟩
  · rw [hs]
    exact hm.queue
  · rw [hs]
    exact hm.sleeping
  · rw [hs, ← hkeep]
    apply forall₂_set hm.tasks
    intro r hr
    obtain ⟨a, d', hst, hx⟩ := hcar r hr
    refine ⟨a, d', hst, Or.inr ?_⟩
    rcases hx with hx | hx
    · obtain ⟨rfl, rfl, rfl, rfl⟩ := Creation.called.inj hx
      rfl
    · cases hx
  · rw [hs]
    exact hm.fresh

theorem requested {s : State} (hm : Mirrors s) {k : ℕ} {h : HeadController.State}
    (hs : HeadController.step s.head (.request k) = some h) :
    Mirrors ⟨h, settle k s.head h s.ledger⟩ ∧
      (OnePlace s → (OnePlace ⟨h, settle k s.head h s.ledger⟩ ↔ Accounted s (.request k))) := by
  have hknown := step_known _ _ _ hm.known hs
  obtain ⟨address, d, c, u, hk, rfl⟩ := HeadController.step_request hs
  have hlt := (List.getElem?_eq_some_iff.mp hk).1
  obtain ⟨carried, hl, hcar⟩ := forall₂_getElem? hm.tasks hk
  by_cases hd : (s.head.registry.deployments.get d).isSome
  · rw [if_pos hd] at hknown ⊢
    have hsettle : settle k s.head { s.head with
        creations := s.head.creations.set k (.requesting address d c u) } s.ledger =
        s.ledger := by
      rw [settle, if_neg]
      simp [hlt]
    rw [hsettle]
    refine ⟨asked hm hk rfl hknown, fun hp => iff_of_true hp (fun r a d' c' u' _ hk' => ?_)⟩
    obtain ⟨-, rfl, -⟩ := Creation.called.inj (Option.some.inj (hk.symm.trans hk'))
    exact Dict.mem_keys.mpr (Option.isSome_iff_exists.mp hd)
  · rw [if_neg hd] at hknown ⊢
    refine ⟨mirrors_settle hm rfl rfl rfl hknown rfl hl, fun hp => ?_⟩
    rw [one_place_iff hm hp (List.getElem?_set_self hlt) rfl hl]
    refine forall_congr' (fun r => ?_)
    simp only [lt_irrefl, if_false, Nat.add_zero, Nat.zero_ne_one, hl, hk]
    constructor
    · intro hn a d' c' u' hr
      exact absurd (Option.some.inj hr) hn
    · intro hn hr
      exact hd (Option.isSome_iff_exists.mpr
        (Dict.mem_keys.mp (hn address d c u (congrArg some hr) rfl)))

theorem failed {s : State} (hm : Mirrors s) {k : ℕ} {h : HeadController.State}
    (hs : HeadController.step s.head (.failed k) = some h) :
    Mirrors ⟨h, settle k s.head h s.ledger⟩ ∧
      (OnePlace s → OnePlace ⟨h, settle k s.head h s.ledger⟩) := by
  have hknown := step_known _ _ _ hm.known hs
  obtain ⟨address, d, c, u, hk, rfl⟩ := HeadController.step_failed hs
  have hlt := (List.getElem?_eq_some_iff.mp hk).1
  obtain ⟨carried, hl, -⟩ := forall₂_getElem? hm.tasks hk
  refine ⟨mirrors_settle hm rfl rfl rfl hknown rfl hl, fun hp => ?_⟩
  rw [one_place_iff hm hp (List.getElem?_set_self hlt) rfl hl]
  intro r _
  simp

/-- The reply leaves one record exactly when it is accounted for. -/
theorem answered {s : State} (hm : Mirrors s) {k : ℕ} {response : ReplicaCreationReply} {t : ℕ}
    {h : HeadController.State} (hs : HeadController.step s.head (.reply k response t) = some h) :
    Mirrors ⟨h, settle k s.head h s.ledger⟩ ∧
      (OnePlace s →
        (OnePlace ⟨h, settle k s.head h s.ledger⟩ ↔ Accounted s (.reply k response t))) := by
  have hknown := step_known _ _ _ hm.known hs
  obtain ⟨address, d, c, u, hk, rfl⟩ := HeadController.step_reply hs
  have hlt := (List.getElem?_eq_some_iff.mp hk).1
  obtain ⟨carried, hl, -⟩ := forall₂_getElem? hm.tasks hk
  have hc := replied_frame State.creations (fun _ _ _ _ _ => rfl) d c u t response
    { s.head with
      creations := s.head.creations.set k .done
      history := s.head.history ++ HeadController.answered d response }
  have hdone := (congrArg (·[k]?) hc).trans (List.getElem?_set_self hlt)
  obtain ⟨hobj, hpend⟩ := replied_records d c u t response
    (s := { s.head with
      creations := s.head.creations.set k .done
      history := s.head.history ++ HeadController.answered d response }) (hm.known k _ d c u hk)
  refine ⟨mirrors_settle hm hc (replied_frame State.replicaQueue (fun _ _ _ _ _ => rfl) ..)
    (replied_frame State.sleeping (fun _ _ _ _ _ => rfl) ..) hknown rfl hl, fun hp => ?_⟩
  rw [one_place_iff hm hp hdone rfl hl, hobj, hpend]
  refine forall_congr' (fun r => ?_)
  rw [hl, Option.some.injEq]
  refine imp_congr_right (fun _ => ?_)
  rw [List.length_append]
  by_cases hcr : response.created <;>
    by_cases hw : response.workerId ∈ s.head.registry.nodeMap.keys <;>
    by_cases hr : response.replicas = [] <;>
    simp [hcr, hw, hr, List.length_pos_iff]

/-- One step keeps the ledger in line, and every request in one place exactly
when it accounts for the request it ends. -/
theorem step_spec {s s' : State} {a : HeadController.Act} (hm : Mirrors s)
    (hstep : step s a = some s') : Mirrors s' ∧ (OnePlace s → (OnePlace s' ↔ Accounted s a)) := by
  obtain ⟨h, hs, rfl⟩ := Option.map_eq_some_iff.mp hstep
  have hknown := step_known _ _ _ hm.known hs
  have htrue : ∀ {s' : State}, Mirrors s' ∧ (OnePlace s → OnePlace s') →
      Mirrors s' ∧ (OnePlace s → (OnePlace s' ↔ True)) :=
    fun h => ⟨h.1, fun hp => iff_of_true (h.2 hp) trivial⟩
  cases a with
  | registerNode request =>
    obtain rfl := Option.some.inj hs
    refine htrue (registered hm (registerNode request s.head)
      (request.nodeAddress ++ ":" ++ request.port, 2) rfl rfl rfl hknown ?_)
    show follow s.head (registerNode request s.head) s.ledger (.registerNode request) = _
    simp only [follow, registerNode, State.run, NodeInfo.addNode, modify_apply,
      List.getLast?_concat, Option.toList_some]
  | takeQueued =>
    obtain ⟨item, queue, hw, hq, rfl⟩ := HeadController.step_takeQueued hs
    exact htrue (taken hm hw hq rfl)
  | spawnCreation =>
    obtain ⟨item, hw, rfl⟩ := Option.map_eq_some_iff.mp hs
    exact htrue (spawned hm hw rfl)
  | createReplica address d c u =>
    obtain rfl := Option.some.inj hs
    exact htrue (called hm rfl hknown)
  | request k => exact requested hm hs
  | reply k response t => exact answered hm hs
  | failed k => exact htrue (failed hm hs)
  | sendHealthStatus request t =>
    obtain rfl := Option.some.inj hs
    exact htrue (still hm rfl (sendHealthStatus_frame State.creations (fun _ _ _ _ => rfl) ..)
      (sendHealthStatus_frame State.replicaQueue (fun _ _ _ _ => rfl) ..)
      (sendHealthStatus_frame State.sleeping (fun _ _ _ _ => rfl) ..) hknown)
  | recordMetrics w n avg sent =>
    obtain rfl := Option.some.inj hs
    exact htrue (still hm rfl rfl rfl rfl hknown)
  | subscribe t =>
    obtain rfl := Option.some.inj hs
    exact htrue (still hm rfl rfl rfl rfl hknown)
  | resume k =>
    obtain ⟨f, -, rfl⟩ := Option.map_eq_some_iff.mp hs
    exact htrue (still hm rfl rfl rfl rfl hknown)
  | cancel k =>
    obtain ⟨f, -, rfl⟩ := Option.map_eq_some_iff.mp hs
    exact htrue (still hm rfl rfl rfl rfl hknown)

theorem initial_mirrors (deployments : Dict ℕ DeploymentHandle) :
    Mirrors (initial deployments) :=
  ⟨List.Forall₂.nil, Option.Rel.none, List.Forall₂.nil, fun _ _ _ _ _ => (nomatch ·),
    fun _ _ => rfl⟩

/-- Every request is in exactly one place throughout a run exactly when the
run accounts for each request whose task ends. -/
theorem requests_in_one_place_iff (deployments : Dict ℕ DeploymentHandle)
    (as : List HeadController.Act) (s : State)
    (hr : Runs.exec step as (initial deployments) = some s) :
    (∀ n s', Runs.exec step (as.take n) (initial deployments) = some s' → OnePlace s') ↔
      Runs.Along step Accounted as (initial deployments) := by
  refine Runs.always_iff_along (I := Mirrors) ?_ ?_ (initial_mirrors deployments) ?_ hr
  · intro s a s' hm hs
    exact (step_spec hm hs).1
  · intro s a s' hm hp hs
    exact (step_spec hm hs).2 hp
  · intro r hlt
    cases hlt

def given : List HeadController.Act :=
  [.registerNode sampleNode, .takeQueued, .spawnCreation, .request 0,
    .reply 0 ⟨1, [⟨1, "50101"⟩], "10.0.0.1", true⟩ 1]

theorem requests_in_one_place_iff_sample : ∃ s,
    Runs.exec step given (initial sampleDeployments) = some s ∧ s.ledger.satisfied = [0] ∧
    ∀ n s', Runs.exec step (given.take n) (initial sampleDeployments) = some s' →
      OnePlace s' := by
  refine ⟨_, rfl, rfl, (requests_in_one_place_iff sampleDeployments given _ rfl).mpr ?_⟩
  iterate 3 refine (Runs.along_cons rfl).mpr ⟨trivial, ?_⟩
  refine (Runs.along_cons rfl).mpr ⟨fun r a d c u _ hk => ?_, ?_⟩
  · obtain ⟨-, rfl, -⟩ := Creation.called.inj (Option.some.inj hk)
    decide
  refine (Runs.along_cons rfl).mpr ⟨fun r _ => ⟨rfl, ?_⟩, trivial⟩
  decide

/-- The launch on the worker fails, and the request is nowhere. -/
theorem refused_request_vanishes : ∃ s,
    Runs.exec step [.registerNode sampleNode, .takeQueued, .spawnCreation, .request 0,
      .reply 0 ⟨1, [⟨1, "50101"⟩], "10.0.0.1", false⟩ 1] (initial sampleDeployments) = some s ∧
    s.ledger.requests.length = 1 ∧ s.ledger.places 0 = 0 ∧ ¬ OnePlace s :=
  ⟨_, rfl, rfl, rfl, fun h => absurd (h 0 (by decide)) (by decide)⟩

end ServingSystem.Head.ReplicaRequests
