import ServingSystem.Fleet

/-!
# What a fleet comes to

Of the instances launched in four rounds, at most four schedulers with
distinct ids register, each with at most three requests, and only those that
serve have replicas.
-/

set_option autoImplicit false

namespace ServingSystem.Fleet
open Protos (RegisterRequest)
open Head HeadController WorkerRegistry Positions

structure Onward (s s' : Cluster.State) (a : Cluster.Act) : Prop where
  nodes : ∀ k ∈ s.head.registry.nodeMap.keys, k ∈ s'.head.registry.nodeMap.keys
  registrations : s'.registrations = s.registrations
  workers : ∀ j, target a ≠ some j → s'.workers[j]? = s.workers[j]?

section
variable {deployments : Dict ℕ DeploymentHandle} {ns : List (ℕ × String)}
  {s s' : Cluster.State}

theorem onward_head {a : Cluster.Act} {head : HeadController.State} (h : Quiet s.head head) :
    Onward s { s with head } a := ⟨h.nodes, rfl, fun _ _ => rfl⟩

theorem step_onward (hi : Cluster.Inv deployments ns s) {a : Cluster.Act}
    (hs : Cluster.step s a = some s') (ha : registers a = false) : Onward s s' a := by
  cases a with
  | register j resource => cases ha
  | attempt task =>
    obtain ⟨_, _, _, _, _, -, -, -, rfl⟩ := Cluster.attempt_step hs
    exact ⟨fun _ h => h, rfl, fun _ _ => rfl⟩
  | arrive n j launch =>
    obtain ⟨_, _, _, -, -, -, -, -, rfl⟩ := Cluster.arrive_step hs
    exact ⟨fun _ h => h, rfl, fun k hk =>
      List.getElem?_set_ne (fun h => hk (congrArg some h))⟩
  | answer n t =>
    obtain ⟨a, j, i, w, c, response, h, hatt, hh, hw, hc, hp, hstep, rfl⟩ :=
      Cluster.answer_step hs
    have hmem := List.mem_of_getElem? hatt
    refine ⟨fun k hk => ?_, rfl, fun _ _ => rfl⟩
    by_cases hcr : response.created
    · obtain ⟨_, _, -, -, he⟩ := Cluster.created_answer hi hmem hh hw hc hp hcr hstep
      rw [he]
      change k ∈ (s.head.registry.nodeMap.modify _ _).keys
      rw [Dict.keys_modify]
      exact hk
    · rw [Cluster.refused_answer hi hmem hcr hstep]
      exact hk
  | giveUp task =>
    obtain ⟨-, hs⟩ := Option.ite_none_right_eq_some.mp hs
    obtain ⟨h, hstep, rfl⟩ := Option.map_eq_some_iff.mp hs
    exact onward_head (failed_quiet hstep)
  | report j =>
    obtain ⟨w, -, rfl⟩ := Option.map_eq_some_iff.mp hs
    exact ⟨fun _ h => h, rfl, fun _ _ => rfl⟩
  | deliver i t =>
    obtain rfl := hi.delivered hs
    exact ⟨fun _ h => h, rfl, fun _ _ => rfl⟩
  | worker j a =>
    obtain ⟨-, hs⟩ := Option.ite_none_left_eq_some.mp hs
    obtain ⟨w, -, hs⟩ := Option.bind_eq_some_iff.mp hs
    obtain ⟨w', -, rfl⟩ := Option.map_eq_some_iff.mp hs
    exact ⟨fun _ h => h, rfl, fun k hk =>
      List.getElem?_set_ne (fun h => hk (congrArg some h))⟩
  | head a =>
    obtain ⟨hint, hs⟩ := Option.ite_none_right_eq_some.mp hs
    obtain ⟨h, hstep, rfl⟩ := Option.map_eq_some_iff.mp hs
    exact onward_head (internal_quiet hint hstep)

end

/-- What a scheduler has sent, what the head knows of it, and that it has done
nothing before it serves. -/
structure Booted (known : List ℕ) (workers : List Scheduler.State) (j : ℕ) (b : Boot) : Prop where
  sent : b.handled.length ≤ headStoreMaxRetries
  current : ∀ attempt, b.phase = .registering attempt → b.handled.length = attempt
  known : true ∈ b.handled → b.request.nodeId ∈ known
  served : b.phase = .serving → true ∈ b.handled
  untouched : b.phase ≠ .serving →
    workers[j]? = some (Scheduler.initial b.request.nodeId b.request.nodeAddress)

structure Inv (rs : List RegisterRequest) (s : State) : Prop where
  cluster : Cluster.Inv ownDeployments (nodes rs) s.cluster
  counted : ∃ origins, Cluster.Counted (nodes rs) s.cluster origins
  requests : s.boots.map Boot.request = rs
  boot : ∀ (j : ℕ) b, s.boots[j]? = some b →
    Booted s.cluster.head.registry.nodeMap.keys s.cluster.workers j b
  registrations : ∀ (j : ℕ) b, s.boots[j]? = some b →
    s.cluster.registrations.count j = b.handled.count true
  booted : ∀ j ∈ s.cluster.registrations, j < s.boots.length

section
variable {rs : List RegisterRequest} {s s' : State}

theorem respond_cases {response : Response} {b b' : Boot} (h : respond response b = some b') :
    ∃ attempt, b.phase = .registering attempt ∧
      ((∃ ack, response = .reply ack ∧ b' = { b with phase := .serving }) ∨
        (attempt < headStoreMaxRetries ∧ b' = { b with
          phase := .registering (attempt+1), handled := b.handled ++ [false] }) ∨
        b' = { b with phase := .killed }) := by
  unfold respond at h
  split at h
  next attempt hp =>
    refine ⟨attempt, hp, ?_⟩
    cases response with
    | reply ack => exact Or.inl ⟨ack, rfl, (Option.some.inj h).symm⟩
    | rpcError =>
      by_cases hlt : attempt < headStoreMaxRetries
      · rw [if_pos hlt] at h
        exact Or.inr (Or.inl ⟨hlt, (Option.some.inj h).symm⟩)
      · rw [if_neg hlt] at h
        exact Or.inr (Or.inr (Option.some.inj h).symm)
    | exception => exact Or.inr (Or.inr (Option.some.inj h).symm)
  next => cases h

/-- The outcome of an attempt keeps what the head knows and what was handled. -/
theorem Booted.respond {known : List ℕ} {workers : List Scheduler.State} {j : ℕ} {b b' : Boot}
    {response : Response} (h : Booted known workers j b) (hr : b.receives response = true)
    (hb : Fleet.respond response b = some b') : Booted known workers j b' ∧
      b'.request = b.request ∧ b'.handled.count true = b.handled.count true := by
  obtain ⟨attempt, hp, ⟨ack, rfl, rfl⟩ | ⟨hlt, rfl⟩ | rfl⟩ := respond_cases hb
  · refine ⟨⟨h.sent, fun _ hp => (nomatch hp), h.known, fun _ => ?_, fun hne =>
      absurd rfl hne⟩, rfl, rfl⟩
    have hlast : b.handled.getLast? = some true := by
      simp only [Boot.receives, Bool.and_eq_true, beq_iff_eq] at hr
      exact hr.2
    exact List.mem_of_getLast? hlast
  · have hlen := h.current attempt hp
    refine ⟨⟨?_, fun k hk => ?_, fun hm => h.known ?_, fun hs => (nomatch hs), fun _ =>
      h.untouched (by simp [hp])⟩, rfl, by simp⟩
    · simp only [List.length_append, List.length_singleton]
      omega
    · obtain rfl := Phase.registering.inj hk
      simp [hlen]
    · simpa using hm
  · exact ⟨⟨h.sent, fun _ h => (nomatch h), h.known, fun hs => (nomatch hs), fun _ =>
      h.untouched (by simp [hp])⟩, rfl, rfl⟩

theorem Booted.mono {known known' : List ℕ} {workers workers' : List Scheduler.State} {j : ℕ}
    {b : Boot} (h : Booted known workers j b) (hk : ∀ k ∈ known, k ∈ known')
    (hw : b.phase ≠ .serving → workers'[j]? = workers[j]?) : Booted known' workers' j b :=
  ⟨h.sent, h.current, fun hm => hk _ (h.known hm), h.served, fun hn =>
    (hw hn).trans (h.untouched hn)⟩

theorem Inv.identity (hi : Inv rs s) {j : ℕ} {b : Boot} {w : Scheduler.State}
    (hb : s.boots[j]? = some b) (hw : s.cluster.workers[j]? = some w) :
    w.workerId = b.request.nodeId := by
  have hr : rs[j]? = some b.request := by
    rw [← hi.requests, List.getElem?_map, hb, Option.map_some]
  have hnode : (nodes rs)[j]? = some (b.request.nodeId, b.request.nodeAddress) := by
    rw [nodes, List.getElem?_map, hr, Option.map_some]
  rw [← hi.cluster.fixed, List.getElem?_map, hw, Option.map_some] at hnode
  exact (Prod.mk.inj (Option.some.inj hnode)).1

theorem handle_inv (hn : ((nodes rs).map Prod.fst).Nodup) (ha : ((nodes rs).map Prod.snd).Nodup)
    (hi : Inv rs s) {j n : ℕ} (hs : handle j n s = some s') : Inv rs s' := by
  obtain ⟨b, hb, hs⟩ := Option.bind_eq_some_iff.mp hs
  obtain ⟨hfalse, hs⟩ := Option.ite_none_right_eq_some.mp hs
  obtain ⟨c, hc, rfl⟩ := Option.map_eq_some_iff.mp hs
  have hinv := Cluster.step_inv hn ha _ _ _ hi.cluster hc
  have hcounted := hi.counted.elim (fun _ h => Cluster.step_counted hi.cluster h hc)
  obtain ⟨w, hw, rfl⟩ := Option.map_eq_some_iff.mp hc
  have hq := registerNode_quiet (Cluster.registerRequest w b.request.resource) s.cluster.head
  have hid := hi.identity hb hw
  have hlt := (List.getElem?_eq_some_iff.mp hfalse).1
  have hold := hi.boot j b hb
  have hcount : (b.handled.set n true).count true = b.handled.count true+1 := by
    have h := countP_set (· == true) hfalse true
    change ((b.handled.set n true).count true : ℤ) = b.handled.count true-0+1 at h
    omega
  refine ⟨hinv, hcounted, (map_set_eq (f := Boot.request) hb ?_).trans hi.requests,
    fun k x hx => ?_, fun k x hx => ?_, fun k hk => ?_⟩
  · rfl
  · rcases getElem?_set_cases hx with ⟨rfl, rfl⟩ | ⟨-, hx⟩
    · refine ⟨by simpa using hold.sent, fun k hk => by simpa using hold.current k hk, fun _ => ?_,
        fun _ => List.mem_set hlt true, hold.untouched⟩
      exact Dict.mem_keys_set.mpr (Or.inl hid.symm)
    · exact (hi.boot k x hx).mono hq.nodes (fun _ => rfl)
  · change (s.cluster.registrations ++ [j]).count k = _
    rw [List.count_append, List.count_singleton]
    rcases getElem?_set_cases hx with ⟨rfl, rfl⟩ | ⟨hne, hx⟩
    · rw [if_pos (beq_self_eq_true _), hi.registrations k b hb, hcount]
    · rw [if_neg (by simpa using hne.symm), hi.registrations k x hx]
      rfl
  · rw [List.length_set]
    rcases List.mem_append.mp hk with hk | hk
    · exact hi.booted k hk
    · obtain rfl := List.mem_singleton.mp hk
      exact (List.getElem?_eq_some_iff.mp hb).1

theorem respond_inv (hi : Inv rs s) {j : ℕ} {response : Response}
    (hs : step s (.respond j response) = some s') : Inv rs s' := by
  obtain ⟨b, hb, hs⟩ := Option.bind_eq_some_iff.mp hs
  obtain ⟨hr, hs⟩ := Option.ite_none_right_eq_some.mp hs
  obtain ⟨b', hb', rfl⟩ := Option.map_eq_some_iff.mp hs
  obtain ⟨hbooted, hreq, hcount⟩ := (hi.boot j b hb).respond hr hb'
  refine ⟨hi.cluster, hi.counted, (map_set_eq hb hreq).trans hi.requests, fun k x hx => ?_,
    fun k x hx => ?_, fun k hk => ?_⟩
  · rcases getElem?_set_cases hx with ⟨rfl, rfl⟩ | ⟨-, hx⟩
    · exact hbooted
    · exact hi.boot k x hx
  · rcases getElem?_set_cases hx with ⟨rfl, rfl⟩ | ⟨-, hx⟩
    · exact (hi.registrations k b hb).trans hcount.symm
    · exact hi.registrations k x hx
  · rw [List.length_set]
    exact hi.booted k hk

theorem cluster_inv (hn : ((nodes rs).map Prod.fst).Nodup) (ha : ((nodes rs).map Prod.snd).Nodup)
    (hi : Inv rs s) {a : Cluster.Act} (hs : step s (.cluster a) = some s') : Inv rs s' := by
  obtain ⟨⟨hreg, hserves⟩, hs⟩ := Option.ite_none_right_eq_some.mp hs
  obtain ⟨c, hc, rfl⟩ := Option.map_eq_some_iff.mp hs
  have honward := step_onward hi.cluster hc (by simpa using hreg)
  refine ⟨Cluster.step_inv hn ha _ _ _ hi.cluster hc,
    hi.counted.elim (fun _ h => Cluster.step_counted hi.cluster h hc), hi.requests,
    fun j b hb => ?_, honward.registrations ▸ hi.registrations,
    honward.registrations ▸ hi.booted⟩
  refine (hi.boot j b hb).mono honward.nodes (fun hne => honward.workers j (fun ht => hne ?_))
  rw [ht, Option.all_some] at hserves
  simpa [State.serves, hb] using hserves

theorem step_inv (hn : ((nodes rs).map Prod.fst).Nodup) (ha : ((nodes rs).map Prod.snd).Nodup)
    (s : State) (a : Act) (s' : State) (hi : Inv rs s) (hs : step s a = some s') : Inv rs s' := by
  cases a with
  | handle j n => exact handle_inv hn ha hi hs
  | respond j response => exact respond_inv hi hs
  | cluster a => exact cluster_inv hn ha hi hs

theorem initial_inv (rs : List RegisterRequest) : Inv rs (initial rs) where
  cluster := Cluster.initial_inv ownDeployments_noReplicas (nodes rs)
  counted := ⟨_, Cluster.initial_counted _ _⟩
  requests := by
    rw [initial, List.map_map]
    exact List.map_id rs
  boot j b hb := by
    obtain ⟨r, hr, rfl⟩ := Option.map_eq_some_iff.mp (List.getElem?_map.symm.trans hb)
    refine ⟨?_, fun k hk => Phase.registering.inj hk, fun hm => ?_, fun hs => (nomatch hs),
      fun _ => ?_⟩
    · change 1 ≤ 3
      decide
    · cases List.mem_singleton.mp hm
    · simp [initial, Cluster.initial, nodes, hr]
  registrations j b hb := by
    obtain ⟨r, -, rfl⟩ := Option.map_eq_some_iff.mp (List.getElem?_map.symm.trans hb)
    rfl
  booted := nofun

end

/-- Of `n` schedulers, what each of them can start, and which of them are
routed to. -/
structure BroughtUp (n : ℕ) (s : State) : Prop where
  ids : (s.cluster.workers.map Scheduler.State.workerId).Sublist (List.range' 1 n)
  handled : ∀ (j : ℕ) b, s.boots[j]? = some b →
    s.cluster.registrations.count j = b.handled.count true ∧ b.handled.count true ≤ 3
  handlers : ∀ w ∈ s.cluster.workers, w.calls.length ≤ 9
  listed : ∀ w ∈ s.cluster.workers,
    Cluster.listedCount (belongs w.workerId) s.cluster.head.registry ≤ 3
  total : Cluster.listedCount (fun _ => true) s.cluster.head.registry ≤
    3*s.cluster.workers.length
  serving : ∀ (j : ℕ) b, s.boots[j]? = some b → b.phase = .serving →
    b.request.nodeId ∈ s.cluster.head.registry.nodeMap.keys
  idle : ∀ (j : ℕ) b, s.boots[j]? = some b → b.phase ≠ .serving →
    s.cluster.workers[j]? = some (Scheduler.initial b.request.nodeId b.request.nodeAddress)
  routed : ∀ p ∈ RoutingFeed.snapshots s.cluster.head.feed, ∀ d info,
    p.currentDeployments.get d = some info → ∀ r ∈ info.replicas,
      ∃ (j : ℕ) (w : Scheduler.State) (id : ℕ), s.serves j = true ∧
        s.cluster.workers[j]? = some w ∧ r.replicaId = replicaId w.workerId id ∧
        r.address = w.nodeAddress ++ ":" ++ Scheduler.replicaPort id ∧
        Cluster.Serves w id d info.deploymentName

section
variable {rs : List RegisterRequest} {s : State}

theorem Inv.length (hi : Inv rs s) : s.boots.length = s.cluster.workers.length := by
  have hb := congrArg List.length hi.requests
  have hw := congrArg List.length hi.cluster.fixed
  simp only [List.length_map, nodes] at hb hw
  omega

theorem Inv.count_le (hi : Inv rs s) (j : ℕ) : s.cluster.registrations.count j ≤ 3 := by
  by_cases hj : j ∈ s.cluster.registrations
  · have hb := List.getElem?_eq_getElem (hi.booted j hj)
    rw [hi.registrations j _ hb]
    exact List.count_le_length.trans (hi.boot j _ hb).sent
  · rw [List.count_eq_zero_of_not_mem hj]
    exact Nat.zero_le 3

/-- A scheduler that has registered a replica serves. -/
theorem Inv.serves (hi : Inv rs s) {j : ℕ} {w : Scheduler.State}
    (hw : s.cluster.workers[j]? = some w) {id : ℕ} (hid : id ∈ w.replicaRegistry.keys) :
    s.serves j = true := by
  have hlt : j < s.boots.length := by
    rw [hi.length]
    exact (List.getElem?_eq_some_iff.mp hw).1
  obtain ⟨b, hb⟩ : ∃ b, s.boots[j]? = some b := ⟨_, List.getElem?_eq_getElem hlt⟩
  by_cases hp : b.phase = .serving
  · simp [State.serves, hb, hp]
  · obtain rfl := Option.some.inj (hw.symm.trans ((hi.boot j b hb).untouched hp))
    cases hid

theorem Inv.broughtUp (hi : Inv rs s) (hn : ((nodes rs).map Prod.fst).Nodup)
    (ha : ((nodes rs).map Prod.snd).Nodup) {n : ℕ}
    (hids : (rs.map RegisterRequest.nodeId).Sublist (List.range' 1 n)) : BroughtUp n s := by
  obtain ⟨_, hcounted⟩ := hi.counted
  have hbounded := hcounted.bounded hi.cluster hn ha
  refine ⟨?_, fun j b hb => ⟨hi.registrations j b hb, ?_⟩, fun w hw => ?_, fun w hw => ?_, ?_,
    fun j b hb hp => (hi.boot j b hb).known ((hi.boot j b hb).served hp),
    fun j b hb => (hi.boot j b hb).untouched, fun p hp d info hd r hr => ?_⟩
  · have hworkers : s.cluster.workers.map Scheduler.State.workerId =
        rs.map RegisterRequest.nodeId := by
      have h := congrArg (List.map Prod.fst) hi.cluster.fixed
      rw [nodes, List.map_map, List.map_map] at h
      exact h
    rw [hworkers]
    exact hids
  · exact hi.registrations j b hb ▸ hi.count_le j
  · obtain ⟨j, hj⟩ := List.getElem?_of_mem hw
    exact (hbounded.handlers j w hj).trans (Nat.mul_le_mul_left 3 (hi.count_le j))
  · obtain ⟨j, hj⟩ := List.getElem?_of_mem hw
    exact (hbounded.listed j w hj).trans (hi.count_le j)
  · have hlen := Cluster.length_le_mul (m := List.range s.boots.length)
      (fun j hj => List.mem_range.mpr (hi.booted j hj)) hi.count_le
    rw [List.length_range, hi.length] at hlen
    exact hbounded.total.trans hlen
  · obtain ⟨w, hw, id, hkey, haddr, hs⟩ := hi.cluster.routed.served p hp d info hd r hr
    obtain ⟨j, hj⟩ := List.getElem?_of_mem hw
    obtain ⟨_, hreg, -⟩ := hs.registered
    exact ⟨j, w, id, hi.serves hj (Dict.mem_keys.mpr ⟨_, hreg⟩), hj, hkey, haddr, hs⟩

end

/-- Whatever EC2 answers in the four rounds and however requests and replies
are lost, the schedulers of the fleet have ids of their own among four; each
is handled at most three times by `RegisterNode` and has at most nine
`CreateReplica` handlers and three listed replicas; and the replicas that the
head lists are on schedulers that serve. -/
theorem fleet_brought_up (ec2 : ℕ → AwsVm.Ec2) (address : ℕ → String)
    (ha : ((createVms ec2 rounds).launched.map (fun l => address l.1)).Nodup) (as : List Act)
    (s : State) (hr : Runs.exec step as (initial (requests (createVms ec2 rounds).launched
      address)) = some s) : BroughtUp rounds s := by
  have hids := createVms_ids ec2 rounds
  generalize (createVms ec2 rounds).launched = launched at ha hids hr
  have hnodes := nodes_requests launched address
  have hn : ((nodes (requests launched address)).map Prod.fst).Nodup := by
    rw [hnodes, List.map_map]
    exact hids.nodup (List.nodup_range' ..)
  have hd : ((nodes (requests launched address)).map Prod.snd).Nodup := by
    rw [hnodes, List.map_map]
    exact ha
  have hi := Runs.exec_invariant (step_inv hn hd) (initial_inv _) hr
  exact hi.broughtUp hn hd (requests_ids launched address ▸ hids)

def twoOfFour : ℕ → AwsVm.Ec2
  | 0 => AwsVm.disconnected
  | 1 => { AwsVm.disconnected with
      runInstances := .ok ⟨["i-2"], by decide, by decide⟩
      waitInstanceRunning := .ok () }
  | _ => { AwsVm.disconnected with runInstances := .error .clientError }

theorem twoOfFour_launched : (createVms twoOfFour rounds).launched = [(1, "i-1"), (2, "i-2")] := by
  have hreq : ∀ i, AwsVm.Requested (twoOfFour i) "small" := fun i => by
    have hfinds : (twoOfFour i).describeSecurityGroups = .ok ["sg-1"] ∧
        (twoOfFour i).describeImages = .ok [⟨"ami-1", "2025-01-01T00:00:00.000Z"⟩] := by
      match i with
      | 0 => exact ⟨rfl, rfl⟩
      | 1 => exact ⟨rfl, rfl⟩
      | _+2 => exact ⟨rfl, rfl⟩
    exact ⟨⟨_, rfl⟩, ⟨_, "sg-1", hfinds.1, rfl, by decide⟩,
      ⟨_, "ami-1", hfinds.2, by simp [AwsVm.latestImage], by decide⟩⟩
  simp only [rounds, createVms, createRound, createVm_launched (hreq _)]
  rfl

def twoAddresses (schedulerId : ℕ) : String := "10.0.0." ++ toString schedulerId

/-- The scheduler of the lost instance serves and gets a replica; the replies
to the other one are lost, and it is killed after its third registration. -/
def oneServes : List Act :=
  [.handle 1 0, .respond 1 .rpcError, .handle 0 0, .respond 0 (.reply true), .respond 1 .rpcError,
    .handle 1 2, .handle 1 1, .respond 1 .rpcError, .cluster (.head .takeQueued),
    .cluster (.head .spawnCreation), .cluster (.head .takeQueued), .cluster (.head .spawnCreation),
    .cluster (.head (.request 1)), .cluster (.attempt 1), .cluster (.arrive 0 0 (some 7001)),
    .cluster (.worker 0 (.registerReplica 0)), .cluster (.worker 0 (.resume 0)),
    .cluster (.answer 0 2)]

theorem fleet_brought_up_sample : ∃ s, Runs.exec step oneServes
      (initial (requests (createVms twoOfFour rounds).launched twoAddresses)) = some s ∧
      BroughtUp rounds s ∧ s.boots.map Boot.phase = [.serving, .killed] ∧
      s.cluster.registrations = [1, 0, 1, 1] := by
  have hrequests : requests (createVms twoOfFour rounds).launched twoAddresses =
      [⟨1, "10.0.0.1", "50051", ⟨4, 1⟩⟩, ⟨2, "10.0.0.2", "50051", ⟨4, 1⟩⟩] := by
    rw [requests_eq, twoOfFour_launched]
    decide
  have h : (Runs.exec step oneServes (initial [⟨1, "10.0.0.1", "50051", ⟨4, 1⟩⟩,
      ⟨2, "10.0.0.2", "50051", ⟨4, 1⟩⟩])).map (fun s =>
        (s.boots.map Boot.phase, s.cluster.registrations)) =
      some ([.serving, .killed], [1, 0, 1, 1]) := by
    decide +kernel
  obtain ⟨s, hs, he⟩ := Option.map_eq_some_iff.mp h
  obtain ⟨hphase, hregs⟩ := Prod.mk.inj he
  rw [← hrequests] at hs
  refine ⟨s, hs, fleet_brought_up twoOfFour twoAddresses ?_ oneServes s hs, hphase, hregs⟩
  rw [twoOfFour_launched]
  decide

end ServingSystem.Fleet
