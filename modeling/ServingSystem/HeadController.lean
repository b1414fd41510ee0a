import ServingSystem.Coherence
import ServingSystem.RoutingFeed
import ServingSystem.RoutingTable

/-!
# The handlers of the head

`HeadController` and `HealthManager` as tasks of one event loop: a handler
runs until it suspends, at an RPC, a queue or a sleep, and what it does up to
there is one step. `raised` records what the registry operations raised, and
`history` the replicas of the created replies and the DEAD entries as they
come in, before a handler has done anything with them; no handler reads them.
-/

set_option autoImplicit false

namespace ServingSystem.Head.HeadController
open Protos (ReplicaCreationReply RegisterRequest HealthStatusUpdate RoutingUpdate)
open Protos (DeploymentInfoMessage ReplicaState)
open DeploymentManager

/-- A `create_replica` task before its first step or at its RPC. -/
inductive Creation where
  | called (address : String) (deploymentId numCpus numGpus : ℕ)
  | requesting (address : String) (deploymentId numCpus numGpus : ℕ)
  | done
  deriving DecidableEq, Repr

inductive Event where
  | added (deploymentId : ℕ) (replicaNum replicaAddress : String)
  | dead (replicaNum : String)
  deriving DecidableEq, Repr

structure State where
  registry : Registry
  feed : RoutingFeed.Feed
  replicaQueue : List (String × ℕ)
  sleeping : Option (String × ℕ)
  creations : List Creation
  pendingReplicas : List ℕ
  raised : List PyErr
  history : List Event

def State.run {α : Type} (s : State) (call : Py α) (returned : α → State → State)
    (failed : State → State) : State :=
  match call s.registry with
  | .ok x g => returned x { s with registry := g }
  | .error e g => failed { s with registry := g, raised := s.raised ++ [e] }

def createDeployments : Py Unit := do
  addOrUpdateDeployment 1 "/v1/chat/gpt2" "1.0" 2 1
  addOrUpdateDeployment 2 "/v1/chat/tinyllama" "1.0" 2 1
  addOrUpdateDeployment 3 "/v1/chat/phi2" "1.0" 2 1

def ownDeployments : Dict ℕ DeploymentHandle :=
  (after createDeployments (Registry.idle Dict.empty)).deployments

def onDeploymentChange (timestampNs : ℕ) (s : State) : State :=
  { s with
    feed := RoutingFeed.onDeploymentChange s.feed
      (getCurrentRoutingTable s.registry timestampNs) }

def registerNode (request : RegisterRequest) (s : State) : State :=
  s.run (NodeInfo.addNode request)
    (fun _ s => { s with replicaQueue :=
      s.replicaQueue ++ [(request.nodeAddress ++ ":" ++ request.port, 2)] }) id

def additions (deploymentId : ℕ) (response : ReplicaCreationReply) : List Event :=
  response.replicas.map (fun p => .added deploymentId (replicaId response.workerId p.replicaId)
    (response.workerAddress ++ ":" ++ p.port))

def answered (deploymentId : ℕ) (response : ReplicaCreationReply) : List Event :=
  if response.created then additions deploymentId response else []

def replied (deploymentId numCpus numGpus : ℕ) (response : ReplicaCreationReply)
    (timestampNs : ℕ) (s : State) : State :=
  if response.created then
    s.run (addReplicaToDeployment deploymentId response.workerId response.replicas
        numCpus numGpus response.workerAddress)
      (fun _ s => onDeploymentChange timestampNs s)
      (fun s => { s with pendingReplicas := s.pendingReplicas ++ [deploymentId] })
  else s

def removeDead (workerId : ℕ) : List ReplicaState → Py Unit
  | [] => pure ()
  | replicaState::replicaStates => do
    if replicaState.status = "DEAD" then
      let _ ← removeReplicaFromDeployment replicaState.deploymentId replicaState.replicaId workerId
    removeDead workerId replicaStates

def deaths (workerId : ℕ) (replicaStates : List ReplicaState) : List Event :=
  (replicaStates.filter (fun r => r.status = "DEAD")).map
    (fun r => .dead (replicaId workerId r.replicaId))

def sendHealthStatus (request : HealthStatusUpdate) (timestampNs : ℕ) (s : State) : State :=
  s.run (removeDead request.workerId request.replicaStates)
    (fun _ s =>
      if request.replicaStates.any (fun r => r.status = "DEAD") then
        onDeploymentChange timestampNs s
      else s) id

def subscribe (timestampNs : ℕ) (s : State) : State :=
  { s with feed := RoutingFeed.subscribe s.feed (getCurrentRoutingTable s.registry timestampNs) }

inductive Act where
  | registerNode (request : RegisterRequest)
  | takeQueued
  | spawnCreation
  | createReplica (address : String) (deploymentId numCpus numGpus : ℕ)
  | request (task : ℕ)
  | reply (task : ℕ) (response : ReplicaCreationReply) (timestampNs : ℕ)
  | failed (task : ℕ)
  | sendHealthStatus (request : HealthStatusUpdate) (timestampNs : ℕ)
  | recordMetrics (workerId replicaNum : ℕ) (avgRequests : UInt32) (sentTimeStamp : ℕ)
  | subscribe (timestampNs : ℕ)
  | resume (stream : ℕ)
  | cancel (stream : ℕ)

def step (s : State) : Act → Option State
  | .registerNode request => some (registerNode request s)
  | .takeQueued =>
    match s.sleeping, s.replicaQueue with
    | none, item::queue => some { s with replicaQueue := queue, sleeping := some item }
    | _, _ => none
  | .spawnCreation => s.sleeping.map (fun item => { s with
      sleeping := none
      creations := s.creations ++ [.called item.1 item.2 0 0] })
  | .createReplica address d c u =>
    some { s with creations := s.creations ++ [.called address d c u] }
  | .request k =>
    match s.creations[k]? with
    | some (.called address d c u) => some { s with
        creations := s.creations.set k
          (if (s.registry.deployments.get d).isSome then .requesting address d c u else .done) }
    | _ => none
  | .reply k response t =>
    match s.creations[k]? with
    | some (.requesting _ d c u) =>
      some (replied d c u response t { s with
        creations := s.creations.set k .done
        history := s.history ++ answered d response })
    | _ => none
  | .failed k =>
    match s.creations[k]? with
    | some (.requesting _ d _ _) => some { s with
        creations := s.creations.set k .done
        pendingReplicas := s.pendingReplicas ++ [d] }
    | _ => none
  | .sendHealthStatus request t => some (sendHealthStatus request t { s with
      history := s.history ++ deaths request.workerId request.replicaStates })
  | .recordMetrics w n avg sent =>
    some (s.run (AutoScaleManager.loadMetrics w n avg sent) (fun _ s => s) id)
  | .subscribe t => some (subscribe t s)
  | .resume k => (RoutingFeed.step s.feed (.resume k)).map (fun f => { s with feed := f })
  | .cancel k => (RoutingFeed.step s.feed (.cancel k)).map (fun f => { s with feed := f })

theorem step_takeQueued {s s' : State} (hs : step s .takeQueued = some s') :
    ∃ item queue, s.sleeping = none ∧ s.replicaQueue = item::queue ∧
      s' = { s with replicaQueue := queue, sleeping := some item } := by
  simp only [step] at hs
  split at hs
  next item queue hw hq => exact ⟨item, queue, hw, hq, (Option.some.inj hs).symm⟩
  next => cases hs

theorem step_request {s s' : State} {k : ℕ} (hs : step s (.request k) = some s') :
    ∃ address d c u, s.creations[k]? = some (.called address d c u) ∧ s' = { s with
      creations := s.creations.set k
        (if (s.registry.deployments.get d).isSome then .requesting address d c u else .done) } := by
  simp only [step] at hs
  split at hs
  next address d c u hk => exact ⟨address, d, c, u, hk, (Option.some.inj hs).symm⟩
  next => cases hs

theorem step_reply {s s' : State} {k : ℕ} {response : ReplicaCreationReply} {t : ℕ}
    (hs : step s (.reply k response t) = some s') :
    ∃ address d c u, s.creations[k]? = some (.requesting address d c u) ∧
      s' = replied d c u response t { s with
        creations := s.creations.set k .done
        history := s.history ++ answered d response } := by
  simp only [step] at hs
  split at hs
  next address d c u hk => exact ⟨address, d, c, u, hk, (Option.some.inj hs).symm⟩
  next => cases hs

theorem step_failed {s s' : State} {k : ℕ} (hs : step s (.failed k) = some s') :
    ∃ address d c u, s.creations[k]? = some (.requesting address d c u) ∧ s' = { s with
      creations := s.creations.set k .done
      pendingReplicas := s.pendingReplicas ++ [d] } := by
  simp only [step] at hs
  split at hs
  next address d c u hk => exact ⟨address, d, c, u, hk, (Option.some.inj hs).symm⟩
  next => cases hs

def initial (deployments : Dict ℕ DeploymentHandle) : State :=
  ⟨Registry.idle deployments, RoutingFeed.initial 0, [], none, [], [], [], []⟩

/-- A created reply carries one replica of a registered worker under an id
not added before; a DEAD entry about a known replica names its deployment. -/
def Conforms (s : State) : Act → Prop
  | .reply _ response _ => response.created → ∃ p, response.replicas = [p] ∧
      (∀ d a, .added d (replicaId response.workerId p.replicaId) a ∉ s.history) ∧
      ∃ node, s.registry.nodeMap.get response.workerId = some node
  | .sendHealthStatus request _ => ∀ r ∈ request.replicaStates, r.status = "DEAD" →
      NamesOwn s.registry r.deploymentId r.replicaId request.workerId
  | _ => True

/-- The replicas added to the deployment and not reported DEAD since, with
their addresses. -/
def live : List Event → ℕ → List (String × String)
  | [], _ => []
  | .added d' key address::events, d =>
    if d' = d ∧ .dead key ∉ events then (key, address)::live events d else live events d
  | .dead _::events, d => live events d

theorem live_added (events : List Event) (d d' : ℕ) (key address : String) :
    live (events ++ [.added d' key address]) d =
      live events d ++ if d' = d then [(key, address)] else [] := by
  induction events with
  | nil => simp [live]
  | cons e events ih =>
    cases e with
    | added d₁ k a =>
      by_cases h : d₁ = d ∧ .dead k ∉ events <;> simp [live, ih, h]
    | dead k => simp [live, ih]

theorem live_dead (events : List Event) (d : ℕ) (key : String) :
    live (events ++ [.dead key]) d = (live events d).filter (fun r => r.1 ≠ key) := by
  induction events with
  | nil => simp [live]
  | cons e events ih =>
    cases e with
    | added d₁ k a =>
      by_cases h : d₁ = d ∧ .dead k ∉ events
      · obtain ⟨rfl, hm⟩ := h
        by_cases hk : k = key
        · subst hk
          simp [live, ih, hm]
        · simp [live, ih, hm, hk]
      · have h' : ¬ (d₁ = d ∧ .dead k ∉ events ++ [Event.dead key]) :=
          fun hc => h ⟨hc.1, fun hm => hc.2 (List.mem_append_left _ hm)⟩
        simp only [List.cons_append, live, if_neg h, if_neg h', ih]
    | dead k => simp [live, ih]

def additionsTo (d : ℕ) : Event → Option (String × String)
  | .added d' key address => if d' = d then some (key, address) else none
  | .dead _ => none

/-- Where ids are reported only after they were added, the live replicas are
the added ones that were never reported. -/
theorem live_eq_filter (d : ℕ) (before events : List Event)
    (h : ∀ pre d' key a post, events = pre ++ .added d' key a::post →
      .dead key ∉ before ++ pre) :
    live events d = (events.filterMap (additionsTo d)).filter
      (fun r => .dead r.1 ∉ before ++ events) := by
  induction events generalizing before with
  | nil => rfl
  | cons e events ih =>
    have hrest := ih (before ++ [e]) (fun pre d' key a post he => by
      simpa using h (e::pre) d' key a post (by rw [he]; rfl))
    rw [List.append_assoc, List.singleton_append] at hrest
    cases e with
    | added d₁ k a =>
      have hk : .dead k ∉ before := by simpa using h [] d₁ k a events rfl
      by_cases hd : d₁ = d <;> by_cases hm : .dead k ∈ events <;>
        simp [live, additionsTo, hd, hm, hk, hrest]
    | dead k =>
      rw [List.filterMap_cons_none rfl]
      exact hrest

def listing (dep : DeploymentHandle) : String × List (String × String) :=
  (dep.deploymentName, dep.replicas.map (fun r => (r.replicaNum, r.replicaAddress)))

def served (info : DeploymentInfoMessage) : String × List (String × String) :=
  (info.deploymentName, info.replicas.map (fun r => (r.replicaId, r.address)))

def Exact (deployments : Dict ℕ DeploymentHandle) (history : List Event) (p : RoutingUpdate) :
    Prop :=
  ∀ d, (p.currentDeployments.get d).map served =
    (deployments.get d).map (fun dep => (dep.deploymentName, live history d))

structure Tracks (deployments : Dict ℕ DeploymentHandle) (history : List Event)
    (g : Registry) : Prop where
  coherent : Coherent g
  registered : ∀ key ∈ g.replicaMap.keys, ∃ w n, key = replicaId w n ∧ w ∈ g.nodeMap.keys
  known : ∀ key ∈ g.replicaMap.keys, ∃ d a, Event.added d key a ∈ history
  lists : ∀ d, (g.deployments.get d).map listing =
    (deployments.get d).map (fun dep => (dep.deploymentName, live history d))

theorem Tracks.exact {deployments : Dict ℕ DeploymentHandle} {history : List Event}
    {g : Registry} (ht : Tracks deployments history g) (t : ℕ) :
    Exact deployments history (getCurrentRoutingTable g t) := by
  intro d
  rw [← ht.lists, getCurrentRoutingTable, Dict.get_mapVal, Option.map_map]
  congr 1
  funext dep
  simp [served, listing, deploymentMessage, routingReplica, List.map_map, Function.comp_def]

def without (key : String) (dep : DeploymentHandle) : DeploymentHandle :=
  { dep with replicas := dep.replicas.filter (fun r => r.replicaNum ≠ key) }

theorem listing_without (key : String) (dep : DeploymentHandle) :
    listing (without key dep) =
      ((listing dep).1, (listing dep).2.filter (fun r => r.1 ≠ key)) := by
  simp only [listing, without, List.filter_map]
  rfl

section
variable {deployments : Dict ℕ DeploymentHandle} {history : List Event} {g : Registry}
  {d n w c u : ℕ} {a : String} {p : Protos.ReplicaContent}

theorem get_removed_own (hg : Coherent g) {r : ReplicaInfo} (hr : HasReplica g d r) (d' : ℕ) :
    (g.removed d r.replicaNum).deployments.get d' =
      (g.deployments.get d').map (without r.replicaNum) := by
  rw [Registry.removed, Dict.get_modify]
  split
  next => rfl
  next h =>
    cases hd : g.deployments.get d' with
    | none => rfl
    | some dep =>
      have hall : ∀ x ∈ dep.replicas, x.replicaNum ≠ r.replicaNum :=
        fun x hx hc => h (hg.unique ⟨dep, hd, hx⟩ hr hc).1
      rw [Option.map_some, without, List.filter_eq_self.mpr (fun x hx => by simpa using hall x hx)]

theorem get_unknown (hg : Coherent g) {key : String} (hk : g.replicaMap.get key = none) (d' : ℕ) :
    g.deployments.get d' = (g.deployments.get d').map (without key) := by
  cases hd : g.deployments.get d' with
  | none => rfl
  | some dep =>
    have hall : ∀ x ∈ dep.replicas, x.replicaNum ≠ key :=
      fun x hx hc => Dict.get_eq_none.mp hk (hg.mem_keys.mpr ⟨d', x, ⟨dep, hd, hx⟩, hc⟩)
    rw [Option.map_some, without, List.filter_eq_self.mpr (fun x hx => by simpa using hall x hx)]

theorem lists_dead {g' : Registry} {key : String} (ht : Tracks deployments history g)
    (hd : ∀ d', g'.deployments.get d' = (g.deployments.get d').map (without key)) (d' : ℕ) :
    (g'.deployments.get d').map listing =
      (deployments.get d').map
        (fun dep => (dep.deploymentName, live (history ++ [.dead key]) d')) := by
  have h := congrArg (Option.map (fun l : String × List (String × String) =>
    (l.1, l.2.filter (fun r => r.1 ≠ key)))) (ht.lists d')
  rw [Option.map_map, Option.map_map] at h
  rw [hd, Option.map_map, live_dead]
  exact (congrArg (Option.map · _) (funext (listing_without key))).trans h

theorem namesOwn_removed (hg : Coherent g) {r : ReplicaInfo} (hr : HasReplica g d r)
    {d' n' w' : ℕ} (ho : NamesOwn g d' n' w') :
    NamesOwn (g.removed d r.replicaNum) d' n' w' := by
  intro x hx
  rw [Registry.removed, Dict.get_erase] at hx
  split at hx
  next => cases hx
  next h =>
    exact (has_removed_own hg hr).mpr ⟨ho x hx, fun hc => h (((hg.listed _ x).mp hx).1 ▸ hc)⟩

theorem Tracks.dead (ht : Tracks deployments history g) (ho : NamesOwn g d n w) :
    ∃ b g', removeReplicaFromDeployment d n w g = .ok b g' ∧
      Tracks deployments (history ++ [.dead (replicaId w n)]) g' ∧
      ∀ d' n' w', NamesOwn g d' n' w' → NamesOwn g' d' n' w' := by
  have hknown : ∀ key ∈ g.replicaMap.keys, ∃ d a,
      Event.added d key a ∈ history ++ [.dead (replicaId w n)] := by
    intro key hk
    obtain ⟨d, a, h⟩ := ht.known key hk
    exact ⟨d, a, List.mem_append_left _ h⟩
  rcases remove_cases ht.coherent ho with ⟨hk, h⟩ | ⟨r, rep, hnum, hr, -, h⟩
  · exact ⟨false, g, h, ⟨ht.coherent, ht.registered, hknown,
      lists_dead ht (get_unknown ht.coherent hk)⟩, fun d' n' w' hn => hn⟩
  · have hkey : replicaId w n ∈ g.replicaMap.keys := ht.coherent.mem_keys.mpr ⟨d, r, hr, hnum⟩
    obtain ⟨w', n', he, hw⟩ := ht.registered _ hkey
    obtain ⟨rfl, rfl⟩ := replicaId_inj.mp he
    obtain ⟨node, hnode⟩ := Dict.mem_keys.mp hw
    rw [hnode, ← hnum] at h
    have hkeys : ∀ key ∈ (g.removed d r.replicaNum).replicaMap.keys, key ∈ g.replicaMap.keys :=
      fun key hm => (Dict.mem_keys_erase.mp hm).2
    refine ⟨true, _, h, ⟨coherent_charged (removed_coherent ht.coherent hr) _ _ _, ?_, ?_, ?_⟩,
      fun d' n' w' hn => namesOwn_removed ht.coherent hr hn⟩
    · intro key hm
      rw [Registry.charged, Dict.keys_modify]
      exact ht.registered key (hkeys key hm)
    · exact fun key hm => hknown key (hkeys key hm)
    · exact hnum ▸ lists_dead ht (get_removed_own ht.coherent hr)

theorem lists_added (c u : ℕ) {dep : DeploymentHandle} (ht : Tracks deployments history g)
    (hd : g.deployments.get d = some dep) (d' : ℕ) :
    ((g.placed d w c u a p).deployments.get d').map listing =
      (deployments.get d').map (fun dep => (dep.deploymentName,
        live (history ++ [.added d (replicaId w p.replicaId) (a ++ ":" ++ p.port)]) d')) := by
  have h := ht.lists d'
  simp only [live_added]
  rw [Registry.placed, Dict.get_modify]
  by_cases hdd : d' = d
  · subst hdd
    rw [hd] at h
    obtain ⟨dep₀, h₀, he⟩ := Option.map_eq_some_iff.mp h.symm
    obtain ⟨hname, hlive⟩ := Prod.mk.inj he
    rw [if_pos rfl, hd, h₀, Option.map_some, Option.map_some, Option.map_some, hname, hlive]
    simp [listing, newReplica]
  · simp [hdd, Ne.symm hdd, h]

/-- An addition to an unknown deployment lists nothing. -/
theorem Tracks.missing (ht : Tracks deployments history g) (hd : g.deployments.get d = none)
    (key address : String) : Tracks deployments (history ++ [.added d key address]) g := by
  refine ⟨ht.coherent, ht.registered, fun key hm => ?_, fun d' => ?_⟩
  · obtain ⟨d', a', h⟩ := ht.known key hm
    exact ⟨d', a', List.mem_append_left _ h⟩
  · rw [ht.lists]
    by_cases hdd : d = d'
    · have hnone := ht.lists d
      rw [hd, Option.map_none, eq_comm, Option.map_eq_none_iff] at hnone
      rw [← hdd, hnone, Option.map_none, Option.map_none]
    · simp only [live_added, if_neg hdd, List.append_nil]

theorem Tracks.added (ht : Tracks deployments history g)
    (hnew : ∀ d' a', .added d' (replicaId w p.replicaId) a' ∉ history)
    {node : Node} (hw : g.nodeMap.get w = some node) :
    ∃ b g', addReplicaToDeployment d w [p] c u a g = .ok b g' ∧
      Tracks deployments
        (history ++ [.added d (replicaId w p.replicaId) (a ++ ":" ++ p.port)]) g' := by
  cases hd : g.deployments.get d with
  | none => exact ⟨false, g, add_missing hd w c u [p] a, ht.missing hd _ _⟩
  | some dep =>
    have hk : g.replicaMap.get (replicaId w p.replicaId) = none := by
      rw [Dict.get_eq_none]
      intro hm
      obtain ⟨d', a', h⟩ := ht.known _ hm
      exact hnew d' a' h
    have h := add_one hd w c u a p
    rw [hw] at h
    have hkeys : ∀ key ∈ (g.placed d w c u a p).replicaMap.keys,
        key = replicaId w p.replicaId ∨ key ∈ g.replicaMap.keys :=
      fun key hm => Dict.mem_keys_set.mp hm
    refine ⟨true, _, h, coherent_charged (placed_coherent ht.coherent hd hk) _ _ _, ?_, ?_,
      lists_added c u ht hd⟩
    · intro key hm
      rw [Registry.charged, Dict.keys_modify]
      rcases hkeys key hm with rfl | hm
      · exact ⟨w, p.replicaId, rfl, Dict.mem_keys.mpr ⟨node, hw⟩⟩
      · exact ht.registered key hm
    · intro key hm
      rcases hkeys key hm with rfl | hm
      · exact ⟨d, _, List.mem_append_right _ (List.mem_singleton_self _)⟩
      · obtain ⟨d', a', h⟩ := ht.known key hm
        exact ⟨d', a', List.mem_append_left _ h⟩

/-- The loop removes every replica reported DEAD, and nothing raises. -/
theorem Tracks.removeDead (ht : Tracks deployments history g) (rs : List Protos.ReplicaState)
    (ho : ∀ r ∈ rs, r.status = "DEAD" → NamesOwn g r.deploymentId r.replicaId w) :
    ∃ g', HeadController.removeDead w rs g = .ok () g' ∧
      Tracks deployments (history ++ deaths w rs) g' := by
  induction rs generalizing history g with
  | nil => exact ⟨g, rfl, by simpa [deaths] using ht⟩
  | cons r rs ih =>
    by_cases hr : r.status = "DEAD"
    · obtain ⟨b, g₁, h, ht₁, hkeep⟩ := ht.dead (ho r (List.mem_cons_self ..) hr)
      obtain ⟨g', hrest, ht'⟩ := ih ht₁ (fun x hx hd =>
        hkeep _ _ _ (ho x (List.mem_cons_of_mem _ hx) hd))
      refine ⟨g', ?_, ?_⟩
      · rw [HeadController.removeDead, if_pos hr]
        exact (StateExcept.bind_ok h).trans hrest
      · simpa [deaths, hr] using ht'
    · obtain ⟨g', hrest, ht'⟩ := ih ht (fun x hx => ho x (List.mem_cons_of_mem _ hx))
      refine ⟨g', ?_, ?_⟩
      · simp only [HeadController.removeDead, hr, if_false]
        exact hrest
      · simpa [deaths, hr] using ht'

end

structure Inv (deployments : Dict ℕ DeploymentHandle) (s : State) : Prop where
  tracks : Tracks deployments s.history s.registry
  not_raised : s.raised = []
  published : s.history ≠ [] → s.feed.published ≠ []
  exact : ∀ p, s.feed.published.getLast? = some p ∨ s.feed.latestRoutingSnapshot = some p →
    Exact deployments s.history p

section
variable {deployments : Dict ℕ DeploymentHandle} {s s' : State}

theorem run_ok {α : Type} {call : Py α} {x : α} {g : Registry}
    (h : call s.registry = .ok x g) (returned : α → State → State) (failed : State → State) :
    s.run call returned failed = returned x { s with registry := g } := by
  rw [State.run, h]

theorem onDeploymentChange_inv (ht : Tracks deployments s.history s.registry)
    (hn : s.raised = []) (t : ℕ) : Inv deployments (onDeploymentChange t s) where
  tracks := ht
  not_raised := hn
  published _ := by
    change s.feed.published ++ [_] ≠ []
    simp
  exact p hp := by
    change (s.feed.published ++ [_]).getLast? = some p ∨ some _ = some p at hp
    rw [List.getLast?_concat, or_self] at hp
    exact Option.some.inj hp ▸ ht.exact t

theorem subscribe_inv (hi : Inv deployments s) (t : ℕ) : Inv deployments (subscribe t s) where
  tracks := hi.tracks
  not_raised := hi.not_raised
  published := hi.published
  exact p hp := by
    rcases hp with hp | hp
    · exact hi.exact p (Or.inl hp)
    · exact Option.some.inj hp ▸ hi.tracks.exact t

theorem replied_inv (hi : Inv deployments s) (k : ℕ) {d c u t : ℕ}
    {response : ReplicaCreationReply} (hc : Conforms s (.reply k response t)) :
    Inv deployments (replied d c u response t { s with
      history := s.history ++ answered d response }) := by
  unfold replied answered
  split
  next hcr =>
    obtain ⟨p, hp, hnew, node, hw⟩ := hc hcr
    rw [additions, hp]
    obtain ⟨b, g', h, ht'⟩ := hi.tracks.added (d := d) (c := c) (u := u)
      (a := response.workerAddress) hnew hw
    rw [run_ok (s := { s with history := s.history ++ _ }) h]
    apply onDeploymentChange_inv
    · exact ht'
    · exact hi.not_raised
  next =>
    rw [List.append_nil]
    exact hi

theorem sendHealthStatus_inv (hi : Inv deployments s) {request : HealthStatusUpdate} {t : ℕ}
    (hc : Conforms s (.sendHealthStatus request t)) :
    Inv deployments (sendHealthStatus request t { s with
      history := s.history ++ deaths request.workerId request.replicaStates }) := by
  obtain ⟨g', h, ht'⟩ := hi.tracks.removeDead request.replicaStates hc
  rw [sendHealthStatus, run_ok (s := { s with history := s.history ++ _ }) h]
  split
  next =>
    apply onDeploymentChange_inv
    · exact ht'
    · exact hi.not_raised
  next hd =>
    have hnone : deaths request.workerId request.replicaStates = [] := by
      rw [deaths, List.map_eq_nil_iff, List.filter_eq_nil_iff]
      intro r hr hdead
      exact hd (List.any_eq_true.mpr ⟨r, hr, hdead⟩)
    rw [hnone, List.append_nil] at ht' ⊢
    exact ⟨ht', hi.not_raised, hi.published, hi.exact⟩

theorem Inv.tasks (hi : Inv deployments s) (replicaQueue : List (String × ℕ))
    (sleeping : Option (String × ℕ)) (creations : List Creation) (pendingReplicas : List ℕ) :
    Inv deployments { s with replicaQueue, sleeping, creations, pendingReplicas } :=
  ⟨hi.tracks, hi.not_raised, hi.published, hi.exact⟩

theorem registered_inv (hi : Inv deployments s) (request : RegisterRequest) :
    Inv deployments (registerNode request s) := by
  refine ⟨⟨⟨hi.tracks.coherent.listed, hi.tracks.coherent.ids_nodup, hi.tracks.coherent.own,
    hi.tracks.coherent.scaled⟩, fun key hm => ?_, hi.tracks.known, hi.tracks.lists⟩,
    hi.not_raised, hi.published, hi.exact⟩
  obtain ⟨w, n, hk, hw⟩ := hi.tracks.registered key hm
  exact ⟨w, n, hk, Dict.mem_keys_set.mpr (Or.inr hw)⟩

theorem recordMetrics_inv (hi : Inv deployments s) (w n : ℕ) (avg : UInt32) (sent : ℕ) :
    Inv deployments (s.run (AutoScaleManager.loadMetrics w n avg sent) (fun _ s => s) id) := by
  refine ⟨⟨⟨hi.tracks.coherent.listed, hi.tracks.coherent.ids_nodup, hi.tracks.coherent.own,
    fun key => ?_⟩, hi.tracks.registered, hi.tracks.known, hi.tracks.lists⟩,
    hi.not_raised, hi.published, hi.exact⟩
  change key ∈ (s.registry.autoScaleMap.modify _ _).keys ↔ _
  rw [Dict.keys_modify]
  exact hi.tracks.coherent.scaled key

theorem feed_inv (hi : Inv deployments s) {a : RoutingFeed.Act}
    (ha : (∃ k, a = .resume k) ∨ ∃ k, a = .cancel k)
    (hs : (RoutingFeed.step s.feed a).map (fun f => { s with feed := f }) = some s') :
    Inv deployments s' := by
  obtain ⟨f, hf, rfl⟩ := Option.map_eq_some_iff.mp hs
  have hsame : f.published = s.feed.published ∧
      f.latestRoutingSnapshot = s.feed.latestRoutingSnapshot := by
    rcases ha with ⟨k, rfl⟩ | ⟨k, rfl⟩
    · obtain ⟨x, -, rfl⟩ := Option.map_eq_some_iff.mp hf
      exact ⟨rfl, rfl⟩
    · obtain ⟨-, rfl⟩ := Option.ite_some_none_eq_some.mp hf
      exact ⟨rfl, rfl⟩
  refine ⟨hi.tracks, hi.not_raised, ?_, ?_⟩
  · exact hsame.1 ▸ hi.published
  · exact hsame.1 ▸ hsame.2 ▸ hi.exact

theorem step_inv (s : State) (a : Act) (s' : State) (hi : Inv deployments s)
    (hc : Conforms s a) (hs : step s a = some s') : Inv deployments s' := by
  cases a with
  | registerNode request => exact Option.some.inj hs ▸ registered_inv hi request
  | takeQueued =>
    obtain ⟨_, _, -, -, rfl⟩ := step_takeQueued hs
    exact hi.tasks _ _ _ _
  | spawnCreation =>
    obtain ⟨item, -, rfl⟩ := Option.map_eq_some_iff.mp hs
    exact hi.tasks _ _ _ _
  | createReplica address d c u =>
    obtain rfl := Option.some.inj hs
    exact hi.tasks _ _ _ _
  | request k =>
    obtain ⟨_, _, _, _, -, rfl⟩ := step_request hs
    exact hi.tasks _ _ _ _
  | reply k response t =>
    obtain ⟨_, _, _, _, -, rfl⟩ := step_reply hs
    have htasks := hi.tasks s.replicaQueue s.sleeping (s.creations.set k .done) s.pendingReplicas
    exact replied_inv htasks k hc
  | failed k =>
    obtain ⟨_, _, _, _, -, rfl⟩ := step_failed hs
    exact hi.tasks _ _ _ _
  | sendHealthStatus request t => exact Option.some.inj hs ▸ sendHealthStatus_inv hi hc
  | recordMetrics w n avg sent => exact Option.some.inj hs ▸ recordMetrics_inv hi w n avg sent
  | subscribe t => exact Option.some.inj hs ▸ subscribe_inv hi t
  | resume k => exact feed_inv hi (Or.inl ⟨k, rfl⟩) hs
  | cancel k => exact feed_inv hi (Or.inr ⟨k, rfl⟩) hs

end

theorem initial_inv {deployments : Dict ℕ DeploymentHandle} (he : NoReplicas deployments) :
    Inv deployments (initial deployments) where
  tracks := by
    refine ⟨idle_coherent he, fun key hm => ?_, fun key hm => ?_, fun d => ?_⟩
    · cases hm
    · cases hm
    · change (deployments.get d).map listing = _
      cases hd : deployments.get d with
      | none => rfl
      | some dep =>
        simp [listing, initial, live, he d dep hd]
  not_raised := rfl
  published h := absurd rfl h
  exact p hp := by
    rcases hp with hp | hp <;> cases hp

def DistinctNames (deployments : Dict ℕ DeploymentHandle) : Prop :=
  ∀ d d' dep dep', deployments.get d = some dep → deployments.get d' = some dep' →
    dep.deploymentName = dep'.deploymentName → d = d'

/-- The proxy's table has exactly the deployments' names, each with exactly
the live replicas of its deployment. -/
structure TableLive (deployments : Dict ℕ DeploymentHandle) (history : List Event)
    (out : Proxy.Heap × Proxy.RoutingTable) : Prop where
  names : ∀ name, name ∈ out.2.keys ↔
    ∃ d dep, deployments.get d = some dep ∧ dep.deploymentName = name
  replicas : ∀ d dep, deployments.get d = some dep → ∃ h handle,
    out.2.get dep.deploymentName = some h ∧ out.1[h]? = some handle ∧
    handle.replicas.map (fun r => (r.replicaId, r.address)) = live history d

theorem distinctNames_of_nodup {deployments : Dict ℕ DeploymentHandle}
    (h : (deployments.entries.map (fun e => e.2.deploymentName)).Nodup) :
    DistinctNames deployments := by
  intro d d' dep dep' hd hd' hname
  rw [Dict.get_eq_some] at hd hd'
  exact congrArg Prod.fst (List.inj_on_of_nodup_map h hd hd' hname)

section
variable {deployments : Dict ℕ DeploymentHandle} {history : List Event} {p : RoutingUpdate}

theorem Exact.of_entry (he : Exact deployments history p) {d : ℕ} {info : DeploymentInfoMessage}
    (hm : (d, info) ∈ p.currentDeployments.entries) : ∃ dep, deployments.get d = some dep ∧
      dep.deploymentName = info.deploymentName ∧
      info.replicas.map (fun r => (r.replicaId, r.address)) = live history d := by
  have h := he d
  rw [Dict.get_eq_some.mpr hm, Option.map_some] at h
  obtain ⟨dep, hd, hs⟩ := Option.map_eq_some_iff.mp h.symm
  obtain ⟨hname, hlive⟩ := Prod.mk.inj hs
  exact ⟨dep, hd, hname, hlive.symm⟩

theorem Exact.entry (he : Exact deployments history p) {d : ℕ} {dep : DeploymentHandle}
    (hd : deployments.get d = some dep) : ∃ info, (d, info) ∈ p.currentDeployments.entries ∧
      info.deploymentName = dep.deploymentName := by
  have h := he d
  rw [hd, Option.map_some] at h
  obtain ⟨info, hi, hs⟩ := Option.map_eq_some_iff.mp h
  exact ⟨info, Dict.get_eq_some.mp hi, (Prod.mk.inj hs).1⟩

/-- Whatever order the proxy visits the entries in. -/
theorem Exact.applied (he : Exact deployments history p) (hn : DistinctNames deployments)
    {entries : List (ℕ × DeploymentInfoMessage)} (hp : entries.Perm p.currentDeployments.entries)
    (heap : Proxy.Heap) :
    TableLive deployments history (Proxy.applyRoutingUpdate heap entries) := by
  have hnames : ∀ name, name ∈ (Proxy.applyRoutingUpdate heap entries).2.keys ↔
      ∃ d dep, deployments.get d = some dep ∧ dep.deploymentName = name := by
    intro name
    rw [Proxy.mem_applyRoutingUpdate_keys]
    constructor
    · rintro ⟨⟨d, info⟩, hm, rfl⟩
      obtain ⟨dep, hd, hname, -⟩ := he.of_entry (hp.mem_iff.mp hm)
      exact ⟨d, dep, hd, hname⟩
    · rintro ⟨d, dep, hd, rfl⟩
      obtain ⟨info, hm, hname⟩ := he.entry hd
      exact ⟨_, hp.mem_iff.mpr hm, hname⟩
  refine ⟨hnames, fun d dep hd => ?_⟩
  obtain ⟨h, hh⟩ := Dict.mem_keys.mp ((hnames _).mpr ⟨d, dep, hd, rfl⟩)
  obtain ⟨j, info, ⟨⟨id, hj⟩, hname, -⟩, rfl⟩ :=
    (Proxy.applyRoutingUpdate_get heap entries _ h).mp hh
  obtain ⟨dep', hd', hname', hlive⟩ := he.of_entry (hp.mem_iff.mp (List.mem_of_getElem? hj))
  obtain rfl := hn id d dep' dep hd' hd (hname'.trans hname)
  refine ⟨_, Proxy.DeploymentHandle.ofInfo info, hh, ?_, ?_⟩
  · simp [Proxy.applyRoutingUpdate_heap, List.getElem?_append_right, hj]
  · rw [← hlive]
    simp [Proxy.ReplicaInfo.ofProto, List.map_map, Function.comp_def]

end

/-- What every state of a conforming run satisfies. -/
structure LiveTable (deployments : Dict ℕ DeploymentHandle) (s : State) : Prop where
  not_raised : s.raised = []
  scaled : ∀ key, key ∈ s.registry.autoScaleMap.keys ↔ key ∈ s.registry.replicaMap.keys
  listed : ∀ key, key ∈ s.registry.replicaMap.keys ↔ ∃ d dep,
    s.registry.deployments.get d = some dep ∧ key ∈ dep.replicas.map ReplicaInfo.replicaNum
  published : s.history ≠ [] → s.feed.published.getLast? ≠ none
  exact : ∀ p, s.feed.published.getLast? = some p ∨ s.feed.latestRoutingSnapshot = some p →
    Exact deployments s.history p
  applied : DistinctNames deployments →
    ∀ p, s.feed.published.getLast? = some p ∨ s.feed.latestRoutingSnapshot = some p →
    ∀ entries, entries.Perm p.currentDeployments.entries → ∀ heap,
      TableLive deployments s.history (Proxy.applyRoutingUpdate heap entries)

theorem Inv.liveTable {deployments : Dict ℕ DeploymentHandle} {s : State}
    (hi : Inv deployments s) : LiveTable deployments s where
  not_raised := hi.not_raised
  scaled := hi.tracks.coherent.scaled
  listed key := by
    rw [hi.tracks.coherent.mem_keys]
    constructor
    · rintro ⟨d, r, ⟨dep, hd, hr⟩, rfl⟩
      exact ⟨d, dep, hd, List.mem_map_of_mem hr⟩
    · rintro ⟨d, dep, hd, hm⟩
      obtain ⟨r, hr, hn⟩ := List.mem_map.mp hm
      exact ⟨d, r, ⟨dep, hd, hr⟩, hn⟩
  published h := by
    rw [ne_eq, List.getLast?_eq_none_iff]
    exact hi.published h
  exact := hi.exact
  applied hn p hp entries hperm heap := (hi.exact p hp).applied hn hperm heap

/-- In every run whose created replies carry new ids and whose DEAD entries
name the right deployment, nothing raises, the maps and the lists agree, and
the latest snapshot lists exactly the live replicas. -/
theorem published_table_is_live (deployments : Dict ℕ DeploymentHandle)
    (he : NoReplicas deployments) (as : List Act) (s : State)
    (hr : Runs.exec step as (initial deployments) = some s)
    (hc : Runs.Along step Conforms as (initial deployments)) : LiveTable deployments s :=
  (Runs.exec_invariant_along step_inv (initial_inv he) hc hr).liveTable

theorem addOrUpdate_noReplicas {g : Registry} (h : NoReplicas g.deployments) (id : ℕ)
    (name version : String) (c u : ℕ) :
    NoReplicas (after (addOrUpdateDeployment id name version c u) g).deployments := by
  intro d dep hd
  cases hg : g.deployments.get id with
  | none =>
    have he : (after (addOrUpdateDeployment id name version c u) g).deployments =
        g.deployments.set id ⟨name, version, c, u, []⟩ := by
      simp only [after, addOrUpdateDeployment, StateExcept.modify_apply, StateExcept.finalState, hg]
    rw [he, Dict.get_set] at hd
    split at hd
    next => exact Option.some.inj hd ▸ rfl
    next => exact h d dep hd
  | some old =>
    have he : (after (addOrUpdateDeployment id name version c u) g).deployments =
        g.deployments.modify id (fun dep => { dep with
          deploymentName := name, version := version, numCpus := c, numGpus := u }) := by
      simp only [after, addOrUpdateDeployment, StateExcept.modify_apply, StateExcept.finalState, hg]
    rw [he, Dict.get_modify] at hd
    split at hd
    next =>
      obtain ⟨dep', hd', rfl⟩ := Option.map_eq_some_iff.mp hd
      exact h d dep' hd'
    next => exact h d dep hd

theorem ownDeployments_noReplicas : NoReplicas ownDeployments := by
  have h0 : NoReplicas (Registry.idle Dict.empty).deployments := by
    intro d dep hd
    cases hd
  exact addOrUpdate_noReplicas (addOrUpdate_noReplicas (addOrUpdate_noReplicas h0 1 _ _ _ _)
    2 _ _ _ _) 3 _ _ _ _

theorem ownDeployments_distinct : DistinctNames ownDeployments :=
  distinctNames_of_nodup (by decide)

def createdAndLost : List Act :=
  [.subscribe 1, .registerNode sampleNode, .takeQueued, .spawnCreation, .request 0,
    .reply 0 ⟨1, [⟨1, "50101"⟩], "10.0.0.1", true⟩ 2,
    .sendHealthStatus ⟨1, "10.0.0.1", [⟨1, 2, "DEAD"⟩]⟩ 3]

theorem published_table_is_live_sample : ∃ s,
    Runs.exec step createdAndLost (initial ownDeployments) = some s ∧
    DistinctNames ownDeployments ∧ LiveTable ownDeployments s := by
  refine ⟨_, rfl, ownDeployments_distinct, published_table_is_live ownDeployments
    ownDeployments_noReplicas createdAndLost _ rfl ?_⟩
  iterate 5 refine (Runs.along_cons rfl).mpr ⟨trivial, ?_⟩
  refine (Runs.along_cons rfl).mpr ⟨fun _ => ⟨_, rfl, fun _ _ => List.not_mem_nil, _, rfl⟩, ?_⟩
  refine (Runs.along_cons rfl).mpr ⟨fun r hr _ => ?_, trivial⟩
  obtain rfl := List.mem_singleton.mp hr
  exact of_decide_eq_true rfl

end ServingSystem.Head.HeadController
