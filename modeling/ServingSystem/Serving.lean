import ServingSystem.ClusterRouting
import ServingSystem.ProxySessions

/-!
# The proxies of a cluster

The head and its workers with any number of proxies. A proxy reads one routing
stream of the head at a time, in order; it may lose it at any time, with what
it has not read, and then subscribes again. Its sessions go on in between.
With a snapshot stands the length of the head's history when it was yielded,
with a proxy that of the snapshot applied last, and with a session what its
client asked for; no step reads these.
-/

set_option autoImplicit false

namespace ServingSystem.Serving
open Protos (RoutingUpdate DeploymentInfoMessage)
open Head HeadController

structure Subscriber where
  current : Option (ℕ × ℕ)
  proxy : Proxy.ProxySessions.State
  seen : ℕ
  targets : List String

structure State where
  cluster : Cluster.State
  yielded : List (List (RoutingUpdate × ℕ))
  subscribers : List Subscriber

def yields : RoutingFeed.Stream → Option RoutingUpdate
  | .yieldingInitial snapshot => some snapshot
  | .yielding _ snapshot => some snapshot
  | _ => none

def yieldedAt (head : HeadController.State) (k : ℕ) : List (RoutingUpdate × ℕ) :=
  ((head.feed.streams[k]?.bind yields).map (fun p => (p, head.history.length))).toList

def yieldedAfter (head : HeadController.State) (yielded : List (List (RoutingUpdate × ℕ))) :
    Cluster.Act → List (List (RoutingUpdate × ℕ))
  | .head (.subscribe _) => yielded ++ [yieldedAt head yielded.length]
  | .head (.resume k) => yielded.modify k (fun l => l ++ yieldedAt head k)
  | _ => yielded

inductive Act where
  | cluster (a : Cluster.Act)
  | start (t : ℤ)
  | subscribe (proxy timestampNs : ℕ)
  | receive (proxy : ℕ) (entries : List (ℕ × DeploymentInfoMessage)) (t : ℤ)
  | disconnect (proxy : ℕ)
  | lookup (proxy : ℕ) (target : String)
  | session (proxy : ℕ) (a : Proxy.ProxySessions.Act)

def cluster (a : Cluster.Act) (s : State) : Option State :=
  (Cluster.step s.cluster a).map (fun c => { s with
    cluster := c
    yielded := yieldedAfter c.head s.yielded a })

def subscribe (k timestampNs : ℕ) (p : Subscriber) (s : State) : Option State :=
  if p.current = none then
    (cluster (.head (.subscribe timestampNs)) s).map (fun t => { t with
      subscribers := t.subscribers.set k { p with current := some (s.yielded.length, 0) } })
  else none

/-- The next snapshot of the proxy's stream, its map visited in any order. -/
def receive (k : ℕ) (entries : List (ℕ × DeploymentInfoMessage)) (t : ℤ) (p : Subscriber)
    (s : State) : Option State :=
  p.current.bind (fun c => (s.yielded[c.1]?.bind (fun l => l[c.2]?)).bind (fun update =>
    if entries.Perm update.1.currentDeployments.entries then
      (Proxy.ProxySessions.step p.proxy (.update entries t)).map (fun proxy => { s with
        subscribers := s.subscribers.set k { p with
          current := some (c.1, c.2+1)
          proxy := proxy
          seen := update.2 } })
    else none))

def ofSession : Proxy.ProxySessions.Act → Bool
  | .pick _ _ => true
  | .mark _ _ => true
  | .release _ => true
  | _ => false

def step (s : State) : Act → Option State
  | .cluster a => cluster a s
  | .start t => some { s with
      subscribers := s.subscribers ++ [⟨none, Proxy.ProxySessions.initial t, 0, []⟩] }
  | .subscribe k t => s.subscribers[k]?.bind (fun p => subscribe k t p s)
  | .receive k entries t => s.subscribers[k]?.bind (fun p => receive k entries t p s)
  | .disconnect k => s.subscribers[k]?.map (fun p => { s with
      subscribers := s.subscribers.set k { p with current := none } })
  | .lookup k target => s.subscribers[k]?.bind (fun p =>
      (Proxy.ProxySessions.step p.proxy (.lookup target)).map (fun proxy => { s with
        subscribers := s.subscribers.set k
          { p with proxy := proxy, targets := p.targets ++ [target] } }))
  | .session k a =>
    if ofSession a then
      s.subscribers[k]?.bind (fun p => (Proxy.ProxySessions.step p.proxy a).map (fun proxy =>
        { s with subscribers := s.subscribers.set k { p with proxy := proxy } }))
    else none

def initial (deployments : Dict ℕ DeploymentHandle)
    (nodes : List (ℕ × String)) : State :=
  ⟨Cluster.initial deployments nodes, [], []⟩

structure Built where
  name : String
  routes : List (String × String)
  channels : Dict String Proxy.Channel

def route (r : Proxy.ReplicaInfo) : String × String := (r.replicaId, r.address)

def built (h : Proxy.DeploymentHandle) : Built :=
  ⟨h.deploymentName, h.replicas.map route, h.channelCache⟩

theorem built_pick (h : Proxy.DeploymentHandle) (t : ℤ) :
    built (h.pickNextReplica t).2 = built h := by
  have hrecover : (h.replicas.map (Proxy.DeploymentHandle.recover t)).map route =
      h.replicas.map route := by
    rw [List.map_map]
    refine List.map_congr_left (fun r _ => ?_)
    simp only [Function.comp_apply, route, Proxy.DeploymentHandle.recover]
    split <;> rfl
  rcases h.pick_cases t with ⟨-, he⟩ | ⟨i, r, -, he⟩
  · simp only [he, built, hrecover]
  · simp only [he, built]
    rw [Positions.map_modify_eq (f := Proxy.DeploymentHandle.acquire) (fun _ => rfl), hrecover]

theorem built_mark (h : Proxy.DeploymentHandle) (id : String) (t : ℤ) :
    built (h.markReplicaUnhealthy id t) = built h :=
  congrArg (fun routes => Built.mk h.deploymentName routes h.channelCache)
    (Proxy.DeploymentHandle.markLoop_map (fun _ => rfl) id h.replicas)

theorem built_release (h : Proxy.DeploymentHandle) (i : ℕ) :
    built (h.releaseReplica i) = built h :=
  congrArg (fun routes => Built.mk h.deploymentName routes h.channelCache)
    (Positions.map_modify_eq (f := Proxy.DeploymentHandle.release) (fun _ => rfl) h.replicas i)

open Proxy.ProxySessions (Session)

/-- A session uses handles of the deployment that its client asked for, and
has picked a replica that its handle has. -/
structure Asks (handles : List Built) (target : String) (x : Session) : Prop where
  named : ∀ h i, x.Uses h i → ∃ b, handles[h]? = some b ∧ b.name = target
  picked : ∀ h i, x.picked = some (h, i) → ∃ b, handles[h]? = some b ∧ i < b.routes.length

structure Goes (p q : Proxy.ProxySessions.State) : Prop where
  handles : q.heap.map built = p.heap.map built
  table : q.routingTable = p.routingTable
  session : ∃ (k : ℕ) (x z : Session), p.sessions[k]? = some x ∧ q.sessions = p.sessions.set k z ∧
    ∀ target, Asks (p.heap.map built) target x → Asks (p.heap.map built) target z

section
variable {p q : Proxy.ProxySessions.State}

theorem onHandle_goes {h k : ℕ} {x z : Session} (hk : p.sessions[k]? = some x)
    {f : Proxy.DeploymentHandle → Proxy.DeploymentHandle} (hf : ∀ d, built (f d) = built d)
    (hask : ∀ target, Asks (p.heap.map built) target x → Asks (p.heap.map built) target z)
    (hheap : q.heap = p.heap.modify h f) (htable : q.routingTable = p.routingTable)
    (hsessions : q.sessions = p.sessions.set k z) : Goes p q :=
  ⟨hheap ▸ Positions.map_modify_eq hf p.heap h, htable, k, x, z, hk, hsessions, hask⟩

theorem session_goes {a : Proxy.ProxySessions.Act} (ha : ofSession a = true)
    (hs : Proxy.ProxySessions.step p a = some q) : Goes p q := by
  cases a with
  | pick k t =>
    obtain ⟨-, hs⟩ := Option.ite_none_right_eq_some.mp hs
    split at hs
    next h hx =>
      obtain ⟨d, hd, rfl⟩ := Option.map_eq_some_iff.mp hs
      refine onHandle_goes hx (fun d => built_pick d t) (fun target hask => ?_) rfl rfl rfl
      rcases d.pick_cases t with ⟨-, he⟩ | ⟨i, r, hc, he⟩
      · rw [he]
        exact ⟨fun _ _ hu => hu.elim, fun _ _ hp => nomatch hp⟩
      · rw [he]
        have hroute : i < (built d).routes.length := by
          rw [built, List.length_map]
          exact (List.getElem?_eq_some_iff.mp hc.at_index).1
        have hbuilt : (p.heap.map built)[h]? = some (built d) := by
          rw [List.getElem?_map, hd, Option.map_some]
        refine ⟨fun h' _ hu => hask.named h' 0 hu.1, fun h' i' hp => ?_⟩
        obtain ⟨rfl, rfl⟩ := Prod.mk.inj (Option.some.inj hp)
        exact ⟨built d, hbuilt, hroute⟩
    next => cases hs
  | mark k t =>
    obtain ⟨-, hs⟩ := Option.ite_none_right_eq_some.mp hs
    split at hs
    next h i hx =>
      obtain ⟨id, -, rfl⟩ := Option.map_eq_some_iff.mp hs
      exact onHandle_goes (z := .marked h i) hx (fun d => built_mark d id t)
        (fun _ hask => ⟨hask.named, hask.picked⟩) rfl rfl rfl
    next => cases hs
  | release k =>
    have hdone : ∀ target, Asks (p.heap.map built) target .done :=
      fun _ => ⟨fun _ _ hu => hu.elim, fun _ _ hp => nomatch hp⟩
    simp only [Proxy.ProxySessions.step] at hs
    split at hs
    next h i hx =>
      obtain rfl := Option.some.inj hs
      exact onHandle_goes hx (fun d => built_release d i) (fun target _ => hdone target) rfl rfl rfl
    next h i hx =>
      obtain rfl := Option.some.inj hs
      exact onHandle_goes hx (fun d => built_release d i) (fun target _ => hdone target) rfl rfl rfl
    next => cases hs
  | _ => cases ha

end

end ServingSystem.Serving
