import ServingSystem.ClusterBounds
import ServingSystem.FleetCreation

/-!
# The fleet of a head

The instances that the head launches, each with the scheduler that its script
starts. `_register_node` sends its request up to three times before the
scheduler serves; a request arrives once, late or never, also when the
scheduler was killed meanwhile. The cluster runs on those that serve.
-/

set_option autoImplicit false

namespace ServingSystem.Fleet
open Protos (RegisterRequest Resource)
open AwsVm Head CommandLine

def rounds : ℕ := 4

structure Environment where
  schedulerId : String
  numCpus : String
  numGpus : String
  deriving DecidableEq, Repr

def capacities : List (String × (ℕ × ℕ)) :=
  [("small", (4, 1)), ("a100", (8, 1)), ("cpu-only", (2, 0))]

def environment (schedulerId minCpuCores gpuCount : ℕ) : Environment :=
  ⟨toString schedulerId, toString minCpuCores, toString gpuCount⟩

def pyInt (text : String) : Option ℕ :=
  if text.toList ≠ [] ∧ text.toList.all Char.isDigit then
    some (Nat.ofDigitChars 10 text.toList 0)
  else none

def requestOf (env : Environment) (nodeAddress : String) : Option RegisterRequest := do
  let numCpus ← pyInt env.numCpus
  let numGpus ← pyInt env.numGpus
  let workerId ← pyInt env.schedulerId
  return ⟨workerId, nodeAddress, toString nodePort, ⟨numCpus, numGpus⟩⟩

def requests (launched : List (ℕ × String)) (address : ℕ → String) : List RegisterRequest :=
  launched.filterMap (fun l => (capacities.lookup "small").bind (fun c =>
    requestOf (environment l.1 c.1 c.2) (address l.1)))

/-- `_register_node` at its call of an attempt, the server after it, or the
process killed. -/
inductive Phase where
  | registering (attempt : ℕ)
  | serving
  | killed
  deriving DecidableEq, Repr

/-- A scheduler, and of each request it has sent whether the head has handled
it. -/
structure Boot where
  request : RegisterRequest
  phase : Phase
  handled : List Bool
  deriving DecidableEq, Repr

inductive Response where
  | reply (ack : Bool)
  | rpcError
  | exception
  deriving DecidableEq, Repr

def headStoreMaxRetries : ℕ := 3

/-- A reply without an acknowledgement is only printed. After the last
`RpcError`, `try_send_with_retries_sync` returns `None`, reading its `ack`
raises, and the process is killed, as after any other exception. -/
def respond (response : Response) (b : Boot) : Option Boot :=
  match b.phase with
  | .registering attempt =>
    match response with
    | .reply _ => some { b with phase := .serving }
    | .rpcError =>
      if attempt < headStoreMaxRetries then
        some { b with phase := .registering (attempt+1), handled := b.handled ++ [false] }
      else some { b with phase := .killed }
    | .exception => some { b with phase := .killed }
  | _ => none

/-- The head replies with an acknowledgement, and only once it has handled the
request of the attempt. -/
def Boot.receives (b : Boot) : Response → Bool
  | .reply ack => ack && b.handled.getLast? == some true
  | _ => true

structure State where
  cluster : Cluster.State
  boots : List Boot

def State.serves (s : State) (worker : ℕ) : Bool :=
  s.boots[worker]?.any (fun b => b.phase = .serving)

def target : Cluster.Act → Option ℕ
  | .arrive _ worker _ => some worker
  | .report worker => some worker
  | .worker worker _ => some worker
  | _ => none

def registers : Cluster.Act → Bool
  | .register _ _ => true
  | _ => false

inductive Act where
  | handle (worker attempt : ℕ)
  | respond (worker : ℕ) (response : Response)
  | cluster (a : Cluster.Act)

def handle (j n : ℕ) (s : State) : Option State :=
  s.boots[j]?.bind (fun b =>
    if b.handled[n]? = some false then
      (Cluster.step s.cluster (.register j b.request.resource)).map (fun c =>
        ⟨c, s.boots.set j { b with handled := b.handled.set n true }⟩)
    else none)

def step (s : State) : Act → Option State
  | .handle j n => handle j n s
  | .respond j response => s.boots[j]?.bind (fun b =>
      if b.receives response then
        (respond response b).map (fun b' => { s with boots := s.boots.set j b' })
      else none)
  | .cluster a =>
    if ¬ registers a ∧ (target a).all s.serves then
      (Cluster.step s.cluster a).map (fun c => { s with cluster := c })
    else none

def nodes (rs : List RegisterRequest) : List (ℕ × String) :=
  rs.map (fun r => (r.nodeId, r.nodeAddress))

def initial (rs : List RegisterRequest) : State :=
  ⟨Cluster.initial HeadController.ownDeployments (nodes rs),
    rs.map (fun r => ⟨r, .registering 1, [false]⟩)⟩

theorem pyInt_toString (n : ℕ) : pyInt (toString n) = some n := by
  have hlist : (toString n).toList = Nat.toDigits 10 n := HttpMessage.toString_digits n
  have hall : (Nat.toDigits 10 n).all Char.isDigit = true :=
    List.all_eq_true.mpr HttpMessage.toDigits_isDigit
  rw [pyInt, hlist, if_pos ⟨Nat.toDigits_ne_nil, hall⟩, Nat.ofDigitChars_ten_toDigits]

theorem requestOf_environment (k c g : ℕ) (address : String) :
    requestOf (environment k c g) address =
      some ⟨k, address, toString nodePort, ⟨c, g⟩⟩ := by
  simp only [requestOf, environment, pyInt_toString]
  rfl

theorem requests_eq (launched : List (ℕ × String)) (address : ℕ → String) :
    requests launched address =
      launched.map (fun l => ⟨l.1, address l.1, toString nodePort, ⟨4, 1⟩⟩) := by
  rw [requests, ← List.filterMap_eq_map]
  refine List.filterMap_congr (fun l _ => ?_)
  exact requestOf_environment l.1 4 1 (address l.1)

theorem requests_ids (launched : List (ℕ × String)) (address : ℕ → String) :
    (requests launched address).map RegisterRequest.nodeId = launched.map Prod.fst := by
  rw [requests_eq, List.map_map]
  rfl

theorem nodes_requests (launched : List (ℕ × String)) (address : ℕ → String) :
    nodes (requests launched address) = launched.map (fun l => (l.1, address l.1)) := by
  rw [requests_eq, nodes, List.map_map]
  rfl

end ServingSystem.Fleet
