import ServingSystem.RoutingTable
import ServingSystem.Runs

/-!
# Sessions across routing updates

One proxy: routing updates swap the table while sessions look a handle up,
pick, report a failure and release, in any order. A session keeps the handle
it looked up, whatever the table holds by then. The failure reports and the
replicas of the table replaced last are recorded and read by no step.
-/

set_option autoImplicit false

namespace ServingSystem.Proxy.ProxySessions
open Protos Positions DeploymentHandle

inductive Session where
  | lookedUp (handle : ℕ)
  | holding (handle info : ℕ)
  | marked (handle info : ℕ)
  | done
  deriving DecidableEq, Repr

structure State where
  heap : Heap
  routingTable : RoutingTable
  sessions : List Session
  clock : ℤ
  marks : List (String × ℤ)
  preceding : List String

inductive Act where
  | update (entries : List (ℕ × DeploymentInfoMessage)) (t : ℤ)
  | lookup (target : String)
  | pick (session : ℕ) (t : ℤ)
  | mark (session : ℕ) (t : ℤ)
  | release (session : ℕ)

def cell (heap : Heap) (h i : ℕ) : Option ReplicaInfo := heap[h]?.bind (fun d => d.replicas[i]?)

def idAt (heap : Heap) (h i : ℕ) : Option String := (cell heap h i).map ReplicaInfo.replicaId

def tableIds (s : State) : List String :=
  s.routingTable.entries.flatMap (fun e => (s.heap[e.2]?.map DeploymentHandle.ids).getD [])

def onHandle (s : State) (h : ℕ) (f : DeploymentHandle → DeploymentHandle) (k : ℕ)
    (session : Session) : State :=
  { s with heap := s.heap.modify h f, sessions := s.sessions.set k session }

def pickStep (s : State) (k h : ℕ) (t : ℤ) : Option State :=
  s.heap[h]?.map (fun d => { onHandle s h (fun d => (d.pickNextReplica t).2) k
    (match (d.pickNextReplica t).1 with
      | some c => .holding h c.info
      | none => .done) with clock := t })

def markStep (s : State) (k h i : ℕ) (t : ℤ) : Option State :=
  (idAt s.heap h i).map (fun id => { onHandle s h (fun d => d.markReplicaUnhealthy id t) k
    (.marked h i) with clock := t, marks := s.marks ++ [(id, t)] })

def updateStep (s : State) (entries : List (ℕ × DeploymentInfoMessage)) (t : ℤ) : State :=
  { s with
    heap := (applyRoutingUpdate s.heap entries).1
    routingTable := (applyRoutingUpdate s.heap entries).2
    clock := t
    preceding := tableIds s }

def step (s : State) : Act → Option State
  | .update entries t => if s.clock ≤ t then some (updateStep s entries t) else none
  | .lookup target =>
    (s.routingTable.get target).map (fun h => { s with sessions := s.sessions ++ [.lookedUp h] })
  | .pick k t =>
    if s.clock ≤ t then
      match s.sessions[k]? with
      | some (.lookedUp h) => pickStep s k h t
      | _ => none
    else none
  | .mark k t =>
    if s.clock ≤ t then
      match s.sessions[k]? with
      | some (.holding h i) => markStep s k h i t
      | _ => none
    else none
  | .release k =>
    match s.sessions[k]? with
    | some (.holding h i) => some (onHandle s h (fun d => d.releaseReplica i) k .done)
    | some (.marked h i) => some (onHandle s h (fun d => d.releaseReplica i) k .done)
    | _ => none

def initial (t : ℤ) : State := ⟨[], Dict.empty, [], t, [], []⟩

def Session.picked : Session → Option (ℕ × ℕ)
  | .lookedUp _ => none
  | .holding h i => some (h, i)
  | .marked h i => some (h, i)
  | .done => none

/-- Requests in flight to a replica id, whichever table they started under. -/
def inFlight (s : State) (id : String) : ℤ :=
  s.sessions.countP (fun x => x.picked.bind (fun p => idAt s.heap p.1 p.2) = some id)

structure Remembers (s : State) (h : ℕ) (t : ℤ) : Prop where
  load : ∀ i r, cell s.heap h i = some r → r.replicaId ∈ s.preceding →
    r.activeRequests = inFlight s r.replicaId
  health : ∀ i r, cell s.heap h i = some r →
    (∃ m, (r.replicaId, m) ∈ s.marks ∧ t-m ≤ seconds 15) → ¬ Eligible t r

/-- Every session about to pick compares the loads and the health known for
its replicas. -/
def NothingForgotten (s : State) : Prop :=
  ∀ h, .lookedUp h ∈ s.sessions → ∀ t, s.clock ≤ t → Remembers s h t

def Session.Uses (h i : ℕ) : Session → Prop
  | .lookedUp h' => h' = h
  | .holding h' i' => h' = h ∧ i' = i
  | .marked h' i' => h' = h ∧ i' = i
  | .done => False

def listed (entries : List (ℕ × DeploymentInfoMessage)) : List String :=
  entries.flatMap (fun e => e.2.replicas.map Protos.ReplicaInfo.replicaId)

/-- The update lists no replica twice, none that a session may still use,
and none reported in the last fifteen seconds. -/
structure Harmless (s : State) (entries : List (ℕ × DeploymentInfoMessage)) (t : ℤ) : Prop where
  distinct : (listed entries).Nodup
  unused : ∀ x ∈ s.sessions, ∀ h i id, x.Uses h i → idAt s.heap h i = some id →
    id ∉ listed entries
  recovered : ∀ id m, (id, m) ∈ s.marks → id ∈ listed entries → t-m > seconds 15

def UpdatesHarmless (s : State) : Act → Prop
  | .update entries t => Harmless s entries t
  | _ => True

def Uses (s : State) (h i : ℕ) : Prop :=
  (∃ target, s.routingTable.get target = some h) ∨ ∃ x ∈ s.sessions, x.Uses h i

def held (s : State) (h i : ℕ) : ℤ := s.sessions.countP (fun x => x.picked = some (h, i))

structure Inv (s : State) : Prop where
  nodup : ∀ d ∈ s.heap, d.ids.Nodup
  allocated : ∀ h i, Uses s h i → h < s.heap.length
  load : ∀ h i r, cell s.heap h i = some r → r.activeRequests = held s h i
  past : ∀ id m, (id, m) ∈ s.marks → m ≤ s.clock
  one_cell : ∀ h i h' i' id, Uses s h i → Uses s h' i' → idAt s.heap h i = some id →
    idAt s.heap h' i' = some id → h = h' ∧ i = i'
  health : ∀ h i r m, Uses s h i → cell s.heap h i = some r → (r.replicaId, m) ∈ s.marks →
    s.clock-m > seconds 15 ∨ (r.healthStatus = .unhealthy ∧ m ≤ r.lastFailureTime)

section
variable (h i : ℕ)

@[simp] theorem picked_lookedUp : (Session.lookedUp h).picked = none := rfl

@[simp] theorem picked_holding : (Session.holding h i).picked = some (h, i) := rfl

@[simp] theorem picked_marked : (Session.marked h i).picked = some (h, i) := rfl

@[simp] theorem picked_done : Session.done.picked = none := rfl

end

theorem idAt_eq_some {heap : Heap} {h i : ℕ} {id : String} :
    idAt heap h i = some id ↔ ∃ r, cell heap h i = some r ∧ r.replicaId = id :=
  Option.map_eq_some_iff

theorem cell_modify {heap : Heap} {h : ℕ} {d : DeploymentHandle} (hd : heap[h]? = some d)
    {f : DeploymentHandle → DeploymentHandle} {g : ℕ → ReplicaInfo → ReplicaInfo}
    (hg : ∀ i, (f d).replicas[i]? = d.replicas[i]?.map (g i)) (h' i : ℕ) :
    cell (heap.modify h f) h' i = (cell heap h' i).map (if h = h' then g i else id) := by
  unfold cell
  rw [List.getElem?_modify]
  by_cases hh : h = h'
  · subst hh
    simp [hd, hg]
  · simp [hh]

theorem nodup_modify {heap : Heap} {h : ℕ} {f : DeploymentHandle → DeploymentHandle}
    (hf : ∀ d, (f d).ids = d.ids) (hn : ∀ d ∈ heap, d.ids.Nodup) :
    ∀ d ∈ heap.modify h f, d.ids.Nodup := by
  intro d hd
  obtain ⟨j, hj⟩ := List.getElem?_of_mem hd
  rw [List.getElem?_modify] at hj
  obtain ⟨e, he, rfl⟩ := Option.map_eq_some_iff.mp hj
  have hne := hn e (List.mem_of_getElem? he)
  split
  · rwa [hf]
  · exact hne

theorem picked_uses {x : Session} {h i : ℕ} (hp : x.picked = some (h, i)) : x.Uses h i := by
  cases x with
  | holding h' i' =>
    obtain ⟨rfl, rfl⟩ := Prod.mk.inj (Option.some.inj hp)
    exact ⟨rfl, rfl⟩
  | marked h' i' =>
    obtain ⟨rfl, rfl⟩ := Prod.mk.inj (Option.some.inj hp)
    exact ⟨rfl, rfl⟩
  | lookedUp h' => cases hp
  | done => cases hp

theorem inFlight_pos {s : State} {x : Session} {h i : ℕ} {id : String} (hx : x ∈ s.sessions)
    (hp : x.picked = some (h, i)) (hid : idAt s.heap h i = some id) : 0 < inFlight s id :=
  Int.natCast_pos.mpr (List.countP_pos_iff.mpr ⟨x, hx, by simp [hp, hid]⟩)

/-- The requests in flight to the id of a replica in use are those that hold
this replica. -/
theorem Inv.inFlight_eq {s : State} (hi : Inv s) {h i : ℕ} {id : String} (hu : Uses s h i)
    (hid : idAt s.heap h i = some id) : inFlight s id = held s h i := by
  unfold inFlight held
  congr 1
  apply List.countP_congr
  intro x hx
  simp only [decide_eq_true_eq, Option.bind_eq_some_iff]
  constructor
  · rintro ⟨⟨h', i'⟩, hp, hid'⟩
    obtain ⟨rfl, rfl⟩ := hi.one_cell h i h' i' id hu (Or.inr ⟨x, hx, picked_uses hp⟩) hid hid'
    exact hp
  · intro hp
    exact ⟨(h, i), hp, hid⟩

theorem Inv.remembers {s : State} (hi : Inv s) : NothingForgotten s := by
  intro h hl t ht
  have hu : ∀ i, Uses s h i := fun i => Or.inr ⟨_, hl, rfl⟩
  constructor
  · intro i r hr _
    rw [hi.inFlight_eq (hu i) (idAt_eq_some.mpr ⟨r, hr, rfl⟩)]
    exact hi.load h i r hr
  · rintro i r hr ⟨m, hm, hrec⟩ he
    rw [eligible_iff] at he
    rcases hi.health h i r m (hu i) hr hm with hold | ⟨hun, hle⟩
    · omega
    · rcases he with he | he
      · rw [hun] at he
        cases he
      · omega

/-- A step of one session: the replicas change by `G` and the session uses
no replica that it did not use before. -/
theorem inv_of_effect {s s' : State} {k : ℕ} {x z : Session}
    {G : ℕ → ℕ → ReplicaInfo → ReplicaInfo} (hi : Inv s) (hx : s.sessions[k]? = some x)
    (hs' : s'.sessions = s.sessions.set k z) (ht : s'.routingTable = s.routingTable)
    (hlen : s'.heap.length = s.heap.length) (hnodup : ∀ d ∈ s'.heap, d.ids.Nodup)
    (hcell : ∀ h i, cell s'.heap h i = (cell s.heap h i).map (G h i))
    (hid : ∀ h i r, (G h i r).replicaId = r.replicaId)
    (hu : ∀ h i, z.Uses h i → x.Uses h i)
    (hload : ∀ h i r, (G h i r).activeRequests = r.activeRequests-
      (if x.picked = some (h, i) then 1 else 0)+(if z.picked = some (h, i) then 1 else 0))
    (hpast : ∀ id m, (id, m) ∈ s'.marks → m ≤ s'.clock)
    (hhealth : ∀ h i r m, Uses s h i → cell s.heap h i = some r → (r.replicaId, m) ∈ s'.marks →
      s'.clock-m > seconds 15 ∨
        ((G h i r).healthStatus = .unhealthy ∧ m ≤ (G h i r).lastFailureTime)) : Inv s' := by
  have huses : ∀ h i, Uses s' h i → Uses s h i := by
    rintro h i (⟨target, hg⟩ | ⟨y, hy, hyu⟩)
    · exact Or.inl ⟨target, ht ▸ hg⟩
    · rw [hs'] at hy
      rcases mem_set hy with rfl | hy
      · exact Or.inr ⟨x, List.mem_of_getElem? hx, hu h i hyu⟩
      · exact Or.inr ⟨y, hy, hyu⟩
  have hids : ∀ h i, idAt s'.heap h i = idAt s.heap h i := by
    intro h i
    simp only [idAt, hcell, Option.map_map, Function.comp_def, hid]
  refine ⟨hnodup, fun h i hu' => hlen ▸ hi.allocated h i (huses h i hu'), ?_, hpast, ?_, ?_⟩
  · intro h i r' hr'
    rw [hcell, Option.map_eq_some_iff] at hr'
    obtain ⟨r, hr, rfl⟩ := hr'
    rw [hload, hi.load h i r hr, held, held, hs', countP_set _ hx]
    simp only [decide_eq_true_eq]
  · intro h i h' i' id hu₁ hu₂ hid₁ hid₂
    exact hi.one_cell h i h' i' id (huses _ _ hu₁) (huses _ _ hu₂)
      (hids h i ▸ hid₁) (hids h' i' ▸ hid₂)
  · intro h i r' m hu' hr' hm
    rw [hcell, Option.map_eq_some_iff] at hr'
    obtain ⟨r, hr, rfl⟩ := hr'
    rw [hid] at hm
    exact hhealth h i r m (huses h i hu') hr hm

theorem initial_inv (t : ℤ) : Inv (initial t) := by
  constructor <;> simp [initial, Uses, cell]

theorem lookup_inv {s : State} {target : String} {h : ℕ} (hi : Inv s)
    (hg : s.routingTable.get target = some h) :
    Inv { s with sessions := s.sessions ++ [.lookedUp h] } := by
  have huses : ∀ h' i, Uses { s with sessions := s.sessions ++ [.lookedUp h] } h' i →
      Uses s h' i := by
    rintro h' i (hu | ⟨x, hx, hu⟩)
    · exact Or.inl hu
    · rcases List.mem_append.mp hx with hx | hx
      · exact Or.inr ⟨x, hx, hu⟩
      · obtain rfl := List.mem_singleton.mp hx
        obtain rfl : h = h' := hu
        exact Or.inl ⟨target, hg⟩
  refine ⟨hi.nodup, fun h' i hu => hi.allocated h' i (huses h' i hu), ?_, hi.past, ?_, ?_⟩
  · intro h' i r hr
    rw [hi.load h' i r hr]
    simp [held, List.countP_append]
  · intro h₁ i₁ h₂ i₂ id hu₁ hu₂
    exact hi.one_cell h₁ i₁ h₂ i₂ id (huses _ _ hu₁) (huses _ _ hu₂)
  · intro h' i r m hu
    exact hi.health h' i r m (huses h' i hu)

theorem release_inv {s : State} {k h i : ℕ} {x : Session} (hi : Inv s)
    (hx : s.sessions[k]? = some x) (hp : x.picked = some (h, i)) :
    Inv (onHandle s h (fun d => d.releaseReplica i) k .done) := by
  have hlt := hi.allocated h i (Or.inr ⟨x, List.mem_of_getElem? hx, picked_uses hp⟩)
  obtain ⟨d, hd⟩ : ∃ d, s.heap[h]? = some d := ⟨_, List.getElem?_eq_getElem hlt⟩
  refine inv_of_effect (z := .done)
    (G := fun h' j r => if h = h' ∧ i = j then release r else r) hi hx rfl rfl
    (by simp [onHandle]) (nodup_modify (fun d => release_ids d i) hi.nodup) ?_ ?_ ?_ ?_
    hi.past ?_
  · intro h' j
    refine (cell_modify hd (f := fun d => d.releaseReplica i)
      (fun j => release_getElem? d i j) h' j).trans ?_
    by_cases hh : h = h' <;> simp [hh, Function.id_def]
  · intro h' j r
    split <;> rfl
  · intro h' j hu
    exact hu.elim
  · intro h' j r
    by_cases hh : h = h' <;> by_cases hj : i = j <;> simp [hp, hh, hj, release]
  · intro h' j r m hu hr hm
    have hold := hi.health h' j r m hu hr hm
    split <;> exact hold

theorem recover_health {t m : ℤ} {r : ReplicaInfo} (hun : r.healthStatus = .unhealthy)
    (hle : m ≤ r.lastFailureTime) :
    t-m > seconds 15 ∨
      ((recover t r).healthStatus = .unhealthy ∧ m ≤ (recover t r).lastFailureTime) := by
  unfold recover
  split
  next hc =>
    left
    omega
  next => exact Or.inr ⟨hun, hle⟩

theorem pick_inv {s : State} {k h : ℕ} {t : ℤ} {s' : State} (hi : Inv s) (ht : s.clock ≤ t)
    (hx : s.sessions[k]? = some (.lookedUp h)) (hs : pickStep s k h t = some s') : Inv s' := by
  obtain ⟨d, hd, rfl⟩ := Option.map_eq_some_iff.mp hs
  refine inv_of_effect (G := fun h' j r => if h = h' then
      (if (d.pickNextReplica t).1.map ReplicaConnection.info = some j then acquire (recover t r)
        else recover t r) else r) hi hx rfl rfl (by simp [onHandle])
    (nodup_modify (fun d => pick_ids d t) hi.nodup) ?_ ?_ ?_ ?_ ?_ ?_
  · intro h' j
    refine (cell_modify hd (f := fun d => (d.pickNextReplica t).2)
      (fun j => pick_getElem? d t j) h' j).trans ?_
    by_cases hh : h = h' <;> simp [hh, Function.id_def]
  · intro h' j r
    by_cases hh : h = h'
    · simp only [if_pos hh]
      split <;> simp [acquire]
    · simp only [if_neg hh]
  · intro h' j hu
    cases hp : (d.pickNextReplica t).1 with
    | none =>
      rw [hp] at hu
      exact hu.elim
    | some c =>
      rw [hp] at hu
      exact hu.1
  · intro h' j r
    cases hp : (d.pickNextReplica t).1 with
    | none => by_cases hh : h = h' <;> simp [hh]
    | some c => by_cases hh : h = h' <;> by_cases hj : c.info = j <;> simp [hh, hj, acquire]
  · intro id m hm
    exact (hi.past id m hm).trans ht
  · intro h' j r m hu hr hm
    rcases hi.health h' j r m hu hr hm with hold | ⟨hun, hle⟩
    · left
      change t-m > seconds 15
      omega
    · by_cases hh : h = h'
      · simp only [if_pos hh]
        have hrec := recover_health (t := t) hun hle
        split <;> exact hrec
      · simp only [if_neg hh]
        exact Or.inr ⟨hun, hle⟩

theorem mark_inv {s : State} {k h i : ℕ} {t : ℤ} {s' : State} (hi : Inv s) (ht : s.clock ≤ t)
    (hx : s.sessions[k]? = some (.holding h i)) (hs : markStep s k h i t = some s') : Inv s' := by
  obtain ⟨id, hid, rfl⟩ := Option.map_eq_some_iff.mp hs
  have hu : Uses s h i := Or.inr ⟨_, List.mem_of_getElem? hx, rfl, rfl⟩
  obtain ⟨d, hd⟩ : ∃ d, s.heap[h]? = some d :=
    ⟨_, List.getElem?_eq_getElem (hi.allocated h i hu)⟩
  have hdn : d.ids.Nodup := hi.nodup d (List.mem_of_getElem? hd)
  refine inv_of_effect (G := fun h' _ r => if h = h' ∧ r.replicaId = id then fail t r else r)
    hi hx rfl rfl (by simp [onHandle]) (nodup_modify (fun d => mark_ids d id t) hi.nodup)
    ?_ ?_ ?_ ?_ ?_ ?_
  · intro h' j
    refine (cell_modify hd (f := fun d => d.markReplicaUnhealthy id t)
      (fun j => mark_getElem? d hdn id t j) h' j).trans ?_
    by_cases hh : h = h' <;> simp [hh, Function.id_def]
  · intro h' j r
    split <;> rfl
  · intro h' j hu
    exact hu
  · intro h' j r
    split <;> simp [fail]
  · intro id' m hm
    rcases List.mem_append.mp hm with hm | hm
    · exact (hi.past id' m hm).trans ht
    · obtain ⟨-, rfl⟩ := Prod.mk.inj (List.mem_singleton.mp hm)
      exact le_rfl
  · intro h' j r m hu' hr hm
    by_cases hc : h = h' ∧ r.replicaId = id
    · right
      simp only [if_pos hc, fail, true_and]
      rcases List.mem_append.mp hm with hm | hm
      · exact (hi.past _ m hm).trans ht
      · exact (Prod.mk.inj (List.mem_singleton.mp hm)).2.le
    · simp only [if_neg hc]
      rcases List.mem_append.mp hm with hm | hm
      · rcases hi.health h' j r m hu' hr hm with hold | hrec
        · left
          omega
        · exact Or.inr hrec
      · have hrid := (Prod.mk.inj (List.mem_singleton.mp hm)).1
        have hsame := hi.one_cell h i h' j id hu hu' hid (idAt_eq_some.mpr ⟨r, hr, hrid⟩)
        exact absurd ⟨hsame.1, hrid⟩ hc

theorem cell_new {heap : Heap} {entries : List (ℕ × DeploymentInfoMessage)} {j i : ℕ}
    {e : ℕ × DeploymentInfoMessage} (he : entries[j]? = some e) :
    cell (applyRoutingUpdate heap entries).1 (heap.length+j) i =
      e.2.replicas[i]?.map ReplicaInfo.ofProto := by
  simp [cell, applyRoutingUpdate_heap, List.getElem?_append_right, he]

theorem cell_old {heap : Heap} {entries : List (ℕ × DeploymentInfoMessage)} {h i : ℕ}
    (hh : h < heap.length) :
    cell (applyRoutingUpdate heap entries).1 h i = cell heap h i := by
  simp [cell, applyRoutingUpdate_heap, List.getElem?_append_left hh]

/-- An id listed once determines the entry and the position that list it. -/
theorem listed_position {entries : List (ℕ × DeploymentInfoMessage)}
    (hn : (listed entries).Nodup) {j j' i i' : ℕ} {e e' : ℕ × DeploymentInfoMessage}
    {p p' : Protos.ReplicaInfo} (he : entries[j]? = some e) (he' : entries[j']? = some e')
    (hp : e.2.replicas[i]? = some p) (hp' : e'.2.replicas[i']? = some p')
    (hid : p.replicaId = p'.replicaId) : j = j' ∧ i = i' := by
  rw [listed, List.nodup_flatMap] at hn
  obtain ⟨hin, hout⟩ := hn
  have hmem := List.mem_map_of_mem (f := Protos.ReplicaInfo.replicaId) (List.mem_of_getElem? hp)
  have hmem' := List.mem_map_of_mem (f := Protos.ReplicaInfo.replicaId) (List.mem_of_getElem? hp')
  obtain ⟨hj, rfl⟩ := List.getElem?_eq_some_iff.mp he
  obtain ⟨hj', rfl⟩ := List.getElem?_eq_some_iff.mp he'
  rw [List.pairwise_iff_getElem] at hout
  rcases lt_trichotomy j j' with h | rfl | h
  · exact absurd (hid ▸ hmem') (hout j j' hj hj' h hmem)
  · refine ⟨rfl, ?_⟩
    have hi : (entries[j].2.replicas.map Protos.ReplicaInfo.replicaId)[i]? =
        some p.replicaId := by simp [hp]
    have hi' : (entries[j].2.replicas.map Protos.ReplicaInfo.replicaId)[i']? =
        some p.replicaId := by simp [hp', hid]
    obtain ⟨hlt, -⟩ := List.getElem?_eq_some_iff.mp hi
    exact (List.getElem?_inj hlt (hin _ (List.getElem_mem hj))).mp (hi.trans hi'.symm)
  · exact absurd (hid ▸ hmem) (hout j' j hj' hj h hmem')

theorem uses_updated {s : State} {entries : List (ℕ × DeploymentInfoMessage)} {t : ℤ}
    (hi : Inv s) {h i : ℕ} (hu : Uses (updateStep s entries t) h i) :
    (∃ j e, entries[j]? = some e ∧ h = s.heap.length+j) ∨
      (h < s.heap.length ∧ ∃ x ∈ s.sessions, x.Uses h i) := by
  rcases hu with ⟨target, hg⟩ | ⟨x, hx, hu⟩
  · obtain ⟨j, info, ⟨⟨id, he⟩, -, -⟩, rfl⟩ :=
      (applyRoutingUpdate_get s.heap entries target h).mp hg
    exact Or.inl ⟨j, _, he, rfl⟩
  · exact Or.inr ⟨hi.allocated h i (Or.inr ⟨x, hx, hu⟩), x, hx, hu⟩

theorem idAt_old {heap : Heap} {entries : List (ℕ × DeploymentInfoMessage)} {h i : ℕ}
    (hh : h < heap.length) :
    idAt (applyRoutingUpdate heap entries).1 h i = idAt heap h i := by
  rw [idAt, idAt, cell_old hh]

theorem idAt_new {heap : Heap} {entries : List (ℕ × DeploymentInfoMessage)} {j i : ℕ}
    {e : ℕ × DeploymentInfoMessage} (he : entries[j]? = some e) {id : String}
    (hid : idAt (applyRoutingUpdate heap entries).1 (heap.length+j) i = some id) :
    ∃ p, e.2.replicas[i]? = some p ∧ p.replicaId = id ∧ id ∈ listed entries := by
  rw [idAt, cell_new he, Option.map_map, Option.map_eq_some_iff] at hid
  obtain ⟨p, hp, rfl⟩ := hid
  exact ⟨p, hp, rfl, List.mem_flatMap.mpr ⟨e, List.mem_of_getElem? he,
    List.mem_map_of_mem (List.mem_of_getElem? hp)⟩⟩

theorem cell_updated {heap : Heap} {entries : List (ℕ × DeploymentInfoMessage)} {h i : ℕ}
    {r : ReplicaInfo} (hr : cell (applyRoutingUpdate heap entries).1 h i = some r) :
    (h < heap.length ∧ cell heap h i = some r) ∨
      (heap.length ≤ h ∧ r.activeRequests = 0 ∧ r.replicaId ∈ listed entries) := by
  rcases lt_or_ge h heap.length with hh | hh
  · exact Or.inl ⟨hh, cell_old hh ▸ hr⟩
  · obtain ⟨j, rfl⟩ := Nat.exists_eq_add_of_le hh
    obtain ⟨e, he⟩ : ∃ e, entries[j]? = some e := by
      cases he : entries[j]? with
      | some e => exact ⟨e, rfl⟩
      | none => simp [cell, applyRoutingUpdate_heap, List.getElem?_append_right, he] at hr
    obtain ⟨p, -, -, hmem⟩ := idAt_new he (idAt_eq_some.mpr ⟨r, hr, rfl⟩)
    rw [cell_new he, Option.map_eq_some_iff] at hr
    obtain ⟨q, -, rfl⟩ := hr
    exact Or.inr ⟨hh, rfl, hmem⟩

theorem update_inv {s : State} {entries : List (ℕ × DeploymentInfoMessage)} {t : ℤ}
    (hi : Inv s) (ht : s.clock ≤ t) (hq : Harmless s entries t) :
    Inv (updateStep s entries t) := by
  have hlen : (updateStep s entries t).heap.length = s.heap.length+entries.length := by
    simp [updateStep, applyRoutingUpdate_heap]
  refine ⟨?_, ?_, ?_, ?_, ?_, ?_⟩
  · intro d hd
    rw [updateStep, applyRoutingUpdate_heap] at hd
    rcases List.mem_append.mp hd with hd | hd
    · exact hi.nodup d hd
    · obtain ⟨e, he, rfl⟩ := List.mem_map.mp hd
      rw [ofInfo_ids]
      exact (List.nodup_flatMap.mp hq.distinct).1 e he
  · intro h i hu
    rw [hlen]
    rcases uses_updated hi hu with ⟨j, e, he, rfl⟩ | ⟨hlt, -⟩
    · have hj := (List.getElem?_eq_some_iff.mp he).1
      omega
    · omega
  · intro h i r hr
    rcases cell_updated hr with ⟨-, hr⟩ | ⟨hh, h0, -⟩
    · exact hi.load h i r hr
    · rw [h0, eq_comm, held, Int.natCast_eq_zero, List.countP_eq_zero]
      intro x hx hp
      have hlt := hi.allocated h i (Or.inr ⟨x, hx, picked_uses (of_decide_eq_true hp)⟩)
      omega
  · intro id m hm
    exact (hi.past id m hm).trans ht
  · intro h i h' i' id hu hu' hid hid'
    rcases uses_updated hi hu with ⟨j, e, he, rfl⟩ | ⟨hlt, x, hx, hxu⟩ <;>
      rcases uses_updated hi hu' with ⟨j', e', he', rfl⟩ | ⟨hlt', x', hx', hxu'⟩
    · obtain ⟨p, hp, hpid, -⟩ := idAt_new he hid
      obtain ⟨p', hp', hpid', -⟩ := idAt_new he' hid'
      obtain ⟨rfl, rfl⟩ := listed_position hq.distinct he he' hp hp' (hpid.trans hpid'.symm)
      exact ⟨rfl, rfl⟩
    · obtain ⟨-, -, -, hmem⟩ := idAt_new he hid
      exact absurd hmem (hq.unused x' hx' h' i' id hxu' (idAt_old hlt' ▸ hid'))
    · obtain ⟨-, -, -, hmem⟩ := idAt_new he' hid'
      exact absurd hmem (hq.unused x hx h i id hxu (idAt_old hlt ▸ hid))
    · exact hi.one_cell h i h' i' id (Or.inr ⟨x, hx, hxu⟩) (Or.inr ⟨x', hx', hxu'⟩)
        (idAt_old hlt ▸ hid) (idAt_old hlt' ▸ hid')
  · intro h i r m hu hr hm
    rcases uses_updated hi hu with ⟨j, e, he, rfl⟩ | ⟨hlt, x, hx, hxu⟩
    · obtain ⟨-, -, -, hmem⟩ := idAt_new he (idAt_eq_some.mpr ⟨r, hr, rfl⟩)
      exact Or.inl (hq.recovered _ m hm hmem)
    · rcases hi.health h i r m (Or.inr ⟨x, hx, hxu⟩) (cell_old hlt ▸ hr) hm with hold | hrec
      · left
        change t-m > seconds 15
        omega
      · exact Or.inr hrec

theorem step_inv (s : State) (a : Act) (s' : State) (hi : Inv s) (hq : UpdatesHarmless s a)
    (hs : step s a = some s') : Inv s' := by
  cases a with
  | update entries t =>
    obtain ⟨ht, rfl⟩ := Option.ite_some_none_eq_some.mp hs
    exact update_inv hi ht hq
  | lookup target =>
    obtain ⟨h, hg, rfl⟩ := Option.map_eq_some_iff.mp hs
    exact lookup_inv hi hg
  | pick k t =>
    obtain ⟨ht, hs⟩ := Option.ite_none_right_eq_some.mp hs
    split at hs
    next h hx => exact pick_inv hi ht hx hs
    next => cases hs
  | mark k t =>
    obtain ⟨ht, hs⟩ := Option.ite_none_right_eq_some.mp hs
    split at hs
    next h i hx => exact mark_inv hi ht hx hs
    next => cases hs
  | release k =>
    simp only [step] at hs
    split at hs
    next h i hx =>
      obtain rfl := Option.some.inj hs
      exact release_inv hi hx rfl
    next h i hx =>
      obtain rfl := Option.some.inj hs
      exact release_inv hi hx rfl
    next => cases hs

/-- An update that lists a replica of the table with a request in flight
forgets that request: the next session to look its deployment up compares a
load of zero. -/
theorem update_forgets {s : State} (hi : Inv s) {x : Session} {h i : ℕ} {id : String}
    (hx : x ∈ s.sessions) (hp : x.picked = some (h, i)) (hid : idAt s.heap h i = some id)
    (hold : id ∈ tableIds s) {entries : List (ℕ × DeploymentInfoMessage)} {target : String}
    {j k : ℕ} {info : DeploymentInfoMessage} {p : Protos.ReplicaInfo}
    (hl : LastNamed entries target j info) (hk : info.replicas[k]? = some p)
    (hpid : p.replicaId = id) {t : ℤ} (ht : s.clock ≤ t) :
    ∃ s', Runs.exec step [.update entries t, .lookup target] s = some s' ∧
      ¬ NothingForgotten s' := by
  have hg := (applyRoutingUpdate_get s.heap entries target (s.heap.length+j)).mpr
    ⟨j, info, hl, rfl⟩
  obtain ⟨did, he⟩ := hl.1
  refine ⟨{ updateStep s entries t with
    sessions := s.sessions ++ [.lookedUp (s.heap.length+j)] }, ?_, fun hn => ?_⟩
  · simp [Runs.exec, step, ht, updateStep, hg]
  · subst hpid
    have hload := (hn _ (List.mem_append_right _ (List.mem_singleton.mpr rfl)) t le_rfl).load k
      (.ofProto p) (by simp [updateStep, cell_new he, hk]) hold
    have hlt := hi.allocated h i (Or.inr ⟨x, hx, picked_uses hp⟩)
    have hpos := inFlight_pos (s := { updateStep s entries t with
      sessions := s.sessions ++ [.lookedUp (s.heap.length+j)] }) (List.mem_append_left _ hx) hp
      ((idAt_old hlt).trans hid)
    exact hpos.ne hload

/-- In the runs whose updates list only replicas with nothing to remember,
no update makes the proxy forget a load or a failure. -/
theorem harmless_updates_remember (t : ℤ) (as : List Act) (s : State)
    (hr : Runs.exec step as (initial t) = some s)
    (hc : Runs.Along step UpdatesHarmless as (initial t)) : NothingForgotten s :=
  (Runs.exec_invariant_along step_inv (initial_inv t) hc hr).remembers

def sampleEntries (ids : List String) : List (ℕ × DeploymentInfoMessage) :=
  [(1, ⟨1, "/chat", "1.0", "ACTIVE", ids.map (fun id => ⟨id, "10.0.0.1:50051", "RUNNING"⟩)⟩)]

/-- The second update comes after a replica was picked, reported and
released. -/
def recoveredReplica : List Act :=
  [.update (sampleEntries ["1#1"]) 0, .lookup "/chat", .pick 0 1, .mark 0 2, .release 0,
    .update (sampleEntries ["1#1", "2#1"]) (seconds 20), .lookup "/chat"]

theorem harmless_updates_remember_sample : ∃ s,
    Runs.exec step recoveredReplica (initial 0) = some s ∧ NothingForgotten s := by
  refine ⟨_, rfl, harmless_updates_remember 0 recoveredReplica _ rfl ?_⟩
  refine (Runs.along_cons rfl).mpr ⟨⟨by decide, by simp [initial], by simp [initial]⟩, ?_⟩
  refine (Runs.along_cons rfl).mpr ⟨trivial, (Runs.along_cons rfl).mpr ⟨trivial,
    (Runs.along_cons rfl).mpr ⟨trivial, (Runs.along_cons rfl).mpr ⟨trivial,
      (Runs.along_cons rfl).mpr ⟨⟨by decide, fun x hx => ?_, fun id m hm _ => ?_⟩,
        (Runs.along_cons rfl).mpr ⟨trivial, trivial⟩⟩⟩⟩⟩⟩
  · obtain rfl := List.mem_singleton.mp hx
    exact fun _ _ _ h => h.elim
  · obtain ⟨-, rfl⟩ := Prod.mk.inj (List.mem_singleton.mp hm)
    decide

/-- A second replica is added while a request to the first is in flight: the
next session compares a load of zero for the first. -/
theorem added_replica_forgets_load : ∃ s,
    Runs.exec step [.update (sampleEntries ["1#1"]) 0, .lookup "/chat", .pick 0 1,
      .update (sampleEntries ["1#1", "2#1"]) 2, .lookup "/chat"] (initial 0) = some s ∧
    ¬ NothingForgotten s := by
  refine ⟨_, rfl, fun hn => ?_⟩
  have h := (hn 1 (by decide) 2 le_rfl).load 0 _ rfl (by decide)
  exact absurd h (by decide)

end ServingSystem.Proxy.ProxySessions
