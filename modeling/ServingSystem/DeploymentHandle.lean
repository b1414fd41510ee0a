import ServingSystem.LeastScan
import ServingSystem.Protos

/-!
# The proxy's deployment handle

`DeploymentHandle` of the C++ proxy: the replicas of one deployment with
their load and health, the selection of the next replica, the failure mark
and the release performed by `ReplicaReleaser`. A pointer to a replica is
its position in `replicas_`, which only grows while the handle is built.
Clock readings are nanoseconds of the steady clock.
-/

set_option autoImplicit false

namespace ServingSystem.Proxy

inductive Health where
  | healthy
  | unhealthy
  deriving DecidableEq, Repr

structure ReplicaInfo where
  replicaId : String
  address : String
  state : String
  activeRequests : ℤ
  healthStatus : Health := .healthy
  lastFailureTime : ℤ := 0
  deriving DecidableEq, Repr

structure Channel where
  target : String
  deriving DecidableEq, Repr

/-- `info` is the pointer; `replicaId` is the field read through it, which
no operation changes. -/
structure ReplicaConnection where
  info : ℕ
  replicaId : String
  channel : Option Channel
  deriving DecidableEq, Repr

structure DeploymentHandle where
  deploymentId : String
  deploymentName : String
  replicas : List ReplicaInfo
  channelCache : Dict String Channel

def seconds (n : ℤ) : ℤ := n * 1000000000

def ReplicaInfo.ofProto (replica : Protos.ReplicaInfo) : ReplicaInfo where
  replicaId := replica.replicaId
  address := replica.address
  state := replica.state
  activeRequests := 0

namespace DeploymentHandle

def addReplica (h : DeploymentHandle) (replica : Protos.ReplicaInfo) : DeploymentHandle :=
  { h with
    replicas := h.replicas ++ [.ofProto replica]
    channelCache := h.channelCache.set replica.replicaId ⟨replica.address⟩ }

def addReplicas (h : DeploymentHandle) (info : Protos.DeploymentInfoMessage) : DeploymentHandle :=
  info.replicas.foldl addReplica h

def ofInfo (info : Protos.DeploymentInfoMessage) : DeploymentHandle :=
  addReplicas
    { deploymentId := toString info.deploymentId
      deploymentName := info.deploymentName
      replicas := []
      channelCache := Dict.empty } info

def recover (now : ℤ) (replica : ReplicaInfo) : ReplicaInfo :=
  if replica.healthStatus = .unhealthy ∧ now - replica.lastFailureTime > seconds 15 then
    { replica with healthStatus := .healthy }
  else replica

def pickLoop (now : ℤ) : List ReplicaInfo → ℕ → Option (ℕ × ReplicaInfo) →
    List ReplicaInfo × Option (ℕ × ReplicaInfo)
  | [], _, leastLoaded => ([], leastLoaded)
  | replica::rest, i, leastLoaded =>
    let replica := recover now replica
    let leastLoaded :=
      if replica.healthStatus = .healthy then
        match leastLoaded with
        | none => some (i, replica)
        | some least =>
          if replica.activeRequests < least.2.activeRequests then some (i, replica)
          else some least
      else leastLoaded
    let out := pickLoop now rest (i+1) leastLoaded
    (replica::out.1, out.2)

def acquire (replica : ReplicaInfo) : ReplicaInfo :=
  { replica with activeRequests := replica.activeRequests+1 }

def pickNextReplica (h : DeploymentHandle) (now : ℤ) :
    Option ReplicaConnection × DeploymentHandle :=
  let out := pickLoop now h.replicas 0 none
  match out.2 with
  | none => (none, { h with replicas := out.1 })
  | some (i, replica) =>
    (some ⟨i, replica.replicaId, h.channelCache.get replica.replicaId⟩,
      { h with replicas := out.1.modify i acquire })

def fail (now : ℤ) (replica : ReplicaInfo) : ReplicaInfo :=
  { replica with healthStatus := .unhealthy, lastFailureTime := now }

def markLoop (replicaId : String) (now : ℤ) : List ReplicaInfo → List ReplicaInfo
  | [] => []
  | replica::rest =>
    if replica.replicaId = replicaId then fail now replica::rest
    else replica::markLoop replicaId now rest

def markReplicaUnhealthy (h : DeploymentHandle) (replicaId : String) (now : ℤ) :
    DeploymentHandle :=
  { h with replicas := markLoop replicaId now h.replicas }

def release (replica : ReplicaInfo) : ReplicaInfo :=
  { replica with activeRequests := replica.activeRequests-1 }

def releaseReplica (h : DeploymentHandle) (i : ℕ) : DeploymentHandle :=
  { h with replicas := h.replicas.modify i release }

def ids (h : DeploymentHandle) : List String := h.replicas.map ReplicaInfo.replicaId

def Eligible (now : ℤ) (replica : ReplicaInfo) : Prop :=
  (recover now replica).healthStatus = .healthy

instance (now : ℤ) : DecidablePred (Eligible now) := fun replica =>
  inferInstanceAs (Decidable ((recover now replica).healthStatus = .healthy))

theorem addReplicas_replicas (l : List Protos.ReplicaInfo) (h : DeploymentHandle) :
    (l.foldl addReplica h).replicas = h.replicas ++ l.map ReplicaInfo.ofProto := by
  induction l generalizing h with
  | nil => simp
  | cons r l ih => simp [ih, addReplica]

@[simp] theorem ofInfo_replicas (info : Protos.DeploymentInfoMessage) :
    (ofInfo info).replicas = info.replicas.map ReplicaInfo.ofProto := by
  simp [ofInfo, addReplicas, addReplicas_replicas]

theorem ofInfo_ids (info : Protos.DeploymentInfoMessage) :
    (ofInfo info).ids = info.replicas.map Protos.ReplicaInfo.replicaId := by
  simp [ids, ReplicaInfo.ofProto]

theorem addReplicas_name (l : List Protos.ReplicaInfo) (h : DeploymentHandle) :
    (l.foldl addReplica h).deploymentName = h.deploymentName := by
  induction l generalizing h with
  | nil => rfl
  | cons r l ih => exact ih (addReplica h r)

theorem ofInfo_name (info : Protos.DeploymentInfoMessage) :
    (ofInfo info).deploymentName = info.deploymentName :=
  addReplicas_name info.replicas _

theorem addReplicas_channel_absent {l : List Protos.ReplicaInfo} {h : DeploymentHandle}
    {id : String} (hid : id ∉ l.map Protos.ReplicaInfo.replicaId) :
    (l.foldl addReplica h).channelCache.get id = h.channelCache.get id := by
  induction l generalizing h with
  | nil => rfl
  | cons r l ih =>
    rw [List.map_cons, List.mem_cons, not_or] at hid
    rw [List.foldl_cons, ih hid.2]
    exact Dict.get_set_ne _ _ hid.1

theorem addReplicas_channel {l : List Protos.ReplicaInfo} {h : DeploymentHandle}
    (hn : (l.map Protos.ReplicaInfo.replicaId).Nodup) {m : Protos.ReplicaInfo} (hm : m ∈ l) :
    (l.foldl addReplica h).channelCache.get m.replicaId = some ⟨m.address⟩ := by
  induction l generalizing h with
  | nil => simp at hm
  | cons r l ih =>
    obtain ⟨hr, hl⟩ := List.nodup_cons.mp hn
    rcases List.mem_cons.mp hm with rfl | hm
    · rw [List.foldl_cons, addReplicas_channel_absent hr]
      exact Dict.get_set_self _ _ _
    · exact ih hl hm

theorem ofInfo_channel {info : Protos.DeploymentInfoMessage}
    (hn : (info.replicas.map Protos.ReplicaInfo.replicaId).Nodup) {m : Protos.ReplicaInfo}
    (hm : m ∈ info.replicas) : (ofInfo info).channelCache.get m.replicaId = some ⟨m.address⟩ :=
  addReplicas_channel hn hm

theorem recover_healthy {r : ReplicaInfo} (h : r.healthStatus = .healthy) (now : ℤ) :
    recover now r = r := by
  unfold recover
  rw [if_neg (by simp [h])]

@[simp] theorem recover_replicaId (now : ℤ) (r : ReplicaInfo) :
    (recover now r).replicaId = r.replicaId := by unfold recover; split <;> rfl

@[simp] theorem recover_address (now : ℤ) (r : ReplicaInfo) :
    (recover now r).address = r.address := by unfold recover; split <;> rfl

@[simp] theorem recover_state (now : ℤ) (r : ReplicaInfo) :
    (recover now r).state = r.state := by unfold recover; split <;> rfl

@[simp] theorem recover_activeRequests (now : ℤ) (r : ReplicaInfo) :
    (recover now r).activeRequests = r.activeRequests := by unfold recover; split <;> rfl

@[simp] theorem recover_lastFailureTime (now : ℤ) (r : ReplicaInfo) :
    (recover now r).lastFailureTime = r.lastFailureTime := by unfold recover; split <;> rfl

theorem eligible_iff (now : ℤ) (r : ReplicaInfo) :
    Eligible now r ↔ r.healthStatus = .healthy ∨ now - r.lastFailureTime > seconds 15 := by
  unfold Eligible recover
  cases h : r.healthStatus with
  | healthy => simp [h]
  | unhealthy => by_cases ht : now - r.lastFailureTime > seconds 15 <;> simp [h, ht]

theorem pickLoop_eq (now : ℤ) (l : List ReplicaInfo) (i : ℕ) (best : Option (ℕ × ReplicaInfo)) :
    pickLoop now l i best =
      (l.map (recover now), LeastScan.scan (fun r => r.healthStatus = .healthy)
        ReplicaInfo.activeRequests (l.map (recover now)) i best) := by
  induction l generalizing i best with
  | nil => rfl
  | cons r l ih =>
    simp only [pickLoop, ih, List.map_cons, LeastScan.scan, LeastScan.challenge]
    cases best <;> rfl

/-- The replica a pick at `now` has to return: the first of least load among
the eligible ones. -/
def Chosen (h : DeploymentHandle) (now : ℤ) (i : ℕ) (r : ReplicaInfo) : Prop :=
  LeastScan.FirstLeast (Eligible now) ReplicaInfo.activeRequests h.replicas i r

theorem firstLeast_recover (h : DeploymentHandle) (now : ℤ) (i : ℕ) (r : ReplicaInfo) :
    LeastScan.FirstLeast (fun r => r.healthStatus = .healthy) ReplicaInfo.activeRequests
      (h.replicas.map (recover now)) i r ↔
    ∃ r', r = recover now r' ∧ h.Chosen now i r' := by
  constructor
  · rintro ⟨hi, hp, hl, hf⟩
    rw [List.getElem?_map, Option.map_eq_some_iff] at hi
    obtain ⟨r', hr', rfl⟩ := hi
    refine ⟨r', rfl, hr', hp, fun j b hj hb => ?_, fun j b hj hb hlt => ?_⟩
    · simpa using hl j (recover now b) (by simp [hj]) hb
    · simpa using hf j (recover now b) (by simp [hj]) hb hlt
  · rintro ⟨r', rfl, hi, hp, hl, hf⟩
    refine ⟨by simp [hi], hp, fun j b hj hb => ?_, fun j b hj hb hlt => ?_⟩
    · rw [List.getElem?_map, Option.map_eq_some_iff] at hj
      obtain ⟨b', hb', rfl⟩ := hj
      simpa using hl j b' hb' hb
    · rw [List.getElem?_map, Option.map_eq_some_iff] at hj
      obtain ⟨b', hb', rfl⟩ := hj
      simpa using hf j b' hb' hb hlt

/-- Everything a pick can do: refuse when no replica is eligible, or take
the first least loaded eligible one and raise its count. -/
theorem pick_cases (h : DeploymentHandle) (now : ℤ) :
    ((∀ r ∈ h.replicas, ¬ Eligible now r) ∧ h.pickNextReplica now =
      (none, { h with replicas := h.replicas.map (recover now) })) ∨
    ∃ i r, h.Chosen now i r ∧ h.pickNextReplica now =
      (some ⟨i, r.replicaId, h.channelCache.get r.replicaId⟩,
        { h with replicas := (h.replicas.map (recover now)).modify i acquire }) := by
  unfold pickNextReplica
  rw [pickLoop_eq]
  cases hs : LeastScan.scan (fun r : ReplicaInfo => r.healthStatus = .healthy)
      ReplicaInfo.activeRequests (h.replicas.map (recover now)) 0 none with
  | none =>
    left
    refine ⟨fun r hr => ?_, rfl⟩
    exact LeastScan.scan_eq_none.mp hs (recover now r) (List.mem_map_of_mem hr)
  | some c =>
    obtain ⟨i, r⟩ := c
    obtain ⟨r', rfl, hc⟩ := (firstLeast_recover h now i r).mp (LeastScan.scan_eq_some.mp hs)
    right
    exact ⟨i, r', hc, by simp⟩

theorem eligible_of_healthy {r : ReplicaInfo} (h : r.healthStatus = .healthy) (now : ℤ) :
    Eligible now r := by
  rw [Eligible, recover_healthy h]
  exact h

/-- A handle whose replicas are all healthy refuses a pick only when it has
none, and a pick changes nothing but the count. -/
theorem pick_healthy {h : DeploymentHandle} (hh : ∀ r ∈ h.replicas, r.healthStatus = .healthy)
    (now : ℤ) : (h.replicas = [] ∧ h.pickNextReplica now = (none, h)) ∨
      ∃ i r, h.Chosen now i r ∧ h.pickNextReplica now =
        (some ⟨i, r.replicaId, h.channelCache.get r.replicaId⟩,
          { h with replicas := h.replicas.modify i acquire }) := by
  have hrec : h.replicas.map (recover now) = h.replicas :=
    (List.map_congr_left (fun r hr => recover_healthy (hh r hr) now)).trans (List.map_id _)
  rcases pick_cases h now with ⟨hn, he⟩ | ⟨i, r, hc, he⟩
  · left
    refine ⟨List.eq_nil_iff_forall_not_mem.mpr (fun r hr => ?_), by rw [he, hrec]⟩
    exact hn r hr (eligible_of_healthy (hh r hr) now)
  · right
    exact ⟨i, r, hc, by rw [he, hrec]⟩

theorem pick_eq_none {h : DeploymentHandle} {now : ℤ} :
    (h.pickNextReplica now).1 = none ↔ ∀ r ∈ h.replicas, ¬ Eligible now r := by
  rcases pick_cases h now with ⟨hn, he⟩ | ⟨i, r, hc, he⟩
  · simpa [he] using hn
  · rw [he]
    simp only [reduceCtorEq, false_iff, not_forall]
    exact ⟨r, List.mem_of_getElem? hc.at_index, not_not_intro hc.passes⟩

theorem pick_eq_some {h : DeploymentHandle} {now : ℤ} {c : ReplicaConnection}
    (hp : (h.pickNextReplica now).1 = some c) :
    ∃ r, h.Chosen now c.info r ∧ c.replicaId = r.replicaId ∧
      (h.pickNextReplica now).2 =
        { h with replicas := (h.replicas.map (recover now)).modify c.info acquire } := by
  rcases pick_cases h now with ⟨-, he⟩ | ⟨i, r, hc, he⟩
  · simp [he] at hp
  · rw [he] at hp ⊢
    obtain rfl := Option.some.inj hp
    exact ⟨r, hc, rfl, rfl⟩

theorem pick_of_chosen {h : DeploymentHandle} {now : ℤ} {i : ℕ} {r : ReplicaInfo}
    (hc : h.Chosen now i r) :
    (h.pickNextReplica now).1.map ReplicaConnection.info = some i := by
  rcases pick_cases h now with ⟨hn, -⟩ | ⟨j, r', hc', he⟩
  · exact absurd hc.passes (hn r (List.mem_of_getElem? hc.at_index))
  · rw [he, Option.map_some, (LeastScan.FirstLeast.unique hc' hc).1]

theorem pick_getElem? (h : DeploymentHandle) (now : ℤ) (j : ℕ) :
    (h.pickNextReplica now).2.replicas[j]? = h.replicas[j]?.map (fun r =>
      if (h.pickNextReplica now).1.map ReplicaConnection.info = some j
      then acquire (recover now r) else recover now r) := by
  rcases pick_cases h now with ⟨-, he⟩ | ⟨i, r, -, he⟩
  · simp [he]
  · simp [he, List.getElem?_modify]
    rfl

@[simp] theorem pick_ids (h : DeploymentHandle) (now : ℤ) :
    (h.pickNextReplica now).2.ids = h.ids := by
  apply List.ext_getElem?
  intro j
  simp only [ids, List.getElem?_map, pick_getElem?, Option.map_map, Function.comp_def]
  congr 1
  funext r
  split <;> simp [acquire]

theorem markLoop_map {β : Type} {f : ReplicaInfo → β} {now : ℤ} (hf : ∀ r, f (fail now r) = f r)
    (id : String) (l : List ReplicaInfo) : (markLoop id now l).map f = l.map f := by
  induction l with
  | nil => rfl
  | cons r l ih =>
    rw [markLoop]
    split
    · rw [List.map_cons, hf, List.map_cons]
    · rw [List.map_cons, ih, List.map_cons]

@[simp] theorem mark_ids (h : DeploymentHandle) (id : String) (now : ℤ) :
    (h.markReplicaUnhealthy id now).ids = h.ids :=
  markLoop_map (fun _ => rfl) id h.replicas

theorem markLoop_getElem? (id : String) (now : ℤ) (l : List ReplicaInfo)
    (hn : (l.map ReplicaInfo.replicaId).Nodup) (j : ℕ) :
    (markLoop id now l)[j]? = l[j]?.map (fun r =>
      if r.replicaId = id then fail now r else r) := by
  induction l generalizing j with
  | nil => simp [markLoop]
  | cons r l ih =>
    obtain ⟨hr, hl⟩ := List.nodup_cons.mp hn
    rw [markLoop]
    by_cases h : r.replicaId = id
    · rw [if_pos h]
      cases j with
      | zero => simp [h]
      | succ j =>
        simp only [List.getElem?_cons_succ]
        cases hj : l[j]? with
        | none => rfl
        | some b =>
          have hb : b.replicaId ≠ id := fun hc =>
            hr (List.mem_map.mpr ⟨b, List.mem_of_getElem? hj, hc.trans h.symm⟩)
          simp [hb]
    · rw [if_neg h]
      cases j with
      | zero => simp [h]
      | succ j => simpa using ih hl j

theorem mark_getElem? (h : DeploymentHandle) (hn : h.ids.Nodup) (id : String) (now : ℤ) (j : ℕ) :
    (h.markReplicaUnhealthy id now).replicas[j]? = h.replicas[j]?.map (fun r =>
      if r.replicaId = id then fail now r else r) :=
  markLoop_getElem? id now h.replicas hn j

theorem release_getElem? (h : DeploymentHandle) (i j : ℕ) :
    (h.releaseReplica i).replicas[j]? = h.replicas[j]?.map (fun r =>
      if i = j then release r else r) := by
  simp only [releaseReplica, List.getElem?_modify]
  rfl

@[simp] theorem release_ids (h : DeploymentHandle) (i : ℕ) :
    (h.releaseReplica i).ids = h.ids := by
  have hid : ∀ r, (release r).replicaId = r.replicaId := fun _ => rfl
  exact Positions.map_modify_eq hid h.replicas i

end DeploymentHandle
def sampleInfo : Protos.DeploymentInfoMessage :=
  ⟨2, "/v1/chat/tinyllama", "1.0", "ACTIVE",
    [⟨"1#1", "10.0.0.1:50101", "RUNNING"⟩, ⟨"2#1", "10.0.0.2:50101", "RUNNING"⟩]⟩

end ServingSystem.Proxy
