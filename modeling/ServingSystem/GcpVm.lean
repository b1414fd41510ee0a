import ServingSystem.Dict
import ServingSystem.StateExcept

/-!
# Compute Engine machines

`VMManager.create_vm` over its zones, with the polling, the fetch and
`delete_vm`. The outcome of each Compute API call is given, and the polls end
when the time is up. What is only logged, the script the machine runs and the
settings that are the same for every machine are left out.
-/

set_option autoImplicit false

namespace ServingSystem.GcpVm
open StateExcept

/-- What is raised: `NotFound`, another `GoogleAPICallError`, another error
of a call, or an error of the code's own. -/
inductive Exn where
  | notFound
  | apiCallError
  | transport
  | attributeError (name : String)
  | indexError
  | keyError
  deriving DecidableEq, Repr

def Exn.isApiCallError : Exn → Bool
  | .notFound => true
  | .apiCallError => true
  | _ => false

structure VMProfile where
  machineType : String
  gpuType : Option String
  gpuCount : ℕ
  imageFamily : String
  imageProject : String
  tags : List String
  deriving DecidableEq, Repr

def serverTags : List String := ["scheduler", "http-server", "https-server"]

def vmProfiles : List (String × VMProfile) :=
  [("small", ⟨"n1-standard-4", some "nvidia-tesla-t4", 1,
      "pytorch-latest-gpu-debian-11", "deeplearning-platform-release", serverTags⟩),
    ("large", ⟨"a2-highgpu-1g", some "nvidia-tesla-a100-40gb", 1,
      "pytorch-latest-gpu-debian-11", "deeplearning-platform-release", serverTags⟩),
    ("a100", ⟨"a2-highgpu-1g", some "nvidia-tesla-a100-80gb", 1,
      "pytorch-latest-gpu-debian-11", "deeplearning-platform-release", serverTags⟩),
    ("cpu-only", ⟨"n1-standard-4", none, 0,
      "pytorch-latest-cpu-debian-11", "deeplearning-platform-release", serverTags⟩)]

def modelProfiles : List (String × String) :=
  [("TinyLlama/TinyLlama-1.1B-Chat-v1.0", "small"), ("gpt2", "small"),
    ("facebook/opt-1.3b", "small"), ("meta-llama/Llama-2-7b-chat-hf", "medium"),
    ("tiiuae/falcon-7b-instruct", "medium"), ("mosaicml/mpt-7b-instruct", "medium"),
    ("meta-llama/Llama-2-13b-chat-hf", "a100"), ("tiiuae/falcon-40b-instruct", "a100"),
    ("mosaicml/mpt-30b-instruct", "a100")]

def getVmProfileForModel (modelId : String) : Except Exn VMProfile :=
  match vmProfiles.lookup ((modelProfiles.lookup modelId).getD "small") with
  | none => .error .keyError
  | some profile => .ok profile

/-- `profile.boot_disk_size_gb`: the dataclass has no attribute of that
name, its size is `volume_size_gb`. -/
def VMProfile.bootDiskSizeGb (_ : VMProfile) : Except Exn ℕ :=
  .error (.attributeError "boot_disk_size_gb")

structure Resource where
  name : String
  machineType : String
  sourceImage : String
  diskSizeGb : ℕ
  guestAccelerator : Option (String × ℕ)
  tags : List String
  deriving DecidableEq, Repr

def buildInstance (projectId name modelId zone : String) : Except Exn Resource :=
  match getVmProfileForModel modelId with
  | .error e => .error e
  | .ok profile =>
    match profile.bootDiskSizeGb with
    | .error e => .error e
    | .ok diskSizeGb => .ok {
        name := name
        machineType := "zones/" ++ zone ++ "/machineTypes/" ++ profile.machineType
        sourceImage :=
          "projects/" ++ profile.imageProject ++ "/global/images/family/" ++ profile.imageFamily
        diskSizeGb := diskSizeGb
        guestAccelerator := profile.gpuType.map (fun gpuType =>
          ("projects/" ++ projectId ++ "/zones/" ++ zone ++ "/acceleratorTypes/" ++ gpuType,
            profile.gpuCount))
        tags := profile.tags }

structure Instance where
  status : String
  natIps : List (List String)
  deriving DecidableEq, Repr

/-- How the calls in one zone go; after the last poll the time is up. -/
structure Outcomes where
  insert : Except Exn Unit
  insertResult : Except Exn Unit
  polls : List (Except Exn Instance)
  lastPoll : Except Exn Instance
  fetch : Except Exn Instance
  delete : Except Exn Unit
  deleteResult : Except Exn Unit

structure State where
  vmCache : Dict String Instance
  inserted : List String
  deleted : List String

abbrev Gcp := EStateM Exn State

def lift {α : Type} : Except Exn α → Gcp α
  | .ok a => pure a
  | .error e => throw e

def getInstance : Except Exn Instance → Except Exn (Option Instance)
  | .ok vm => .ok (some vm)
  | .error e => if e.isApiCallError then .ok none else .error e

def uncache (name : String) (s : State) : State := { s with vmCache := s.vmCache.erase name }

def getVmStatus (name : String) (outcome : Except Exn Instance) : Gcp (Option String) :=
  match getInstance outcome with
  | .ok (some vm) => do
    modify (fun s => { s with vmCache := s.vmCache.set name vm })
    return some vm.status
  | .ok none => do
    modify (uncache name)
    return none
  | .error _ => pure none

def waitForVmReady (name : String) (lastPoll : Except Exn Instance) :
    List (Except Exn Instance) → Gcp Bool
  | [] => do
    let status ← getVmStatus name lastPoll
    return status = some "RUNNING"
  | poll::polls => do
    let status ← getVmStatus name poll
    if status = some "RUNNING" then
      return true
    else if status = some "TERMINATED" ∨ status = some "STOPPED" then
      return false
    else
      waitForVmReady name lastPoll polls

def Outcomes.deletion (o : Outcomes) : Except Exn Unit :=
  match o.delete with
  | .error e => .error e
  | .ok _ => o.deleteResult

def deleteVm (o : Outcomes) (name zone : String) : Gcp Bool := do
  modify (fun s => { s with deleted := s.deleted ++ [zone] })
  match o.deletion with
  | .ok _ =>
    modify (uncache name)
    return true
  | .error e =>
    if e = .notFound then
      modify (uncache name)
      return true
    else
      return false

def firstAddress (vm : Instance) : Option String := vm.natIps.head?.bind List.head?

def fetchCreated (o : Outcomes) (name : String) : Gcp (Option String) := do
  match ← lift (getInstance o.fetch) with
  | none => return none
  | some vm =>
    modify (fun s => { s with vmCache := s.vmCache.set name vm })
    match firstAddress vm with
    | none => throw .indexError
    | some address => return some address

def bringUp (o : Outcomes) (name zone : String) : Gcp (Option String) := do
  lift o.insertResult
  if ← waitForVmReady name o.lastPoll o.polls then
    fetchCreated o name
  else
    let _ ← deleteVm o name zone
    return none

def createIn (build : String → Except Exn Resource) (o : Outcomes) (name zone : String) :
    Gcp (Option String) := do
  let _ ← lift (build zone)
  lift o.insert
  modify (fun s => { s with inserted := s.inserted ++ [zone] })
  bringUp o name zone

def attemptZone (build : String → Except Exn Resource) (o : Outcomes) (name zone : String) :
    Gcp (Option String) :=
  tryCatch (createIn build o name zone) (fun _ => pure none)

def tryZones (build : String → Except Exn Resource) (outcomes : String → Outcomes)
    (name : String) : List String → Gcp (Option String)
  | [] => pure none
  | zone::zones => do
    match ← attemptZone build (outcomes zone) name zone with
    | some address => return some address
    | none => tryZones build outcomes name zones

def zonesToTry : List String := ["us-east1-d", "us-east1-c", "us-east1-b"]

def createVm (projectId : String) (outcomes : String → Outcomes) (name modelId : String) :
    Gcp (Option String) :=
  tryZones (buildInstance projectId name modelId) outcomes name zonesToTry

def start (vmCache : Dict String Instance) : State := ⟨vmCache, [], []⟩

def Outcomes.address (o : Outcomes) : Option String :=
  match o.fetch with
  | .ok vm => firstAddress vm
  | .error _ => none

/-- The call returns; `delete_vm` has been called in each zone in which the
machine was inserted, but for the last where its address is returned. -/
def LeavesOne (outcomes : String → Outcomes) (r : EStateM.Result Exn State (Option String)) :
    Prop :=
  match r with
  | .ok (some address) s => ∃ zone, s.inserted.getLast? = some zone ∧
      (outcomes zone).address = some address ∧ ∀ z ∈ s.inserted, z ≠ zone → z ∈ s.deleted
  | .ok none s => ∀ z ∈ s.inserted, z ∈ s.deleted
  | .error _ _ => False

/-- A zone without a machine, one whose machine is deleted, one whose machine
is left behind, and the one whose machine is returned. -/
inductive Fate where
  | skipped
  | deleted
  | abandoned
  | returned (address : String)
  deriving DecidableEq, Repr

def Fate.address : Fate → Option String
  | .returned address => some address
  | _ => none

def polled : Except Exn Instance → Option String
  | .ok vm => some vm.status
  | .error _ => none

def ready (lastPoll : Except Exn Instance) : List (Except Exn Instance) → Bool
  | [] => polled lastPoll = some "RUNNING"
  | poll::polls =>
    if polled poll = some "RUNNING" then true
    else if polled poll = some "TERMINATED" ∨ polled poll = some "STOPPED" then false
    else ready lastPoll polls

def settled (o : Outcomes) : Fate :=
  match o.insertResult with
  | .error _ => .abandoned
  | .ok _ =>
    if ready o.lastPoll o.polls then
      match o.address with
      | none => .abandoned
      | some address => .returned address
    else .deleted

def fate (build : String → Except Exn Resource) (o : Outcomes) (zone : String) : Fate :=
  match build zone with
  | .error _ => .skipped
  | .ok _ =>
    match o.insert with
    | .error _ => .skipped
    | .ok _ => settled o

def tried (fates : String → Fate) : List String → List String
  | [] => []
  | zone::zones => if (fates zone).address = none then zone::tried fates zones else [zone]

theorem getVmStatus_run (name : String) (outcome : Except Exn Instance) (s : State) :
    ∃ cache, getVmStatus name outcome s = .ok (polled outcome) { s with vmCache := cache } := by
  cases outcome with
  | ok vm => exact ⟨s.vmCache.set name vm, rfl⟩
  | error e =>
    cases he : e.isApiCallError with
    | true =>
      have hnone : getInstance (.error e) = .ok none := by rw [getInstance, he]; rfl
      refine ⟨s.vmCache.erase name, ?_⟩
      simp only [getVmStatus, hnone]
      rfl
    | false =>
      have herror : getInstance (.error e) = .error e := by rw [getInstance, he]; rfl
      refine ⟨s.vmCache, ?_⟩
      simp only [getVmStatus, herror]
      rfl

/-- The wait ends with the readiness of the machine and changes the cache
alone. -/
theorem waitForVmReady_run (name : String) (lastPoll : Except Exn Instance)
    (polls : List (Except Exn Instance)) (s : State) :
    ∃ cache, waitForVmReady name lastPoll polls s =
      .ok (ready lastPoll polls) { s with vmCache := cache } := by
  induction polls generalizing s with
  | nil =>
    obtain ⟨cache, hstatus⟩ := getVmStatus_run name lastPoll s
    exact ⟨cache, bind_ok hstatus⟩
  | cons poll polls ih =>
    obtain ⟨cache, hstatus⟩ := getVmStatus_run name poll s
    have hwait := bind_ok (f := fun status =>
      if status = some "RUNNING" then pure true
      else if status = some "TERMINATED" ∨ status = some "STOPPED" then pure false
      else waitForVmReady name lastPoll polls) hstatus
    by_cases hrunning : polled poll = some "RUNNING"
    · have hready : ready lastPoll (poll::polls) = true := by rw [ready, if_pos hrunning]
      rw [hready]
      exact ⟨cache, hwait.trans (congrFun (if_pos hrunning) _)⟩
    · by_cases hstopped : polled poll = some "TERMINATED" ∨ polled poll = some "STOPPED"
      · have hready : ready lastPoll (poll::polls) = false := by
          rw [ready, if_neg hrunning, if_pos hstopped]
        rw [hready]
        exact ⟨cache, hwait.trans (congrFun ((if_neg hrunning).trans (if_pos hstopped)) _)⟩
      · obtain ⟨cache', hrest⟩ := ih { s with vmCache := cache }
        have hready : ready lastPoll (poll::polls) = ready lastPoll polls := by
          rw [ready, if_neg hrunning, if_neg hstopped]
        rw [hready]
        exact ⟨cache', hwait.trans
          ((congrFun ((if_neg hrunning).trans (if_neg hstopped)) _).trans hrest)⟩

theorem deleteVm_run (o : Outcomes) (name zone : String) (s : State) :
    ∃ deleted cache, deleteVm o name zone s =
      .ok deleted { s with vmCache := cache, deleted := s.deleted ++ [zone] } := by
  rw [deleteVm, modify_bind]
  cases o.deletion with
  | ok u => exact ⟨true, s.vmCache.erase name, rfl⟩
  | error e =>
    by_cases he : e = .notFound
    · exact ⟨true, s.vmCache.erase name, congrFun (if_pos he) _⟩
    · exact ⟨false, s.vmCache, congrFun (if_neg he) _⟩

def Fate.inserted (zone : String) : Fate → List String
  | .skipped => []
  | _ => [zone]

def Fate.deletedIn (zone : String) : Fate → List String
  | .deleted => [zone]
  | _ => []

def Ends (x : Gcp (Option String)) (s : State) (f : Fate) (zone : String) : Prop :=
  ∃ cache,
    let t : State := ⟨cache, s.inserted, s.deleted ++ f.deletedIn zone⟩
    x s = .ok f.address t ∨ (f.address = none ∧ ∃ e, x s = .error e t)

theorem lift_ok {α : Type} {outcome : Except Exn α} {a : α} (h : outcome = .ok a) (s : State) :
    lift outcome s = .ok a s := by
  subst h
  rfl

theorem lift_error {α : Type} {outcome : Except Exn α} {e : Exn} (h : outcome = .error e)
    (s : State) : lift outcome s = .error e s := by
  subst h
  rfl

theorem address_getInstance (o : Outcomes) : o.address =
    match getInstance o.fetch with
    | .ok (some vm) => firstAddress vm
    | _ => none := by
  cases hfetch : o.fetch with
  | ok vm => simp only [Outcomes.address, hfetch, getInstance]
  | error e => cases he : e.isApiCallError <;> simp [Outcomes.address, hfetch, getInstance, he]

theorem fetchCreated_ends (o : Outcomes) (name zone : String) (s : State) :
    Ends (fetchCreated o name) s
      (match o.address with
        | none => .abandoned
        | some address => .returned address) zone := by
  cases hget : getInstance o.fetch with
  | error e =>
    have haddress : o.address = none := by rw [address_getInstance, hget]
    have hrun : fetchCreated o name s = .error e s := by
      rw [fetchCreated]
      exact bind_error (lift_error hget s)
    rw [haddress]
    exact ⟨s.vmCache, Or.inr ⟨rfl, e, by rw [hrun]; simp [Fate.deletedIn]⟩⟩
  | ok found =>
    cases found with
    | none =>
      have haddress : o.address = none := by rw [address_getInstance, hget]
      have hrun : fetchCreated o name s = .ok none s := by
        rw [fetchCreated]
        exact bind_ok (lift_ok hget s)
      rw [haddress]
      exact ⟨s.vmCache, Or.inl (by rw [hrun]; simp [Fate.deletedIn, Fate.address])⟩
    | some vm =>
      have haddress : o.address = firstAddress vm := by rw [address_getInstance, hget]
      let cached : State := { s with vmCache := s.vmCache.set name vm }
      have hrun : fetchCreated o name s = (match firstAddress vm with
          | none => throw .indexError
          | some address => return some address : Gcp (Option String)) cached := by
        rw [fetchCreated]
        exact bind_ok (lift_ok hget s)
      rw [haddress]
      cases hfirst : firstAddress vm with
      | none =>
        refine ⟨cached.vmCache, Or.inr ⟨rfl, .indexError, ?_⟩⟩
        rw [hrun, hfirst]
        simp [Fate.deletedIn, cached, throw_apply]
      | some address =>
        refine ⟨cached.vmCache, Or.inl ?_⟩
        rw [hrun, hfirst]
        simp [Fate.deletedIn, Fate.address, cached, pure_apply]

theorem bringUp_ends (o : Outcomes) (name zone : String) (s : State) :
    Ends (bringUp o name zone) s (settled o) zone := by
  cases hresult : o.insertResult with
  | error e =>
    have hsettled : settled o = .abandoned := by simp only [settled, hresult]
    rw [hsettled]
    exact ⟨s.vmCache, Or.inr ⟨rfl, e, (bind_error (lift_error hresult s)).trans
      (by simp [Fate.deletedIn])⟩⟩
  | ok u =>
    obtain ⟨cache, hwait⟩ := waitForVmReady_run name o.lastPoll o.polls s
    have hstep := (bind_ok (f := fun _ => waitForVmReady name o.lastPoll o.polls >>= fun isReady =>
      if isReady then fetchCreated o name
      else do
        let _ ← deleteVm o name zone
        return none) (lift_ok hresult s)).trans (bind_ok hwait)
    cases hready : ready o.lastPoll o.polls with
    | true =>
      have hsettled : settled o = (match o.address with
          | none => .abandoned
          | some address => .returned address) := by
        simp only [settled, hresult, hready, if_true]
      rw [hready, if_pos rfl] at hstep
      obtain ⟨cache', hend⟩ := fetchCreated_ends o name zone { s with vmCache := cache }
      rw [hsettled]
      refine ⟨cache', ?_⟩
      rw [← hstep] at hend
      exact hend
    | false =>
      have hsettled : settled o = .deleted := by simp [settled, hresult, hready]
      obtain ⟨deleted, cache', hdelete⟩ := deleteVm_run o name zone { s with vmCache := cache }
      rw [hready, if_neg Bool.false_ne_true] at hstep
      rw [hsettled]
      exact ⟨cache', Or.inl (hstep.trans (bind_ok hdelete))⟩

section
variable (build : String → Except Exn Resource) (o : Outcomes) (name zone : String) (s : State)

/-- One zone ends as its fate says, and without an exception. -/
theorem attemptZone_run : ∃ cache, attemptZone build o name zone s =
    .ok (fate build o zone).address ⟨cache, s.inserted ++ (fate build o zone).inserted zone,
      s.deleted ++ (fate build o zone).deletedIn zone⟩ := by
  have hskip : ∀ e, createIn build o name zone s = .error e s → fate build o zone = .skipped →
      ∃ cache, attemptZone build o name zone s =
        .ok (fate build o zone).address ⟨cache, s.inserted ++ (fate build o zone).inserted zone,
          s.deleted ++ (fate build o zone).deletedIn zone⟩ := by
    intro e hrun hfate
    refine ⟨s.vmCache, (tryCatch_error hrun).trans ?_⟩
    simp only [hfate, Fate.inserted, Fate.deletedIn, List.append_nil]
    rfl
  cases hbuild : build zone with
  | error e => exact hskip e (bind_error (lift_error hbuild s)) (by simp only [fate, hbuild])
  | ok resource =>
    cases hinsert : o.insert with
    | error e =>
      exact hskip e ((bind_ok (lift_ok hbuild s)).trans (bind_error (lift_error hinsert s)))
        (by simp only [fate, hbuild, hinsert])
    | ok u =>
      let present : State := { s with inserted := s.inserted ++ [zone] }
      have hrun : createIn build o name zone s = bringUp o name zone present :=
        (bind_ok (lift_ok hbuild s)).trans (bind_ok (lift_ok hinsert s))
      have hfate : fate build o zone = settled o := by simp only [fate, hbuild, hinsert]
      have hinserted : (settled o).inserted zone = [zone] := by
        unfold settled
        split
        · rfl
        · split
          · split <;> rfl
          · rfl
      rw [hfate, hinserted]
      obtain ⟨cache, hok | ⟨hnone, e, herror⟩⟩ := bringUp_ends o name zone present
      · exact ⟨cache, tryCatch_ok (hrun.trans hok)⟩
      · refine ⟨cache, (tryCatch_error (hrun.trans herror)).trans ?_⟩
        rw [hnone]
        rfl

end

section
variable (build : String → Except Exn Resource) (outcomes : String → Outcomes) (name : String)

def fateOf (zone : String) : Fate := fate build (outcomes zone) zone

theorem tryZones_run (zones : List String) (s : State) :
    let fates := fateOf build outcomes
    ∃ cache, tryZones build outcomes name zones s =
      .ok (zones.findSome? (fun z => (fates z).address)) ⟨cache,
        s.inserted ++ (tried fates zones).flatMap (fun z => (fates z).inserted z),
        s.deleted ++ (tried fates zones).flatMap (fun z => (fates z).deletedIn z)⟩ := by
  intro fates
  induction zones generalizing s with
  | nil => exact ⟨s.vmCache, by simp [tryZones, tried, pure_apply]⟩
  | cons zone zones ih =>
    obtain ⟨cache, hzone⟩ : ∃ cache, attemptZone build (outcomes zone) name zone s =
        .ok (fates zone).address ⟨cache, s.inserted ++ (fates zone).inserted zone,
          s.deleted ++ (fates zone).deletedIn zone⟩ :=
      attemptZone_run build (outcomes zone) name zone s
    have hstep := bind_ok (f := fun found => match found with
      | some address => pure (some address)
      | none => tryZones build outcomes name zones) hzone
    cases haddress : (fates zone).address with
    | some address =>
      rw [haddress] at hstep
      refine ⟨cache, hstep.trans ?_⟩
      simp [tried, haddress, pure_apply]
    | none =>
      rw [haddress] at hstep
      obtain ⟨cache', hrest⟩ := ih ⟨cache, s.inserted ++ (fates zone).inserted zone,
        s.deleted ++ (fates zone).deletedIn zone⟩
      refine ⟨cache', (hstep.trans hrest).trans ?_⟩
      simp [tried, haddress]

end

theorem mem_inserted {fates : String → Fate} {zones : List String} {zone : String} :
    zone ∈ zones.flatMap (fun z => (fates z).inserted z) ↔
      zone ∈ zones ∧ fates zone ≠ .skipped := by
  have hzone : ∀ z, zone ∈ (fates z).inserted z ↔ zone = z ∧ fates z ≠ .skipped := by
    intro z
    cases fates z <;> simp [Fate.inserted]
  simp only [List.mem_flatMap, hzone]
  exact ⟨fun ⟨z, hz, he, hf⟩ => he ▸ ⟨hz, hf⟩, fun ⟨hz, hf⟩ => ⟨zone, hz, rfl, hf⟩⟩

theorem mem_deletedIn {fates : String → Fate} {zones : List String} {zone : String} :
    zone ∈ zones.flatMap (fun z => (fates z).deletedIn z) ↔
      zone ∈ zones ∧ fates zone = .deleted := by
  have hzone : ∀ z, zone ∈ (fates z).deletedIn z ↔ zone = z ∧ fates z = .deleted := by
    intro z
    cases fates z <;> simp [Fate.deletedIn]
  simp only [List.mem_flatMap, hzone]
  exact ⟨fun ⟨z, hz, he, hf⟩ => he ▸ ⟨hz, hf⟩, fun ⟨hz, hf⟩ => ⟨zone, hz, rfl, hf⟩⟩

/-- Only the last zone tried can give an address. -/
theorem tried_cases (fates : String → Fate) (zones : List String) :
    (zones.findSome? (fun z => (fates z).address) = none ∧
      ∀ z ∈ tried fates zones, (fates z).address = none) ∨
    ∃ before zone address, zones.findSome? (fun z => (fates z).address) = some address ∧
      tried fates zones = before ++ [zone] ∧ fates zone = .returned address ∧
      ∀ z ∈ before, (fates z).address = none := by
  induction zones with
  | nil => exact Or.inl ⟨rfl, by simp [tried]⟩
  | cons zone zones ih =>
    cases haddress : (fates zone).address with
    | some address =>
      have hreturned : fates zone = .returned address := by
        cases hf : fates zone <;> rw [hf] at haddress <;> simp_all [Fate.address]
      exact Or.inr ⟨[], zone, address, by simp [haddress], by simp [tried, haddress], hreturned,
        by simp⟩
    | none =>
      rcases ih with ⟨hnone, hall⟩ | ⟨before, last, address, hsome, htried, hlast, hbefore⟩
      · refine Or.inl ⟨by simp [haddress, hnone], fun z hz => ?_⟩
        rw [tried, if_pos haddress, List.mem_cons] at hz
        rcases hz with rfl | hz
        · exact haddress
        · exact hall z hz
      · refine Or.inr ⟨zone::before, last, address, by simp [haddress, hsome],
          by simp [tried, haddress, htried], hlast, fun z hz => ?_⟩
        rcases List.mem_cons.mp hz with rfl | hz
        · exact haddress
        · exact hbefore z hz

theorem settled_returned {o : Outcomes} {address : String} (h : settled o = .returned address) :
    o.address = some address := by
  unfold settled at h
  split at h
  · cases h
  · split at h
    · split at h
      · cases h
      next heq => cases h; exact heq
    · cases h

theorem fate_returned {build : String → Except Exn Resource} {o : Outcomes} {zone address : String}
    (h : fate build o zone = .returned address) : o.address = some address := by
  unfold fate at h
  split at h
  · cases h
  · split at h
    · cases h
    · exact settled_returned h

/-- Machines are left behind exactly in the zones tried whose machine is
neither deleted nor returned. -/
theorem leavesOne_iff (build : String → Except Exn Resource) (outcomes : String → Outcomes)
    (name : String) (zones : List String) (vmCache : Dict String Instance) :
    LeavesOne outcomes (tryZones build outcomes name zones (start vmCache)) ↔
      ∀ z ∈ tried (fateOf build outcomes) zones, fateOf build outcomes z ≠ .abandoned := by
  let fates := fateOf build outcomes
  obtain ⟨cache, hrun⟩ := tryZones_run build outcomes name zones (start vmCache)
  change tryZones build outcomes name zones (start vmCache) =
    .ok (zones.findSome? (fun z => (fates z).address)) ⟨cache,
      (tried fates zones).flatMap (fun z => (fates z).inserted z),
      (tried fates zones).flatMap (fun z => (fates z).deletedIn z)⟩ at hrun
  show _ ↔ ∀ z ∈ tried fates zones, fates z ≠ .abandoned
  -- a machine that is there is deleted, left behind or returned
  have hkept : ∀ z, fates z ≠ .skipped → fates z ≠ .abandoned → (fates z).address = none →
      fates z = .deleted := by
    intro z hskipped habandoned haddress
    cases hf : fates z with
    | skipped => exact absurd hf hskipped
    | deleted => rfl
    | abandoned => exact absurd hf habandoned
    | returned address => rw [hf] at haddress; cases haddress
  rw [hrun]
  rcases tried_cases fates zones with
    ⟨hnone, hall⟩ | ⟨before, zone, address, hsome, htried, hlast, hbefore⟩
  · rw [hnone]
    simp only [LeavesOne, mem_inserted, mem_deletedIn]
    constructor
    · intro h z hz habandoned
      have hdeleted := (h z ⟨hz, by simp [habandoned]⟩).2
      rw [habandoned] at hdeleted
      cases hdeleted
    · rintro h z ⟨hz, hskipped⟩
      exact ⟨hz, hkept z hskipped (h z hz) (hall z hz)⟩
  · have hgetLast : ((tried fates zones).flatMap (fun z => (fates z).inserted z)).getLast? =
        some zone := by
      rw [htried, List.flatMap_append]
      simp [hlast, Fate.inserted]
    rw [hsome]
    simp only [LeavesOne, hgetLast, mem_inserted, mem_deletedIn]
    constructor
    · rintro ⟨zone', hzone', -, h⟩ z hz habandoned
      cases hzone'
      have hne : z ≠ zone := by
        rintro rfl
        rw [habandoned] at hlast
        cases hlast
      have hdeleted := (h z ⟨hz, by simp [habandoned]⟩ hne).2
      rw [habandoned] at hdeleted
      cases hdeleted
    · intro h
      refine ⟨zone, rfl, fate_returned hlast, ?_⟩
      rintro z ⟨hz, hskipped⟩ hne
      have hz' : z ∈ before := by
        rw [htried, List.mem_append, List.mem_singleton] at hz
        exact hz.resolve_right hne
      exact ⟨hz, hkept z hskipped (h z hz) (hbefore z hz')⟩

def unfetched : Outcomes where
  insert := .ok ()
  insertResult := .ok ()
  polls := []
  lastPoll := .ok ⟨"RUNNING", [["34.1.2.3"]]⟩
  fetch := .error .apiCallError
  delete := .ok ()
  deleteResult := .ok ()

example : ¬ LeavesOne (fun _ => unfetched)
    (tryZones (fun zone => .ok ⟨"scheduler-1", zone, "", 100, none, []⟩) (fun _ => unfetched)
      "scheduler-1" zonesToTry (start Dict.empty)) := by
  rw [leavesOne_iff]
  exact fun h => h "us-east1-d" (by decide) (by decide)

/-- No machine is built. -/
theorem buildInstance_raises (projectId name modelId zone : String) :
    ∃ e, buildInstance projectId name modelId zone = .error e := by
  cases hprofile : getVmProfileForModel modelId with
  | error e => exact ⟨e, by simp only [buildInstance, hprofile]⟩
  | ok profile =>
    exact ⟨.attributeError "boot_disk_size_gb", by
      simp only [buildInstance, hprofile, VMProfile.bootDiskSizeGb]⟩

theorem fateOf_buildInstance (projectId name modelId : String) (outcomes : String → Outcomes)
    (zone : String) :
    fateOf (buildInstance projectId name modelId) outcomes zone = .skipped := by
  obtain ⟨e, he⟩ := buildInstance_raises projectId name modelId zone
  simp only [fateOf, fate, he]

/-- Whatever the calls would return, no machine is left behind but one whose
address is returned. -/
theorem leaves_one (projectId name modelId : String) (outcomes : String → Outcomes)
    (vmCache : Dict String Instance) :
    LeavesOne outcomes (createVm projectId outcomes name modelId (start vmCache)) := by
  refine (leavesOne_iff _ outcomes name zonesToTry vmCache).mpr (fun zone _ => ?_)
  rw [fateOf_buildInstance]
  exact Fate.noConfusion

end ServingSystem.GcpVm
