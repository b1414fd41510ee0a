import ServingSystem.Dict
import ServingSystem.StateExcept

/-!
# EC2 instances

`AWSVMManager.create_vm` with its lookups and `delete_vm`. The outcome of
each EC2 call is given; a call that raises has launched nothing. What is only
logged, and the script the instance runs, are left out.
-/

set_option autoImplicit false

namespace ServingSystem.AwsVm
open StateExcept

/-- What is raised: `ClientError`, `WaiterError`, another exception of
botocore such as a connection error, or an error of the code's own. -/
inductive Exn where
  | clientError
  | waiterError
  | botoCoreError
  | indexError
  | keyError
  deriving DecidableEq, Repr

structure VMProfile where
  instanceType : String
  amiNamePattern : String
  securityGroupName : String
  iamProfileName : String
  keyPairName : String
  volumeSizeGb : ℕ
  tags : List (String × String)
  deriving DecidableEq, Repr

def vmProfiles : List (String × VMProfile) :=
  [("small", ⟨"g5.xlarge",
      "Deep Learning OSS Nvidia Driver AMI GPU PyTorch*Amazon Linux 2023*",
      "scheduler-sg", "EC2ModelServingRole", "my-gpu-vm", 100, [("Service", "ModelScheduler")]⟩),
    ("a100", ⟨"p3.2xlarge",
      "Deep Learning OSS Nvidia Driver AMI GPU PyTorch*Amazon Linux 2023*",
      "scheduler-sg", "EC2ModelServingRole", "my-gpu-vm", 150, [("Service", "ModelScheduler")]⟩),
    ("cpu-only", ⟨"t3.large", "al2023-ami-2023.*-x86_64",
      "scheduler-sg", "EC2ModelServingRole", "my-gpu-vm", 50, [("Service", "ModelScheduler")]⟩)]

def modelProfiles : List (String × String) :=
  [("TinyLlama/TinyLlama-1.1B-Chat-v1.0", "small"), ("gpt2", "small"),
    ("facebook/opt-1.3b", "small"), ("meta-llama/Llama-2-7b-chat-hf", "medium"),
    ("tiiuae/falcon-7b-instruct", "medium"), ("mosaicml/mpt-7b-instruct", "medium"),
    ("meta-llama/Llama-2-13b-chat-hf", "a100"), ("tiiuae/falcon-40b-instruct", "a100"),
    ("mosaicml/mpt-30b-instruct", "a100")]

def getVmProfileForModel (modelId : String) : Except Exn VMProfile :=
  match vmProfiles.lookup ((modelProfiles.lookup modelId).getD "small") with
  | none => .error .keyError
  | some profile => .ok profile

structure Image where
  imageId : String
  creationDate : String
  deriving DecidableEq, Repr

structure RunRequest where
  imageId : String
  profile : VMProfile
  securityGroupId : String
  name : String
  deriving DecidableEq, Repr

/-- The reply to a request for one instance: at most that one, by its id. -/
structure Launched where
  instances : List String
  atMostOne : instances.length ≤ 1
  named : "" ∉ instances

structure Details where
  instanceId : String
  publicIpAddress : Option String
  deriving DecidableEq, Repr

/-- How each call goes. The instance is described by the public addresses in
each reservation. -/
structure Ec2 where
  describeSecurityGroups : Except Exn (List String)
  describeImages : Except Exn (List Image)
  runInstances : Except Exn Launched
  waitInstanceRunning : Except Exn Unit
  describeInstances : Except Exn (List (List (Option String)))
  terminateInstances : Except Exn Unit
  waitInstanceTerminated : Except Exn Unit

inductive Call where
  | describeSecurityGroups (name : String)
  | describeImages (namePattern : String)
  | runInstances (request : RunRequest)
  | waitInstanceRunning (instanceId : String)
  | describeInstances (instanceId : String)
  | terminateInstances (instanceId : String)
  | waitInstanceTerminated (instanceId : String)
  deriving DecidableEq, Repr

structure State where
  vmCache : Dict String Details
  calls : List Call
  launched : List String
  instanceId : Option String

abbrev Aws := EStateM Exn State

def invoke {α : Type} (call : Call) (outcome : Except Exn α) : Aws α := do
  modify (fun s => { s with calls := s.calls ++ [call] })
  match outcome with
  | .ok reply => return reply
  | .error e => throw e

def exceptClientError {α : Type} (body : Aws α) (value : α) : Aws α :=
  tryCatch body (fun e => if e = .clientError then pure value else throw e)

def findSecurityGroupIdByName (ec2 : Ec2) (sgName : String) : Aws (Option String) :=
  exceptClientError
    (do
      let groups ← invoke (.describeSecurityGroups sgName) ec2.describeSecurityGroups
      return groups.head?)
    none

def latestImage (images : List Image) : Option Image :=
  (images.mergeSort (fun a b => b.creationDate ≤ a.creationDate)).head?

def findLatestAmiIdByName (ec2 : Ec2) (namePattern : String) : Aws (Option String) :=
  exceptClientError
    (do
      let images ← invoke (.describeImages namePattern) ec2.describeImages
      return (latestImage images).map Image.imageId)
    none

def deleteVm (ec2 : Ec2) (name instanceId : String) : Aws Bool :=
  if instanceId = "" then pure true
  else
    exceptClientError
      (do
        invoke (.terminateInstances instanceId) ec2.terminateInstances
        invoke (.waitInstanceTerminated instanceId) ec2.waitInstanceTerminated
        modify (fun s => { s with vmCache := s.vmCache.erase name })
        return true)
      false

def firstInstance (reservations : List (List (Option String))) : Option (Option String) :=
  reservations.head?.bind List.head?

def verify (ec2 : Ec2) (name instanceId : String) : Aws (Option String) := do
  invoke (.waitInstanceRunning instanceId) ec2.waitInstanceRunning
  let desc ← invoke (.describeInstances instanceId) ec2.describeInstances
  match firstInstance desc with
  | none => throw .indexError
  | some address =>
    modify (fun s => { s with vmCache := s.vmCache.set name ⟨instanceId, address⟩ })
    return address

def launch (ec2 : Ec2) (request : RunRequest) : Aws (Option String) := do
  let response ← invoke (.runInstances request) ec2.runInstances
  modify (fun s => { s with launched := s.launched ++ response.instances })
  match response.instances with
  | [] => throw .indexError
  | instanceId::_ =>
    modify (fun s => { s with instanceId := some instanceId })
    verify ec2 request.name instanceId

def Exn.handled : Exn → Bool
  | .clientError => true
  | .waiterError => true
  | _ => false

def cleanUp (ec2 : Ec2) (name : String) : Aws (Option String) := do
  match (← get).instanceId with
  | none => return none
  | some instanceId =>
    let _ ← deleteVm ec2 name instanceId
    return none

def launchGuarded (ec2 : Ec2) (request : RunRequest) : Aws (Option String) :=
  tryCatch (launch ec2 request)
    (fun e => if e.handled then cleanUp ec2 request.name else throw e)

def launchFound (ec2 : Ec2) (name : String) (profile : VMProfile)
    (securityGroupId amiId : Option String) : Aws (Option String) :=
  match securityGroupId.filter (fun id => id ≠ "") with
  | none => pure none
  | some securityGroupId =>
    match amiId.filter (fun id => id ≠ "") with
    | none => pure none
    | some amiId => launchGuarded ec2 ⟨amiId, profile, securityGroupId, name⟩

def createVm (ec2 : Ec2) (name modelId : String) : Aws (Option String) :=
  match getVmProfileForModel modelId with
  | .error e => throw e
  | .ok profile => do
    let securityGroupId ← findSecurityGroupIdByName ec2 profile.securityGroupName
    let amiId ← findLatestAmiIdByName ec2 profile.amiNamePattern
    launchFound ec2 name profile securityGroupId amiId

def start (vmCache : Dict String Details) : State := ⟨vmCache, [], [], none⟩

/-- The call has returned with the instance it launched in the cache, or has
asked for the end of every instance it launched. -/
def NoLeak (name : String) (r : EStateM.Result Exn State (Option String)) : Prop :=
  (∃ address s, r = .ok address s ∧ ∃ details, s.vmCache.get name = some details ∧
      s.launched = [details.instanceId] ∧ details.publicIpAddress = address) ∨
    ∀ id ∈ (finalState r).launched, .terminateInstances id ∈ (finalState r).calls

def Finds {α : Type} (outcome : Except Exn α) (f : α → Option String) : Prop :=
  ∃ reply id, outcome = .ok reply ∧ f reply = some id ∧ id ≠ ""

def Requested (ec2 : Ec2) (modelId : String) : Prop :=
  (∃ profile, getVmProfileForModel modelId = .ok profile) ∧
    Finds ec2.describeSecurityGroups List.head? ∧
    Finds ec2.describeImages (fun images => (latestImage images).map Image.imageId)

/-- The instance launched is lost: the waiter or the description raises what
the handler does not catch, or nothing is described. -/
def Lost (ec2 : Ec2) : Prop :=
  (∃ e, ec2.waitInstanceRunning = .error e ∧ e.handled = false) ∨
    (ec2.waitInstanceRunning = .ok () ∧
      ((∃ e, ec2.describeInstances = .error e ∧ e.handled = false) ∨
        ∃ desc, ec2.describeInstances = .ok desc ∧ firstInstance desc = none))

theorem invoke_ok {α : Type} {call : Call} {outcome : Except Exn α} {reply : α}
    (h : outcome = .ok reply) (s : State) :
    invoke call outcome s = .ok reply { s with calls := s.calls ++ [call] } := by
  subst h
  rfl

theorem invoke_error {α : Type} {call : Call} {outcome : Except Exn α} {e : Exn}
    (h : outcome = .error e) (s : State) :
    invoke call outcome s = .error e { s with calls := s.calls ++ [call] } := by
  subst h
  rfl

structure Fresh (s : State) : Prop where
  launched : s.launched = []
  instanceId : s.instanceId = none
  calls : ∀ id, .terminateInstances id ∉ s.calls

theorem Fresh.noLeak {s : State} (h : Fresh s) (name : String)
    {r : EStateM.Result Exn State (Option String)} (hr : finalState r = s) : NoLeak name r := by
  right
  rw [hr, h.launched]
  simp

theorem Fresh.call {s : State} (h : Fresh s) (call : Call)
    (hc : ∀ id, call ≠ .terminateInstances id) : Fresh { s with calls := s.calls ++ [call] } where
  launched := h.launched
  instanceId := h.instanceId
  calls id := by simp [h.calls id, (hc id).symm]

section
variable {α : Type}

section
variable (call : Call) {outcome : Except Exn α} (f : α → Option String)

/-- The lookups share their shape: a value made of the reply, nothing after a
`ClientError`, and any other exception. -/
theorem lookup_ok {reply : α} (h : outcome = .ok reply) (s : State) :
    exceptClientError (invoke call outcome >>= fun reply => pure (f reply)) none s =
      .ok (f reply) { s with calls := s.calls ++ [call] } := by
  have hbody : (invoke call outcome >>= fun reply => pure (f reply)) s =
    .ok (f reply) { s with calls := s.calls ++ [call] } := bind_ok (invoke_ok h s)
  exact tryCatch_ok hbody

theorem lookup_error {e : Exn} (h : outcome = .error e) (s : State) :
    exceptClientError (invoke call outcome >>= fun reply => pure (f reply)) none s =
      if e = .clientError then .ok none { s with calls := s.calls ++ [call] }
      else .error e { s with calls := s.calls ++ [call] } := by
  have hbody : (invoke call outcome >>= fun reply => pure (f reply)) s =
    .error e { s with calls := s.calls ++ [call] } := bind_error (invoke_error h s)
  refine (tryCatch_error hbody).trans ?_
  by_cases he : e = .clientError
  · rw [if_pos he, if_pos he]
    rfl
  · rw [if_neg he, if_neg he]
    rfl

theorem lookup_cases {s : State} (hs : Fresh s) (hc : ∀ id, call ≠ .terminateInstances id) :
    (∃ v t, Fresh t ∧
        exceptClientError (invoke call outcome >>= fun reply => pure (f reply)) none s = .ok v t ∧
        (Finds outcome f ↔ ∃ id, v.filter (fun id => id ≠ "") = some id)) ∨
      (¬ Finds outcome f ∧ ∃ e t, Fresh t ∧
        exceptClientError (invoke call outcome >>= fun reply => pure (f reply)) none s =
          .error e t) := by
  have hfresh := hs.call call hc
  cases houtcome : outcome with
  | ok reply =>
    refine Or.inl ⟨f reply, _, hfresh, lookup_ok call f rfl s, ?_⟩
    simp [Finds, Option.filter_eq_some_iff]
  | error e =>
    have hnot : ¬ Finds (.error e : Except Exn α) f := by simp [Finds]
    have hrun := lookup_error call f (rfl : (.error e : Except Exn α) = .error e) s
    by_cases he : e = .clientError
    · rw [if_pos he] at hrun
      exact Or.inl ⟨none, _, hfresh, hrun, iff_of_false hnot (by simp)⟩
    · rw [if_neg he] at hrun
      exact Or.inr ⟨hnot, e, _, hfresh, hrun⟩

end

theorem finalState_invoke (call : Call) (outcome : Except Exn α) (s : State) :
    finalState (invoke call outcome s) = { s with calls := s.calls ++ [call] } := by
  cases outcome <;> rfl

structure Grows (s t : State) : Prop where
  launched : t.launched = s.launched
  calls : s.calls ⊆ t.calls

instance grows_refl : Std.Refl Grows := ⟨fun _ => ⟨rfl, List.Subset.refl _⟩⟩

instance grows_trans : IsTrans State Grows :=
  ⟨fun _ _ _ h g => ⟨g.launched.trans h.launched, List.Subset.trans h.calls g.calls⟩⟩

theorem invoke_grows (call : Call) (outcome : Except Exn α) :
    Leads Grows (invoke call outcome) := by
  intro s
  rw [finalState_invoke]
  exact ⟨rfl, List.subset_append_left _ _⟩

end

theorem deleteVm_run (ec2 : Ec2) (name : String) {instanceId : String} (h : instanceId ≠ "")
    (s : State) : (finalState (deleteVm ec2 name instanceId s)).launched = s.launched ∧
      .terminateInstances instanceId ∈ (finalState (deleteVm ec2 name instanceId s)).calls := by
  have hrest : ∀ u : Unit, Leads Grows ((do
      invoke (.waitInstanceTerminated instanceId) ec2.waitInstanceTerminated
      modify (fun s => { s with vmCache := s.vmCache.erase name })
      return true) : Aws Bool) := fun _ =>
    leads_bind (invoke_grows _ _) (fun _ =>
      leads_bind (leads_modify (fun _ => ⟨rfl, List.Subset.refl _⟩)) (fun _ => leads_pure true))
  have hhandle : ∀ e : Exn, Leads Grows
      (if e = .clientError then pure false else throw e : Aws Bool) := by
    intro e
    split
    · exact leads_pure false
    · exact leads_throw e
  have hafter := leads_after (x := invoke (.terminateInstances instanceId) ec2.terminateInstances)
    hrest hhandle s
  rw [finalState_invoke] at hafter
  have hdelete : deleteVm ec2 name instanceId s = exceptClientError
      (invoke (.terminateInstances instanceId) ec2.terminateInstances >>= fun _ => (do
        invoke (.waitInstanceTerminated instanceId) ec2.waitInstanceTerminated
        modify (fun s => { s with vmCache := s.vmCache.erase name })
        return true)) false s := by
    rw [deleteVm, if_neg h]
  rw [hdelete]
  exact ⟨hafter.launched, hafter.calls (by simp)⟩

/-- Once the instance has its id, it ends up in the cache, or an exception is
raised: one that the handler does not catch exactly when it is lost. -/
theorem verify_cases (ec2 : Ec2) (name instanceId : String) (s : State) :
    (¬ Lost ec2 ∧ ∃ address t, verify ec2 name instanceId s = .ok address t ∧
      t.launched = s.launched ∧ t.vmCache.get name = some ⟨instanceId, address⟩) ∨
    (∃ e calls, verify ec2 name instanceId s = .error e { s with calls := s.calls ++ calls } ∧
      (Lost ec2 ↔ e.handled = false) ∧ ∀ id, Call.terminateInstances id ∉ calls) := by
  cases hwait : ec2.waitInstanceRunning with
  | error e =>
    refine Or.inr ⟨e, [.waitInstanceRunning instanceId], bind_error (invoke_error hwait s), ?_,
      by simp⟩
    simp [Lost, hwait]
  | ok u =>
    let waited : State := { s with calls := s.calls ++ [.waitInstanceRunning instanceId] }
    have hfirst : invoke (.waitInstanceRunning instanceId) ec2.waitInstanceRunning s =
      .ok () waited := invoke_ok hwait s
    cases hdescribe : ec2.describeInstances with
    | error e =>
      refine Or.inr ⟨e, [.waitInstanceRunning instanceId, .describeInstances instanceId], ?_, ?_,
        by simp⟩
      · refine (bind_ok hfirst).trans ((bind_error (invoke_error hdescribe waited)).trans ?_)
        simp [waited]
      · simp [Lost, hwait, hdescribe]
    | ok desc =>
      let described : State :=
        { s with calls := s.calls ++ [.waitInstanceRunning instanceId] ++
            [.describeInstances instanceId] }
      have hsecond : invoke (.describeInstances instanceId) ec2.describeInstances waited =
        .ok desc described := invoke_ok hdescribe waited
      have hverify : verify ec2 name instanceId s = (match firstInstance desc with
          | none => throw .indexError
          | some address => do
            modify (fun s => { s with vmCache := s.vmCache.set name ⟨instanceId, address⟩ })
            return address : Aws (Option String)) described :=
        (bind_ok hfirst).trans (bind_ok hsecond)
      cases hinstance : firstInstance desc with
      | none =>
        refine Or.inr ⟨.indexError, [.waitInstanceRunning instanceId,
          .describeInstances instanceId], ?_, ?_, by simp⟩
        · rw [hverify, hinstance]
          simp [described, throw_apply]
        · simp [Lost, hwait, hdescribe, hinstance, Exn.handled]
      | some address =>
        refine Or.inl ⟨by simp [Lost, hwait, hdescribe, hinstance], address,
          { described with vmCache := s.vmCache.set name ⟨instanceId, address⟩ }, ?_, rfl, ?_⟩
        · rw [hverify, hinstance]
          rfl
        · exact Dict.get_set_self _ _ _

theorem cleanUp_fresh (ec2 : Ec2) (name : String) {s : State} (hs : Fresh s) :
    cleanUp ec2 name s = .ok none s := by
  rw [cleanUp, get_bind, hs.instanceId]
  rfl

theorem finalState_cleanUp (ec2 : Ec2) (name instanceId : String) {s : State}
    (hs : s.instanceId = some instanceId) :
    finalState (cleanUp ec2 name s) = finalState (deleteVm ec2 name instanceId s) := by
  rw [cleanUp, get_bind, hs]
  exact finalState_bind_keep (fun _ _ => rfl) s

theorem launchGuarded_error {ec2 : Ec2} {request : RunRequest} {s t : State} {e : Exn}
    (h : launch ec2 request s = .error e t) : launchGuarded ec2 request s =
      (if e.handled then cleanUp ec2 request.name else throw e) t :=
  tryCatch_error h

theorem Launched.cases (response : Launched) : response.instances = [] ∨
    ∃ id, response.instances = [id] ∧ id ≠ "" := by
  obtain ⟨instances, hone, hnamed⟩ := response
  cases instances with
  | nil => exact Or.inl rfl
  | cons id rest =>
    obtain rfl : rest = [] := List.eq_nil_of_length_eq_zero (by simpa using hone)
    exact Or.inr ⟨id, rfl, fun h => hnamed (by simp [h])⟩

section
variable {ec2 : Ec2} {request : RunRequest} {s : State}

theorem launch_without {t : State} {e : Exn} (ht : Fresh t)
    (h : launch ec2 request s = .error e t) (name : String) :
    NoLeak name (launchGuarded ec2 request s) := by
  refine ht.noLeak name ?_
  rw [launchGuarded_error h]
  split
  · rw [cleanUp_fresh ec2 request.name ht]
    rfl
  · rfl

/-- An instance that was launched leaks exactly when it is lost. -/
theorem launch_with (hs : Fresh s) {response : Launched} {id : String}
    (hrun : ec2.runInstances = .ok response) (hid : response.instances = [id]) (hne : id ≠ "") :
    NoLeak request.name (launchGuarded ec2 request s) ↔ ¬ Lost ec2 := by
  let held : State :=
    { s with calls := s.calls ++ [.runInstances request], launched := [id], instanceId := some id }
  have hlaunch : launch ec2 request s = verify ec2 request.name id held := by
    rw [launch, bind_ok (invoke_ok hrun s), modify_bind, hid, hs.launched]
    rfl
  rcases verify_cases ec2 request.name id held with
    ⟨hkept, address, t, hverify, hlaunched, hcache⟩ | ⟨e, calls, hverify, hlost, hcalls⟩
  · have hreturned : launchGuarded ec2 request s = .ok address t :=
      tryCatch_ok (hlaunch.trans hverify)
    rw [hreturned]
    exact iff_of_true (Or.inl ⟨address, t, rfl, _, hcache, hlaunched, rfl⟩) hkept
  · have hraised := launchGuarded_error (hlaunch.trans hverify)
    cases he : e.handled with
    | true =>
      have hterminated :=
        deleteVm_run ec2 request.name hne { held with calls := held.calls ++ calls }
      rw [← finalState_cleanUp ec2 request.name id rfl] at hterminated
      rw [he, if_pos rfl] at hraised
      refine iff_of_true (Or.inr ?_) (fun h => by simp [hlost.mp h] at he)
      rw [hraised, hterminated.1]
      intro other hother
      obtain rfl : other = id := List.mem_singleton.mp hother
      exact hterminated.2
    | false =>
      rw [he, if_neg Bool.false_ne_true] at hraised
      refine iff_of_false ?_ (fun h => h (hlost.mpr he))
      rw [hraised]
      rintro (⟨address, t, hok, -⟩ | hall)
      · cases hok
      · have hmem : Call.terminateInstances id ∈ s.calls ++ [.runInstances request] ++ calls :=
          hall id (List.mem_singleton_self id)
        simp [hs.calls id, hcalls id] at hmem

theorem launchGuarded_noLeak (hs : Fresh s) :
    NoLeak request.name (launchGuarded ec2 request s) ↔
      ((∃ response, ec2.runInstances = .ok response ∧ response.instances ≠ []) → ¬ Lost ec2) := by
  cases hrun : ec2.runInstances with
  | error e =>
    have hfresh := hs.call (.runInstances request) (by simp)
    refine iff_of_true (launch_without hfresh (bind_error (invoke_error hrun s)) _) ?_
    rintro ⟨response, hresponse, -⟩
    cases hresponse
  | ok response =>
    rcases response.cases with hnone | ⟨id, hid, hne⟩
    · have hfresh := hs.call (.runInstances request) (by simp)
      have hlaunch : launch ec2 request s =
          .error .indexError { s with calls := s.calls ++ [.runInstances request] } := by
        rw [launch, bind_ok (invoke_ok hrun s), modify_bind, hnone, List.append_nil]
        rfl
      refine iff_of_true (launch_without hfresh hlaunch _) ?_
      rintro ⟨response', hresponse, hne⟩
      cases hresponse
      exact absurd hnone hne
    · rw [launch_with hs hrun hid hne]
      refine ⟨fun h _ => h, fun h => h ⟨response, rfl, by simp [hid]⟩⟩

end

theorem findSecurityGroup_cases (ec2 : Ec2) (sgName : String) {s : State} (hs : Fresh s) :
    (∃ v t, Fresh t ∧ findSecurityGroupIdByName ec2 sgName s = .ok v t ∧
      (Finds ec2.describeSecurityGroups List.head? ↔
        ∃ id, v.filter (fun id => id ≠ "") = some id)) ∨
    (¬ Finds ec2.describeSecurityGroups List.head? ∧ ∃ e t, Fresh t ∧
      findSecurityGroupIdByName ec2 sgName s = .error e t) :=
  lookup_cases _ List.head? hs (by simp)

theorem findLatestAmi_cases (ec2 : Ec2) (namePattern : String) {s : State} (hs : Fresh s) :
    (∃ v t, Fresh t ∧ findLatestAmiIdByName ec2 namePattern s = .ok v t ∧
      (Finds ec2.describeImages (fun images => (latestImage images).map Image.imageId) ↔
        ∃ id, v.filter (fun id => id ≠ "") = some id)) ∨
    (¬ Finds ec2.describeImages (fun images => (latestImage images).map Image.imageId) ∧
      ∃ e t, Fresh t ∧ findLatestAmiIdByName ec2 namePattern s = .error e t) :=
  lookup_cases _ (fun images => (latestImage images).map Image.imageId) hs (by simp)

/-- The launch is made when both lookups have found an id. -/
theorem launchFound_cases (ec2 : Ec2) (name : String) (profile : VMProfile)
    (group ami : Option String) {s : State} (hs : Fresh s) :
    (∃ groupId amiId, group.filter (fun id => id ≠ "") = some groupId ∧
      ami.filter (fun id => id ≠ "") = some amiId ∧
      launchFound ec2 name profile group ami s =
        launchGuarded ec2 ⟨amiId, profile, groupId, name⟩ s) ∨
    ((group.filter (fun id => id ≠ "") = none ∨ ami.filter (fun id => id ≠ "") = none) ∧
      Fresh (finalState (launchFound ec2 name profile group ami s))) := by
  cases hgroup : group.filter (fun id => id ≠ "") with
  | none =>
    refine Or.inr ⟨Or.inl rfl, ?_⟩
    simp only [launchFound, hgroup]
    exact hs
  | some groupId =>
    cases hami : ami.filter (fun id => id ≠ "") with
    | none =>
      refine Or.inr ⟨Or.inr rfl, ?_⟩
      simp only [launchFound, hgroup, hami]
      exact hs
    | some amiId => exact Or.inl ⟨groupId, amiId, rfl, rfl, by simp only [launchFound, hgroup, hami]⟩

/-- A call that ends before its launch, or goes on to it from a fresh state. -/
theorem createVm_cases (ec2 : Ec2) (name modelId : String) (vmCache : Dict String Details) :
    (Requested ec2 modelId ∧ ∃ request s, Fresh s ∧ request.name = name ∧
      createVm ec2 name modelId (start vmCache) = launchGuarded ec2 request s) ∨
    (¬ Requested ec2 modelId ∧
      Fresh (finalState (createVm ec2 name modelId (start vmCache)))) := by
  have hstart : Fresh (start vmCache) := ⟨rfl, rfl, by simp [start]⟩
  cases hprofile : getVmProfileForModel modelId with
  | error e =>
    refine Or.inr ⟨by simp [Requested, hprofile], ?_⟩
    simp only [createVm, hprofile]
    exact hstart
  | ok profile =>
    have hcreate : createVm ec2 name modelId = (do
        let securityGroupId ← findSecurityGroupIdByName ec2 profile.securityGroupName
        let amiId ← findLatestAmiIdByName ec2 profile.amiNamePattern
        launchFound ec2 name profile securityGroupId amiId) := by
      rw [createVm, hprofile]
    rw [hcreate]
    rcases findSecurityGroup_cases ec2 profile.securityGroupName hstart with
      ⟨group, t, ht, hgroup, hfound⟩ | ⟨hnone, e, t, ht, hgroup⟩
    · rw [bind_ok hgroup]
      rcases findLatestAmi_cases ec2 profile.amiNamePattern ht with
        ⟨ami, u, hu, hami, hfound'⟩ | ⟨hnone, e, u, hu, hami⟩
      · rw [bind_ok hami]
        rcases launchFound_cases ec2 name profile group ami hu with
          ⟨groupId, amiId, hgroupId, hamiId, hlaunch⟩ | ⟨hmissing, hfresh⟩
        · exact Or.inl ⟨⟨⟨profile, hprofile⟩, hfound.mpr ⟨groupId, hgroupId⟩,
            hfound'.mpr ⟨amiId, hamiId⟩⟩, _, u, hu, rfl, hlaunch⟩
        · refine Or.inr ⟨fun h => ?_, hfresh⟩
          obtain ⟨groupId, hgroupId⟩ := hfound.mp h.2.1
          obtain ⟨amiId, hamiId⟩ := hfound'.mp h.2.2
          rcases hmissing with hno | hno
          · cases hno.symm.trans hgroupId
          · cases hno.symm.trans hamiId
      · rw [bind_error hami]
        exact Or.inr ⟨fun h => hnone h.2.2, hu⟩
    · rw [bind_error hgroup]
      exact Or.inr ⟨fun h => hnone h.2.1, ht⟩

/-- No instance leaks exactly when one that was launched is not lost. -/
theorem no_leak_iff (ec2 : Ec2) (name modelId : String) (vmCache : Dict String Details) :
    NoLeak name (createVm ec2 name modelId (start vmCache)) ↔
      (Requested ec2 modelId ∧
        (∃ response, ec2.runInstances = .ok response ∧ response.instances ≠ []) →
          ¬ Lost ec2) := by
  rcases createVm_cases ec2 name modelId vmCache with
    ⟨hrequested, request, s, hs, rfl, hcreate⟩ | ⟨hnot, hfresh⟩
  · rw [hcreate, launchGuarded_noLeak hs]
    exact ⟨fun h hlaunched => h hlaunched.2, fun h hresponse => h ⟨hrequested, hresponse⟩⟩
  · exact iff_of_true (hfresh.noLeak name rfl) (fun h => absurd h.1 hnot)

def disconnected : Ec2 where
  describeSecurityGroups := .ok ["sg-1"]
  describeImages := .ok [⟨"ami-1", "2025-01-01T00:00:00.000Z"⟩]
  runInstances := .ok ⟨["i-1"], by decide, by decide⟩
  waitInstanceRunning := .error .botoCoreError
  describeInstances := .ok [[none]]
  terminateInstances := .ok ()
  waitInstanceTerminated := .ok ()

/-- The exception is not one that the handler catches, and the instance is
left running. -/
theorem disconnected_leaks : ¬ NoLeak "scheduler-1"
    (createVm disconnected "scheduler-1" "small" (start Dict.empty)) := by
  have hrequested : Requested disconnected "small" :=
    ⟨⟨_, rfl⟩, ⟨["sg-1"], "sg-1", rfl, rfl, by decide⟩,
      ⟨[⟨"ami-1", "2025-01-01T00:00:00.000Z"⟩], "ami-1", rfl, by simp [latestImage], by decide⟩⟩
  have hlost : Lost disconnected := Or.inl ⟨.botoCoreError, rfl, rfl⟩
  rcases createVm_cases disconnected "scheduler-1" "small" Dict.empty with
    ⟨-, request, s, hs, hname, hcreate⟩ | ⟨hnot, -⟩
  · rw [hcreate, ← hname]
    exact fun h => (launch_with hs rfl rfl (by decide)).mp h hlost
  · exact absurd hrequested hnot

end ServingSystem.AwsVm
