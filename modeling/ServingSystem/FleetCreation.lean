import ServingSystem.AwsVm
import ServingSystem.ReplicaKey

/-!
# The instances that the head asks for

`HeadController._create_vm_in_thread`: rounds of `create_vm`, one after the
other, on one cache. What a round raises is only printed, and the next one
follows.
-/

set_option autoImplicit false

namespace ServingSystem.Fleet
open AwsVm StateExcept

structure Made where
  vmCache : Dict String Details
  launched : List (ℕ × String)
  calls : List (ℕ × Call)

def schedulerName (schedulerId : ℕ) : String := "scheduler-" ++ toString schedulerId

def createRound (ec2 : Ec2) (schedulerId : ℕ) (m : Made) : Made :=
  let s := finalState (createVm ec2 (schedulerName schedulerId) "small" (start m.vmCache))
  ⟨s.vmCache, m.launched ++ s.launched.map (fun id => (schedulerId, id)),
    m.calls ++ s.calls.map (fun call => (schedulerId, call))⟩

def createVms (ec2 : ℕ → Ec2) : ℕ → Made
  | 0 => ⟨Dict.empty, [], []⟩
  | i+1 => createRound (ec2 i) (i+1) (createVms ec2 i)

/-- The cache names the instance for its scheduler, or its end was asked for
in its own round. -/
def Made.Accounts (m : Made) (schedulerId : ℕ) (instanceId : String) : Prop :=
  (∃ details, m.vmCache.get (schedulerName schedulerId) = some details ∧
    details.instanceId = instanceId) ∨ (schedulerId, .terminateInstances instanceId) ∈ m.calls

/-- Each round launches one instance at most, and the instance stays
accounted for unless its round lost it. -/
structure Accounted (ec2 : ℕ → Ec2) (rounds : ℕ) (m : Made) : Prop where
  ids : (m.launched.map Prod.fst).Sublist (List.range' 1 rounds)
  kept : ∀ k id, (k, id) ∈ m.launched → (m.Accounts k id ↔ ¬ Lost (ec2 (k-1)))

section
variable {R : State → State → Prop} {ec2 : Ec2} {name : String}

theorem invoke_leads (hcall : ∀ s call, R s { s with calls := s.calls ++ [call] }) {α : Type}
    (call : Call) (outcome : Except Exn α) : Leads R (invoke call outcome) := by
  intro s
  rw [finalState_invoke]
  exact hcall s call

variable [Std.Refl R] [IsTrans State R]

theorem lookup_leads (hcall : ∀ s call, R s { s with calls := s.calls ++ [call] }) {α : Type}
    (call : Call) (outcome : Except Exn α) (f : α → Option String) :
    Leads R (exceptClientError (invoke call outcome >>= fun reply => pure (f reply)) none) := by
  apply leads_tryCatch
  · exact leads_bind (invoke_leads hcall call outcome) (fun _ => leads_pure _)
  · intro e
    split
    · exact leads_pure none
    · exact leads_throw e

theorem deleteVm_leads (hcall : ∀ s call, R s { s with calls := s.calls ++ [call] })
    (herase : ∀ s, R s { s with vmCache := s.vmCache.erase name }) (instanceId : String) :
    Leads R (deleteVm ec2 name instanceId) := by
  rw [deleteVm]
  split
  · exact leads_pure true
  · apply leads_tryCatch
    · apply leads_bind (invoke_leads hcall _ _)
      intro _
      apply leads_bind (invoke_leads hcall _ _)
      intro _
      exact leads_bind (leads_modify herase) (fun _ => leads_pure true)
    · intro e
      split
      · exact leads_pure false
      · exact leads_throw e

theorem createVm_leads (hcall : ∀ s call, R s { s with calls := s.calls ++ [call] })
    (hlocal : ∀ s launched instanceId, R s { s with launched, instanceId })
    (herase : ∀ s, R s { s with vmCache := s.vmCache.erase name })
    (hverify : ∀ id, Leads R (verify ec2 name id)) (modelId : String) :
    Leads R (createVm ec2 name modelId) := by
  have hlaunch : ∀ request : RunRequest, request.name = name → Leads R (launch ec2 request) := by
    rintro request rfl
    apply leads_bind (invoke_leads hcall _ _)
    intro response
    apply leads_bind (leads_modify (fun s => hlocal s _ _))
    intro _
    cases response.instances with
    | nil => exact leads_throw _
    | cons id _ => exact leads_bind (leads_modify (fun s => hlocal s _ _)) (fun _ => hverify id)
  have hclean : Leads R (cleanUp ec2 name) := by
    refine leads_bind leads_get (fun s => ?_)
    cases s.instanceId with
    | none => exact leads_pure none
    | some id => exact leads_bind (deleteVm_leads hcall herase id) (fun _ => leads_pure none)
  have hguarded : ∀ request : RunRequest, request.name = name →
      Leads R (launchGuarded ec2 request) := by
    rintro request rfl
    apply leads_tryCatch (hlaunch request rfl)
    intro e
    split
    · exact hclean
    · exact leads_throw e
  rw [createVm]
  cases getVmProfileForModel modelId with
  | error e => exact leads_throw e
  | ok profile =>
    apply leads_bind (lookup_leads hcall _ _ _)
    intro group
    apply leads_bind (lookup_leads hcall _ _ _)
    intro ami
    rw [launchFound]
    cases group.filter (fun id => id ≠ "") with
    | none => exact leads_pure none
    | some groupId =>
      cases ami.filter (fun id => id ≠ "") with
      | none => exact leads_pure none
      | some amiId => exact hguarded _ rfl

end

theorem verify_others (ec2 : Ec2) {name other : String} (h : other ≠ name) (id : String) :
    Keeps (fun s => s.vmCache.get other) (verify ec2 name id) := by
  have hcall : ∀ {α : Type} (call : Call) (outcome : Except Exn α),
      Keeps (fun s => s.vmCache.get other) (invoke call outcome) := fun call outcome s => by
    rw [finalState_invoke]
  apply keeps_bind (hcall _ _)
  intro _
  apply keeps_bind (hcall _ _)
  intro desc
  cases firstInstance desc with
  | none => exact fun _ => rfl
  | some address =>
    exact keeps_bind (keeps_modify (fun s => Dict.get_set_ne _ _ h)) (fun _ => keeps_pure address)

/-- The entries of other names stay. -/
theorem createVm_others (ec2 : Ec2) {name other : String} (h : other ≠ name) (modelId : String) :
    Keeps (fun s => s.vmCache.get other) (createVm ec2 name modelId) := by
  let R : State → State → Prop := fun s t => t.vmCache.get other = s.vmCache.get other
  have : Std.Refl R := ⟨fun _ => rfl⟩
  have : IsTrans State R := ⟨fun _ _ _ hst htu => htu.trans hst⟩
  exact createVm_leads (R := R) (fun _ _ => rfl) (fun _ _ _ => rfl)
    (fun s => Dict.get_erase_ne _ h) (verify_others ec2 h) modelId

theorem createVm_lost {ec2 : Ec2} (hl : Lost ec2) (name modelId : String) {s : State}
    (h : s.vmCache.get name = none) :
    (finalState (createVm ec2 name modelId s)).vmCache.get name = none := by
  let R : State → State → Prop := fun s t => s.vmCache.get name = none → t.vmCache.get name = none
  have : Std.Refl R := ⟨fun _ h => h⟩
  have : IsTrans State R := ⟨fun _ _ _ hst htu h => htu (hst h)⟩
  refine createVm_leads (R := R) (fun _ _ h => h) (fun _ _ _ h => h)
    (fun s _ => Dict.get_erase_self _ _) (fun id t ht => ?_) modelId s h
  rcases verify_cases ec2 name id t with ⟨hkept, -⟩ | ⟨e, calls, hverify, -⟩
  · exact absurd hl hkept
  · rw [hverify]
    exact ht

def launchedOf (ec2 : Ec2) : List String :=
  match ec2.runInstances with
  | .ok response => response.instances
  | .error _ => []

theorem verify_launched (ec2 : Ec2) (name id : String) :
    Keeps State.launched (verify ec2 name id) := by
  intro s
  rcases verify_cases ec2 name id s with ⟨-, address, t, hv, ht, -⟩ | ⟨e, calls, hv, -⟩
  · rw [hv]
    exact ht
  · rw [hv]
    rfl

theorem launchGuarded_launched (ec2 : Ec2) (request : RunRequest) (s : State) :
    (finalState (launchGuarded ec2 request s)).launched = s.launched ++ launchedOf ec2 := by
  have hclean : ∀ e : Exn, Keeps State.launched
      (if e.handled then cleanUp ec2 request.name else throw e : Aws (Option String)) := by
    intro e
    split
    · refine keeps_bind keeps_get (fun s => ?_)
      cases s.instanceId with
      | none => exact keeps_pure none
      | some id =>
        have hdelete : Keeps State.launched (deleteVm ec2 request.name id) :=
          deleteVm_leads (R := fun s t => t.launched = s.launched) (fun _ _ => rfl)
            (fun _ => rfl) id
        exact keeps_bind hdelete (fun _ => keeps_pure none)
    · exact fun _ => rfl
  rw [launchGuarded, keeps_handler hclean]
  cases hrun : ec2.runInstances with
  | error e =>
    rw [launch, finalState_bind_error (invoke_error hrun s), launchedOf, hrun, List.append_nil]
  | ok response =>
    have hof : launchedOf ec2 = response.instances := by rw [launchedOf, hrun]
    rw [launch, finalState_bind_ok (invoke_ok hrun s), modify_bind, hof]
    cases response.instances with
    | nil => rfl
    | cons id rest => exact verify_launched ec2 request.name id _

theorem createVm_launched {ec2 : Ec2} {modelId : String} (h : Requested ec2 modelId)
    (name : String) (vmCache : Dict String Details) :
    (finalState (createVm ec2 name modelId (start vmCache))).launched = launchedOf ec2 := by
  rcases createVm_cases ec2 name modelId vmCache with
    ⟨-, request, s, hs, -, hcreate⟩ | ⟨hnot, -⟩
  · rw [hcreate, launchGuarded_launched, hs.launched, List.nil_append]
  · exact absurd h hnot

structure Outcome (ec2 : Ec2) (name : String) (s : State) : Prop where
  one : s.launched = [] ∨ ∃ id, s.launched = [id]
  kept : ∀ id ∈ s.launched, ((∃ details, s.vmCache.get name = some details ∧
    details.instanceId = id) ∨ .terminateInstances id ∈ s.calls ↔ ¬ Lost ec2)

theorem createVm_outcome (ec2 : Ec2) (name modelId : String) {vmCache : Dict String Details}
    (hnew : vmCache.get name = none) :
    Outcome ec2 name (finalState (createVm ec2 name modelId (start vmCache))) := by
  rcases createVm_cases ec2 name modelId vmCache with
    ⟨-, request, s, hs, rfl, hcreate⟩ | ⟨-, hfresh⟩
  · have hlaunched := launchGuarded_launched ec2 request s
    have hlost := fun hl : Lost ec2 =>
      createVm_lost hl request.name modelId (show (start vmCache).vmCache.get _ = none from hnew)
    rw [hs.launched, List.nil_append] at hlaunched
    rw [hcreate] at hlost ⊢
    cases hrun : ec2.runInstances with
    | error e =>
      have hnone : launchedOf ec2 = [] := by rw [launchedOf, hrun]
      rw [hnone] at hlaunched
      exact ⟨Or.inl hlaunched, fun id hid => by simp [hlaunched] at hid⟩
    | ok response =>
      have hof : launchedOf ec2 = response.instances := by rw [launchedOf, hrun]
      rw [hof] at hlaunched
      rcases response.cases with hnone | ⟨id, hone, -⟩
      · rw [hnone] at hlaunched
        exact ⟨Or.inl hlaunched, fun id hid => by simp [hlaunched] at hid⟩
      · rw [hone] at hlaunched
        refine ⟨Or.inr ⟨id, hlaunched⟩, fun id' hid => ?_⟩
        rw [hlaunched] at hid
        obtain rfl := List.mem_singleton.mp hid
        have hleak : NoLeak request.name (launchGuarded ec2 request s) ↔ ¬ Lost ec2 :=
          (launchGuarded_noLeak hs).trans
            ⟨fun h => h ⟨response, hrun, by simp [hone]⟩, fun h _ => h⟩
        constructor
        · rintro (⟨details, hget, -⟩ | hterm) hl
          · cases (hlost hl).symm.trans hget
          · refine hleak.mp (Or.inr (fun other hother => ?_)) hl
            rw [hlaunched] at hother
            exact List.mem_singleton.mp hother ▸ hterm
        · intro hl
          rcases hleak.mpr hl with ⟨address, t, ht, details, hget, hlist, -⟩ | hall
          · rw [ht] at hlaunched ⊢
            exact Or.inl ⟨details, hget, (List.cons.inj (hlist.symm.trans hlaunched)).1⟩
          · exact Or.inr (hall id' (hlaunched ▸ List.mem_singleton_self id'))
  · exact ⟨Or.inl hfresh.launched, fun id hid => by simp [hfresh.launched] at hid⟩

theorem schedulerName_inj {k k' : ℕ} : schedulerName k = schedulerName k' ↔ k = k' := by
  refine ⟨fun h => Head.toString_inj ?_, fun h => h ▸ rfl⟩
  have hl := congrArg String.toList h
  simp only [schedulerName, String.toList_append] at hl
  exact String.toList_inj.mp (List.append_cancel_left hl)

/-- The head has nothing cached under a name whose round has not come. -/
theorem createVms_uncached (ec2 : ℕ → Ec2) {n k : ℕ} (h : n < k) :
    (createVms ec2 n).vmCache.get (schedulerName k) = none := by
  induction n with
  | zero => rfl
  | succ n ih =>
    have hne : schedulerName k ≠ schedulerName (n+1) := fun he => by
      rw [schedulerName_inj] at he
      omega
    exact (createVm_others (ec2 n) hne "small" (start (createVms ec2 n).vmCache)).trans
      (ih (by omega))

theorem createVms_calls {ec2 : ℕ → Ec2} {n k : ℕ} {call : Call}
    (h : (k, call) ∈ (createVms ec2 n).calls) : k ≤ n := by
  induction n with
  | zero => cases h
  | succ n ih =>
    rcases List.mem_append.mp h with h | h
    · exact (ih h).trans (Nat.le_succ n)
    · obtain ⟨_, -, he⟩ := List.mem_map.mp h
      exact le_of_eq (Prod.mk.inj he).1.symm

/-- A round launches under its own id, and one instance at most. -/
theorem createVms_ids (ec2 : ℕ → Ec2) (n : ℕ) :
    ((createVms ec2 n).launched.map Prod.fst).Sublist (List.range' 1 n) := by
  induction n with
  | zero => exact List.Sublist.refl _
  | succ n ih =>
    have hround := createVm_outcome (ec2 n) (schedulerName (n+1)) "small"
      (createVms_uncached ec2 (Nat.lt_succ_self n))
    rw [createVms, createRound, List.map_append, List.map_map, List.range'_concat]
    refine ih.append ?_
    rcases hround.one with h | ⟨id, h⟩
    · simp [h]
    · simp [h, Nat.add_comm]

theorem createVms_le {ec2 : ℕ → Ec2} {n k : ℕ} {id : String}
    (hm : (k, id) ∈ (createVms ec2 n).launched) : k ≤ n := by
  have hk := (createVms_ids ec2 n).subset (List.mem_map_of_mem (f := Prod.fst) hm)
  have := List.mem_range'_1.mp hk
  omega

/-- At most one instance of each scheduler id is launched, and at the end the
cache names it or its end was asked for, unless its own round lost it. -/
theorem vms_accounted (ec2 : ℕ → Ec2) (rounds : ℕ) :
    Accounted ec2 rounds (createVms ec2 rounds) := by
  refine ⟨createVms_ids ec2 rounds, ?_⟩
  induction rounds with
  | zero => exact fun k id h => nomatch h
  | succ n ih =>
    intro k id hm
    have hround := createVm_outcome (ec2 n) (schedulerName (n+1)) "small"
      (createVms_uncached ec2 (Nat.lt_succ_self n))
    have hothers := fun k (hk : k ≠ n+1) => createVm_others (ec2 n)
      (mt schedulerName_inj.mp hk) "small" (start (createVms ec2 n).vmCache)
    rw [createVms, createRound] at hm ⊢
    generalize finalState (createVm (ec2 n) (schedulerName (n+1)) "small"
      (start (createVms ec2 n).vmCache)) = s at hround hothers hm ⊢
    rcases List.mem_append.mp hm with hm | hm
    · have hk := createVms_le hm
      have hget := hothers k (by omega)
      have hcalls : (k, Call.terminateInstances id) ∉
          s.calls.map (fun call => (n+1, call)) := by
        intro h
        obtain ⟨_, -, he⟩ := List.mem_map.mp h
        have := (Prod.mk.inj he).1
        omega
      rw [← ih k id hm, Made.Accounts, Made.Accounts, List.mem_append]
      simp only [hcalls, or_false]
      rw [show s.vmCache.get (schedulerName k) = _ from hget]
      rfl
    · obtain ⟨id', hid, he⟩ := List.mem_map.mp hm
      obtain ⟨rfl, rfl⟩ := Prod.mk.inj he
      have hold : (n+1, Call.terminateInstances id') ∉ (createVms ec2 n).calls := fun h =>
        absurd (createVms_calls h) (Nat.not_succ_le_self n)
      rw [Nat.add_sub_cancel, ← hround.kept id' hid, Made.Accounts, List.mem_append]
      simp [hold]

end ServingSystem.Fleet
