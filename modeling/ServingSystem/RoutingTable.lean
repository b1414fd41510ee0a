import ServingSystem.DeploymentHandle
import Mathlib.Data.List.Induction

/-!
# The proxy's routing table

`HttpProxy::apply_routing_update` builds a handle for every deployment of
the update and swaps in a table that names them. Handles live in a heap that
only grows, since sessions keep the handles they looked up. The entries of
the message's map are visited in the order given, which may be any.
-/

set_option autoImplicit false

namespace ServingSystem.Proxy
open Protos Positions

abbrev Heap := List DeploymentHandle

abbrev RoutingTable := Dict String ℕ

def insertDeployment (out : Heap × RoutingTable) (entry : ℕ × DeploymentInfoMessage) :
    Heap × RoutingTable :=
  (out.1 ++ [DeploymentHandle.ofInfo entry.2], out.2.set entry.2.deploymentName out.1.length)

def applyRoutingUpdate (heap : Heap) (entries : List (ℕ × DeploymentInfoMessage)) :
    Heap × RoutingTable :=
  entries.foldl insertDeployment (heap, Dict.empty)

def LastNamed (entries : List (ℕ × DeploymentInfoMessage)) (name : String) (j : ℕ)
    (info : DeploymentInfoMessage) : Prop :=
  (∃ id, entries[j]? = some (id, info)) ∧ info.deploymentName = name ∧
    ∀ k e, entries[k]? = some e → e.2.deploymentName = name → k ≤ j

theorem applyRoutingUpdate_heap (heap : Heap) (entries : List (ℕ × DeploymentInfoMessage)) :
    (applyRoutingUpdate heap entries).1 =
      heap ++ entries.map (fun e => DeploymentHandle.ofInfo e.2) := by
  induction entries using List.reverseRecOn with
  | nil => simp [applyRoutingUpdate]
  | append_singleton entries e ih =>
    simp only [applyRoutingUpdate, List.foldl_append, List.foldl_cons, List.foldl_nil,
      insertDeployment, List.map_append, List.map_singleton] at ih ⊢
    rw [ih, List.append_assoc]

theorem lastNamed_snoc {entries : List (ℕ × DeploymentInfoMessage)}
    {e : ℕ × DeploymentInfoMessage} {name : String} {j : ℕ} {info : DeploymentInfoMessage} :
    LastNamed (entries ++ [e]) name j info ↔
      if e.2.deploymentName = name then j = entries.length ∧ info = e.2
      else LastNamed entries name j info := by
  split
  next hn =>
    constructor
    · rintro ⟨⟨id, hj⟩, -, hlast⟩
      have hle := hlast entries.length e (getElem?_snoc.mpr (Or.inr ⟨rfl, rfl⟩)) hn
      rcases getElem?_snoc.mp hj with hj | ⟨rfl, rfl⟩
      · exact absurd (List.getElem?_eq_some_iff.mp hj).1 hle.not_gt
      · exact ⟨rfl, rfl⟩
    · rintro ⟨rfl, rfl⟩
      refine ⟨⟨e.1, getElem?_snoc.mpr (Or.inr ⟨rfl, rfl⟩)⟩, hn, fun k d hk _ => ?_⟩
      have hlt := (List.getElem?_eq_some_iff.mp hk).1
      rw [List.length_append, List.length_singleton] at hlt
      omega
  next hn =>
    constructor
    · rintro ⟨⟨id, hj⟩, hname, hlast⟩
      rcases getElem?_snoc.mp hj with hj | ⟨rfl, rfl⟩
      · exact ⟨⟨id, hj⟩, hname, fun k d hk => hlast k d (getElem?_snoc.mpr (Or.inl hk))⟩
      · exact absurd hname hn
    · rintro ⟨⟨id, hj⟩, hname, hlast⟩
      refine ⟨⟨id, getElem?_snoc.mpr (Or.inl hj)⟩, hname, fun k d hk hd => ?_⟩
      rcases getElem?_snoc.mp hk with hk | ⟨rfl, rfl⟩
      · exact hlast k d hk hd
      · exact absurd hd hn

/-- The table holds, for each name, the handle of the last entry with it. -/
theorem applyRoutingUpdate_get (heap : Heap) (entries : List (ℕ × DeploymentInfoMessage))
    (name : String) (h : ℕ) :
    (applyRoutingUpdate heap entries).2.get name = some h ↔
      ∃ j info, LastNamed entries name j info ∧ h = heap.length+j := by
  induction entries using List.reverseRecOn with
  | nil => simp [applyRoutingUpdate, LastNamed]
  | append_singleton entries e ih =>
    have hheap := congrArg List.length (applyRoutingUpdate_heap heap entries)
    simp only [applyRoutingUpdate, List.foldl_append, List.foldl_cons, List.foldl_nil] at ih hheap ⊢
    rw [insertDeployment, Dict.get_set]
    simp only [lastNamed_snoc]
    by_cases hn : name = e.2.deploymentName
    · simp [hn, hheap, eq_comm]
    · simp [hn, Ne.symm hn, ih]

theorem mem_applyRoutingUpdate_keys (heap : Heap) (entries : List (ℕ × DeploymentInfoMessage))
    (name : String) : name ∈ (applyRoutingUpdate heap entries).2.keys ↔
      ∃ e ∈ entries, e.2.deploymentName = name := by
  induction entries using List.reverseRecOn with
  | nil => simp [applyRoutingUpdate, Dict.empty, Dict.keys]
  | append_singleton entries e ih =>
    simp only [applyRoutingUpdate, List.foldl_append, List.foldl_cons, List.foldl_nil] at ih ⊢
    rw [insertDeployment, Dict.mem_keys_set, ih]
    simp only [List.mem_append, List.mem_singleton, or_and_right, exists_or, exists_eq_left]
    rw [or_comm, eq_comm]

end ServingSystem.Proxy
