import ServingSystem.PythonHandle
import ServingSystem.ReplicaKey

/-!
# The codec of replica keys

The key functions of the two managers on the arguments they get, ints on one
path and decimal strings on another, and the decoder of the Python handle.
-/

set_option autoImplicit false

namespace ServingSystem.KeyCodec
open Head PythonProxy

inductive KeyArg where
  | int (n : ℕ)
  | str (text : String)
  deriving DecidableEq, Repr

def KeyArg.format : KeyArg → String
  | .int n => toString n
  | .str text => text

def DeploymentManager.replicaId (workerId replicaNum : KeyArg) : String :=
  workerId.format ++ "#" ++ replicaNum.format

def AutoScaleManager.replicaId (workerId replicaNum : KeyArg) : String :=
  workerId.format ++ "#" ++ replicaNum.format

inductive Form where
  | int
  | decimal
  deriving DecidableEq, Repr

def Form.arg : Form → ℕ → KeyArg
  | .int, n => .int n
  | .decimal, n => .str (toString n)

@[simp] theorem format_arg (form : Form) (n : ℕ) : (form.arg n).format = toString n := by
  cases form <;> rfl

theorem deploymentManager_key (f g : Form) (w n : ℕ) :
    DeploymentManager.replicaId (f.arg w) (g.arg n) = replicaId w n := by
  simp [DeploymentManager.replicaId, replicaId]

theorem autoScaleManager_key (f g : Form) (w n : ℕ) :
    AutoScaleManager.replicaId (f.arg w) (g.arg n) = replicaId w n := by
  simp [AutoScaleManager.replicaId, replicaId]

/-- A text without the separator is cut off at the first one. -/
theorem parse_cut {a b : List Char} {key : String} (ha : '#' ∉ a) (h : key.toList = a ++ '#'::b) :
    DeploymentHandle.parseReplicaId key = some (String.ofList a, String.ofList b) := by
  have hall : ∀ c ∈ a, decide (c ≠ '#') = true := by
    intro c hc
    exact decide_eq_true (fun he => ha (he ▸ hc))
  have htake : key.toList.takeWhile (fun c => c ≠ '#') = a := by
    rw [h, List.takeWhile_append_of_pos hall]
    simp
  have hdrop : key.toList.dropWhile (fun c => c ≠ '#') = '#'::b := by
    rw [h, List.dropWhile_append_of_pos hall]
    simp
  simp only [DeploymentHandle.parseReplicaId, hdrop, htake]

theorem parse_replicaId (w n : ℕ) :
    DeploymentHandle.parseReplicaId (replicaId w n) = some (toString w, toString n) := by
  rw [parse_cut (digits_no_hash w) (replicaId_toList w n), String.ofList_toList,
    String.ofList_toList]

/-- The managers give one key to a worker and a replica, no two pairs share a
key, and the decoder returns the two numbers in decimal. -/
theorem keys_identify (w w' n n' : ℕ) (f g f' g' : Form) :
    DeploymentManager.replicaId (f.arg w) (g.arg n) =
      AutoScaleManager.replicaId (f'.arg w) (g'.arg n) ∧
    (DeploymentManager.replicaId (f.arg w) (g.arg n) =
      DeploymentManager.replicaId (f'.arg w') (g'.arg n') ↔ w = w' ∧ n = n') ∧
    (AutoScaleManager.replicaId (f.arg w) (g.arg n) =
      AutoScaleManager.replicaId (f'.arg w') (g'.arg n') ↔ w = w' ∧ n = n') ∧
    DeploymentHandle.parseReplicaId (DeploymentManager.replicaId (f.arg w) (g.arg n)) =
      some (toString w, toString n) := by
  rw [deploymentManager_key, deploymentManager_key, autoScaleManager_key, autoScaleManager_key,
    autoScaleManager_key, parse_replicaId]
  exact ⟨rfl, replicaId_inj, replicaId_inj, rfl⟩

end ServingSystem.KeyCodec
