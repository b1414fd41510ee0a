import ServingSystem.Dict
import ServingSystem.GenerateStream

/-!
# The model configurations and their file

`ModelConfigManager`: configurations in memory by endpoint, saved to a file
after each change and loaded from it by the next manager. A file is opened
with its contents cut off, and writing it may raise at any point after that.
-/

set_option autoImplicit false

namespace ServingSystem.ModelConfigs

structure ModelConfig where
  modelId : String
  deploymentName : String
  endpoint : String
  maxLength : ℤ
  temperature : ℚ
  topP : ℚ
  device : String
  deriving DecidableEq, Repr

def config (modelId deploymentName endpoint : String) (maxLength : ℤ) (temperature : ℚ) :
    ModelConfig := ⟨modelId, deploymentName, endpoint, maxLength, temperature, 9/10, "auto"⟩

abbrev Configs := Dict String ModelConfig

def modelConfigs : Configs :=
  ⟨[("/v1/chat/gpt2", config "gpt2" "gpt2-small" "/v1/chat/gpt2" 256 (7/10)),
    ("/v1/chat/llama2", config "meta-llama/Llama-2-7b-chat-hf" "llama2-7b-chat"
      "/v1/chat/llama2" 512 (8/10)),
    ("/v1/chat/mistral", config "mistralai/Mistral-7B-Instruct-v0.1" "mistral-7b-instruct"
      "/v1/chat/mistral" 512 (7/10)),
    ("/v1/code/codellama", config "codellama/CodeLlama-7b-Python-hf" "codellama-7b-python"
      "/v1/code/codellama" 1024 (2/10)),
    ("/v1/chat/phi2", config "microsoft/phi-2" "phi2" "/v1/chat/phi2" 512 (7/10)),
    ("/v1/chat/tinyllama", config "TinyLlama/TinyLlama-1.1B-Chat-v1.0" "tinyllama-1.1b-instruct"
      "/v1/chat/tinyllama" 512 (7/10))], by decide⟩

theorem modelConfigs_endpoint : modelConfigs.entries.all (fun e => e.1 = e.2.endpoint) = true := by
  decide

/-- The replicas read the model ids of the same table. -/
theorem modelConfigs_modelId : modelConfigs.entries.map (fun e => (e.1, e.2.modelId)) =
    ReplicaManager.modelConfigs := by
  decide

/-- A file is missing, loads as some configurations, or cannot be loaded. -/
inductive File where
  | missing
  | holds (configs : Configs)
  | unreadable

/-- How the writing of an open file ends; it may raise after all of the text
or, with a part of it missing, before. -/
inductive Write where
  | completes
  | raises (whole : Bool)
  deriving DecidableEq, Repr

def written (configs : Configs) : Write → File
  | .completes => .holds configs
  | .raises true => .holds configs
  | .raises false => .unreadable

structure Manager where
  configs : Configs
  file : File

def saveConfigs (w : Write) (m : Manager) : Manager := { m with file := written m.configs w }

def loadConfigs (w : Write) : File → Manager
  | .missing => saveConfigs w ⟨modelConfigs, .missing⟩
  | .holds configs => ⟨configs, .holds configs⟩
  | .unreadable => ⟨modelConfigs, .unreadable⟩

def addModelConfig (endpoint : String) (config : ModelConfig) (w : Write) (m : Manager) : Manager :=
  saveConfigs w { m with configs := m.configs.set endpoint config }

def removeModelConfig (endpoint : String) (w : Write) (m : Manager) : Bool × Manager :=
  if endpoint ∈ m.configs.keys then
    (true, saveConfigs w { m with configs := m.configs.erase endpoint })
  else (false, m)

inductive Op where
  | add (endpoint : String) (config : ModelConfig)
  | remove (endpoint : String)
  deriving DecidableEq, Repr

abbrev Call := Op × Write

def step (m : Manager) : Call → Manager
  | (.add endpoint config, w) => addModelConfig endpoint config w m
  | (.remove endpoint, w) => (removeModelConfig endpoint w m).2

def run (m : Manager) (calls : List Call) : Manager := calls.foldl step m

def Op.edit (c : Configs) : Op → Configs
  | .add endpoint config => c.set endpoint config
  | .remove endpoint => c.erase endpoint

def Op.saves (c : Configs) : Op → Bool
  | .add _ _ => true
  | .remove endpoint => endpoint ∈ c.keys

def edited (c : Configs) (calls : List Call) : Configs :=
  calls.foldl (fun c call => call.1.edit c) c

def writes (c : Configs) : List Call → List Write
  | [] => []
  | call::rest => (if call.1.saves c then [call.2] else []) ++ writes (call.1.edit c) rest

def lastSaved (c saved : Configs) : List Call → Configs
  | [] => saved
  | call::rest =>
    lastSaved (call.1.edit c)
      (if call.1.saves c ∧ call.2 = .completes then call.1.edit c else saved) rest

def initial : File → Configs
  | .missing => modelConfigs
  | .holds configs => configs
  | .unreadable => modelConfigs

def Same (c d : Configs) : Prop := ∀ endpoint, c.get endpoint = d.get endpoint

/-- A manager made from the file that a run leaves has the configurations in
memory at its end, or those of the last save that completed. -/
def Survive (file : File) (first next : Write) (calls : List Call) : Prop :=
  let m := loadConfigs first file
  let reloaded := loadConfigs next (run m calls).file
  Same reloaded.configs (run m calls).configs ∨
    Same reloaded.configs (lastSaved m.configs m.configs calls)

def CutShort (file : File) (calls : List Call) : Prop :=
  (writes (initial file) calls).getLast? = some (.raises false)

theorem loadConfigs_configs (w : Write) (file : File) :
    (loadConfigs w file).configs = initial file := by
  cases file <;> rfl

theorem initial_loadConfigs (w : Write) (file : File) :
    initial (loadConfigs w file).file = initial file := by
  cases file with
  | missing =>
    cases w with
    | completes => rfl
    | raises whole => cases whole <;> rfl
  | holds configs => rfl
  | unreadable => rfl

theorem step_cases (m : Manager) (call : Call) :
    (step m call).configs = call.1.edit m.configs ∧
      ((call.1.saves m.configs = true ∧
          (step m call).file = written (call.1.edit m.configs) call.2) ∨
        (call.1.saves m.configs = false ∧ step m call = m)) := by
  obtain ⟨op, w⟩ := call
  cases op with
  | add endpoint config => exact ⟨rfl, Or.inl ⟨rfl, rfl⟩⟩
  | remove endpoint =>
    by_cases h : endpoint ∈ m.configs.keys
    · simp only [step, removeModelConfig, if_pos h]
      exact ⟨rfl, Or.inl ⟨decide_eq_true h, rfl⟩⟩
    · simp only [step, removeModelConfig, if_neg h]
      exact ⟨(Dict.erase_absent (Dict.get_eq_none.mpr h)).symm, Or.inr ⟨decide_eq_false h, trivial⟩⟩

theorem run_configs (m : Manager) (calls : List Call) :
    (run m calls).configs = edited m.configs calls := by
  induction calls generalizing m with
  | nil => rfl
  | cons call rest ih =>
    have hrun := ih (step m call)
    rw [(step_cases m call).1] at hrun
    exact hrun

/-- The file holds what the last write left of the configurations at the end;
without a write nothing has changed. -/
theorem run_file (m : Manager) (calls : List Call) :
    ((writes m.configs calls).getLast? = none ∧ run m calls = m) ∨
      ∃ w, (writes m.configs calls).getLast? = some w ∧
        (run m calls).file = written (run m calls).configs w := by
  induction calls generalizing m with
  | nil => exact Or.inl ⟨rfl, rfl⟩
  | cons call rest ih =>
    obtain ⟨hconfigs, hstep⟩ := step_cases m call
    have hrun : run m (call::rest) = run (step m call) rest := rfl
    have hrest := ih (step m call)
    rw [hconfigs] at hrest
    rw [hrun, writes, List.getLast?_append]
    rcases hrest with ⟨hlast, hsame⟩ | ⟨w, hlast, hfile⟩
    · rw [hlast, hsame]
      rcases hstep with ⟨hs, hfile⟩ | ⟨hs, hkeep⟩
      · exact Or.inr ⟨call.2, by simp [hs], by rw [hconfigs]; exact hfile⟩
      · exact Or.inl ⟨by simp [hs], hkeep⟩
    · exact Or.inr ⟨w, by simp [hlast], hfile⟩

theorem same_refl (c : Configs) : Same c c := fun _ => rfl

/-- The configurations survive exactly when the last write is not cut short,
or the built-in ones are what was to survive. -/
theorem configs_survive_iff (file : File) (first next : Write) (calls : List Call) :
    Survive file first next calls ↔ ¬ CutShort file calls ∨
      Same modelConfigs (edited (initial file) calls) ∨
      Same modelConfigs (lastSaved (initial file) (initial file) calls) := by
  have hsurvive : Survive file first next calls ↔
      Same (initial (run (loadConfigs first file) calls).file) (edited (initial file) calls) ∨
        Same (initial (run (loadConfigs first file) calls).file)
          (lastSaved (initial file) (initial file) calls) := by
    simp only [Survive, loadConfigs_configs, run_configs]
  have hrun := run_file (loadConfigs first file) calls
  have hconfigs := run_configs (loadConfigs first file) calls
  rw [loadConfigs_configs] at hrun hconfigs
  rw [hsurvive, CutShort]
  rcases hrun with ⟨hlast, hsame⟩ | ⟨w, hlast, hfile⟩
  · have hkept : initial (run (loadConfigs first file) calls).file =
        edited (initial file) calls := by
      rw [← hconfigs, hsame, initial_loadConfigs, loadConfigs_configs]
    rw [hlast, hkept]
    exact iff_of_true (Or.inl (same_refl _)) (Or.inl (by simp))
  · rw [hlast, hfile, hconfigs]
    cases w with
    | completes => exact iff_of_true (Or.inl (same_refl _)) (Or.inl (by simp))
    | raises whole =>
      cases whole with
      | true => exact iff_of_true (Or.inl (same_refl _)) (Or.inl (by simp))
      | false =>
        show Same modelConfigs _ ∨ Same modelConfigs _ ↔ _
        simp

/-- A second model is added, and its write raises half way: the next manager
has the defaults and neither of the two. -/
theorem cut_short_forgets :
    let calls : List Call :=
      [(.add "/v1/chat/opt" (config "facebook/opt-125m" "opt" "/v1/chat/opt" 128 (7/10)),
          .completes),
        (.add "/v1/chat/qwen" (config "Qwen/Qwen2-0.5B" "qwen" "/v1/chat/qwen" 256 (7/10)),
          .raises false)]
    let reloaded := loadConfigs .completes (run (loadConfigs .completes .missing) calls).file
    ¬ Survive .missing .completes .completes calls ∧ reloaded.configs = modelConfigs ∧
      reloaded.configs.get "/v1/chat/opt" = none := by
  intro calls reloaded
  have hreloaded : reloaded.configs = modelConfigs := rfl
  have hnone : reloaded.configs.get "/v1/chat/opt" = none := by decide
  refine ⟨?_, hreloaded, hnone⟩
  rintro (hsame | hsame)
  · exact absurd (hnone.symm.trans (hsame "/v1/chat/opt")) (by decide)
  · exact absurd (hnone.symm.trans (hsame "/v1/chat/opt")) (by decide)

end ServingSystem.ModelConfigs
