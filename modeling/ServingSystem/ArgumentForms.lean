import ServingSystem.CommandLine
import Mathlib.Data.List.Induction

/-!
# The two forms of an argument

`parse_args` and its helper `get_arg` over the indices of `argv`, on command
lines that write each flag and its value as two arguments or as one with an
equals sign.
-/

set_option autoImplicit false

namespace ServingSystem.ArgumentForms
open CommandLine

inductive Flag where
  | replicaId
  | parentPort
  | port
  | deploymentName
  | deploymentId
  | numCpus
  | numGpus
  | metricsPort
  deriving DecidableEq, Repr

def Flag.text : Flag → String
  | .replicaId => "--replica_id"
  | .parentPort => "--parent_port"
  | .port => "--port"
  | .deploymentName => "--deployment_name"
  | .deploymentId => "--deployment_id"
  | .numCpus => "--num_cpus"
  | .numGpus => "--num_gpus"
  | .metricsPort => "--metrics_port"

def Flag.ofArg : String → Option Flag
  | "--replica_id" => some .replicaId
  | "--parent_port" => some .parentPort
  | "--port" => some .port
  | "--deployment_name" => some .deploymentName
  | "--deployment_id" => some .deploymentId
  | "--num_cpus" => some .numCpus
  | "--num_gpus" => some .numGpus
  | "--metrics_port" => some .metricsPort
  | _ => none

def get (args : Args) : Flag → String
  | .replicaId => args.replicaId
  | .parentPort => args.parentPort
  | .port => args.port
  | .deploymentName => args.deploymentName
  | .deploymentId => args.deploymentId
  | .numCpus => args.numCpus
  | .numGpus => args.numGpus
  | .metricsPort => args.metricsPort

def set (args : Args) (flag : Flag) (value : String) : Args :=
  match flag with
  | .replicaId => { args with replicaId := value }
  | .parentPort => { args with parentPort := value }
  | .port => { args with port := value }
  | .deploymentName => { args with deploymentName := value }
  | .deploymentId => { args with deploymentId := value }
  | .numCpus => { args with numCpus := value }
  | .numGpus => { args with numGpus := value }
  | .metricsPort => { args with metricsPort := value }

def afterEquals (arg : String) : Option String :=
  match arg.toList.dropWhile (fun c => c ≠ '=') with
  | [] => none
  | _::rest => some (String.ofList rest)

/-- The value and the index `get_arg` leaves behind; `none` where it reads
past the last argument. -/
def getArg (argv : List String) (i : ℕ) : Option (String × ℕ) :=
  match argv[i]? with
  | none => none
  | some arg =>
    match afterEquals arg with
    | some value => some (value, i)
    | none => argv[i+1]?.map (fun value => (value, i+1))

theorem getArg_index {argv : List String} {i j : ℕ} {value : String}
    (h : getArg argv i = some (value, j)) : i ≤ j := by
  unfold getArg at h
  split at h
  · cases h
  split at h
  · cases h
    exact le_refl i
  · obtain ⟨v, -, hv⟩ := Option.map_eq_some_iff.mp h
    cases hv
    exact Nat.le_succ i

def parseFrom (argv : List String) (i : ℕ) (args : Args) : Option Args :=
  if hi : i < argv.length then
    match Flag.ofArg argv[i] with
    | none => parseFrom argv (i+1) args
    | some flag =>
      match hget : getArg argv i with
      | none => none
      | some (value, j) =>
        have : i ≤ j := getArg_index hget
        parseFrom argv (j+1) (set args flag value)
  else some args
termination_by argv.length-i

def hasRequired (args : Args) : Bool :=
  args.replicaId ≠ "" && args.port ≠ "" && args.metricsPort ≠ ""

def parseArgs (argv : List String) : Option (Bool × Args) :=
  (parseFrom argv 1 Args.empty).map (fun args => (hasRequired args, args))

inductive Form where
  | twoArguments
  | equals
  deriving DecidableEq, Repr

structure Pair where
  flag : Flag
  value : String
  form : Form
  deriving DecidableEq, Repr

def Pair.args (p : Pair) : List String :=
  match p.form with
  | .twoArguments => [p.flag.text, p.value]
  | .equals => [p.flag.text ++ "=" ++ p.value]

def commandLine (program : String) (pairs : List Pair) : List String :=
  program::pairs.flatMap Pair.args

def lastOccurrence (pairs : List Pair) (flag : Flag) : Option Pair :=
  (pairs.filter (fun p => p.flag = flag)).getLast?

def lastValue (pairs : List Pair) (flag : Flag) : String :=
  ((lastOccurrence pairs flag).map Pair.value).getD ""

def spaced (pairs : List Pair) : List Pair := pairs.filter (fun p => p.form = .twoArguments)

/-- The command line is read within its bounds, each variable gets the value
of the last occurrence of its flag, and the result says whether the required
ones are there. -/
def ReadsPairs (program : String) (pairs : List Pair) : Prop :=
  ∃ ok args, parseArgs (commandLine program pairs) = some (ok, args) ∧
    (∀ flag, get args flag = lastValue pairs flag) ∧
    (ok = true ↔ lastValue pairs .replicaId ≠ "" ∧ lastValue pairs .port ≠ "" ∧
      lastValue pairs .metricsPort ≠ "")

/-- Where the last occurrence of a flag is written with an equals sign, its
value is the one of the last occurrence written as two arguments, or empty
when there is none. -/
def EqualsRedundant (pairs : List Pair) : Prop :=
  ∀ flag p, lastOccurrence pairs flag = some p → p.form = .equals →
    p.value = lastValue (spaced pairs) flag

theorem ofArg_text (flag : Flag) : Flag.ofArg flag.text = some flag := by
  cases flag <;> rfl

theorem text_no_equals (flag : Flag) : '=' ∉ flag.text.toList := by
  cases flag <;> decide

theorem ofArg_some {arg : String} {flag : Flag} (h : Flag.ofArg arg = some flag) :
    arg = flag.text := by
  unfold Flag.ofArg at h
  split at h <;> cases h <;> rfl

/-- No flag is recognised in an argument with an equals sign. -/
theorem ofArg_equals (flag : Flag) (value : String) :
    Flag.ofArg (flag.text ++ "=" ++ value) = none := by
  cases h : Flag.ofArg (flag.text ++ "=" ++ value) with
  | none => rfl
  | some other =>
    have hmem : '=' ∈ other.text.toList := by
      rw [← ofArg_some h]
      simp [String.toList_append]
    exact absurd hmem (text_no_equals other)

theorem afterEquals_text (flag : Flag) : afterEquals flag.text = none := by
  cases flag <;> rfl

@[simp] theorem get_set (args : Args) (flag other : Flag) (value : String) :
    get (set args flag value) other = if flag = other then value else get args other := by
  cases flag <;> cases other <;> rfl

section
variable {argv : List String} {i : ℕ}

theorem parseFrom_end (h : argv[i]? = none) (args : Args) : parseFrom argv i args = some args := by
  rw [parseFrom, dif_neg (Nat.not_lt_of_le (List.getElem?_eq_none_iff.mp h))]

theorem parseFrom_other {arg : String} (h : argv[i]? = some arg) (ho : Flag.ofArg arg = none)
    (args : Args) : parseFrom argv i args = parseFrom argv (i+1) args := by
  obtain ⟨hi, rfl⟩ := List.getElem?_eq_some_iff.mp h
  rw [parseFrom, dif_pos hi]
  simp only [ho]

theorem parseFrom_flag {flag : Flag} (h : argv[i]? = some flag.text) (args : Args) :
    parseFrom argv i args =
      argv[i+1]?.bind (fun value => parseFrom argv (i+2) (set args flag value)) := by
  have hget : getArg argv i = argv[i+1]?.map (fun value => (value, i+1)) := by
    simp only [getArg, h, afterEquals_text]
  obtain ⟨hi, hflag⟩ := List.getElem?_eq_some_iff.mp h
  rw [parseFrom, dif_pos hi]
  simp only [hflag, ofArg_text]
  cases hv : argv[i+1]? with
  | none =>
    rw [hv, Option.map_none] at hget
    split
    next => rfl
    next hsome => cases hget.symm.trans hsome
  | some value =>
    rw [hv, Option.map_some] at hget
    split
    next hnone => cases hget.symm.trans hnone
    next v j hsome =>
      cases hget.symm.trans hsome
      rfl

end

theorem assign_eq (args : Args) (value arg : String) :
    args.assign value arg = (Flag.ofArg arg).map (fun flag => set args flag value) := by
  unfold Args.assign Flag.ofArg
  split <;> simp_all [set]

theorem drop_cons {argv rest : List String} {i : ℕ} {arg : String}
    (h : argv.drop i = arg::rest) : argv[i]? = some arg ∧ argv.drop (i+1) = rest := by
  constructor
  · rw [← Nat.add_zero i, ← List.getElem?_drop, h]
    rfl
  · rw [← List.drop_drop, h]
    rfl

theorem parseFrom_readArgs (argv : List String) (i : ℕ) (args : Args) :
    parseFrom argv i args = readArgs (argv.drop i) args := by
  generalize hl : argv.drop i = l
  induction l, args using readArgs.induct generalizing i with
  | case1 args => exact parseFrom_end (List.getElem?_eq_none (List.drop_eq_nil_iff.mp hl)) args
  | case2 arg args ha =>
    obtain ⟨hat, hnext⟩ := drop_cons hl
    rw [assign_eq, Option.map_eq_none_iff] at ha
    rw [parseFrom_other hat ha,
      parseFrom_end (List.getElem?_eq_none (List.drop_eq_nil_iff.mp hnext))]
    simp only [readArgs, assign_eq, ha, Option.map_none]
  | case3 arg args args' ha =>
    obtain ⟨hat, hnext⟩ := drop_cons hl
    rw [assign_eq] at ha
    obtain ⟨flag, hf, -⟩ := Option.map_eq_some_iff.mp ha
    obtain rfl := ofArg_some hf
    rw [parseFrom_flag hat, List.getElem?_eq_none (List.drop_eq_nil_iff.mp hnext)]
    simp only [readArgs, assign_eq, hf, Option.map_some, Option.bind_none]
  | case4 arg value rest args ha ih =>
    obtain ⟨hat, hnext⟩ := drop_cons hl
    rw [assign_eq, Option.map_eq_none_iff] at ha
    rw [parseFrom_other hat ha, ih (i+1) hnext]
    simp only [readArgs, assign_eq, ha, Option.map_none]
  | case5 arg value rest args args' ha ih =>
    obtain ⟨hat, hnext⟩ := drop_cons hl
    obtain ⟨hvalue, hrest⟩ := drop_cons hnext
    rw [assign_eq] at ha
    obtain ⟨flag, hf, rfl⟩ := Option.map_eq_some_iff.mp ha
    obtain rfl := ofArg_some hf
    rw [parseFrom_flag hat, hvalue, Option.bind_some, ih (i+2) hrest]
    simp only [readArgs, assign_eq, hf, Option.map_some]

theorem parseArgs_accepts (argv : List String) : CommandLine.parseArgs argv =
    ((parseArgs argv).filter Prod.fst).map Prod.snd := by
  rw [CommandLine.parseArgs, parseArgs, parseFrom_readArgs, List.drop_one]
  cases readArgs argv.tail Args.empty with
  | none => rfl
  | some args =>
    have hb : decide (args.replicaId ≠ "" ∧ args.port ≠ "" ∧ args.metricsPort ≠ "") =
        hasRequired args := by
      simp [hasRequired, Bool.and_assoc]
    rw [Option.map_some, Option.filter_some, Option.filter_some, hb]
    cases hasRequired args <;> rfl

/-- A pair written as two arguments is read; one with an equals sign is
passed over. -/
theorem parseFrom_pair (p : Pair) (read rest : List String) (args : Args) :
    parseFrom (read ++ (p.args ++ rest)) read.length args =
      parseFrom ((read ++ p.args) ++ rest) (read ++ p.args).length
        (if p.form = .twoArguments then set args p.flag p.value else args) := by
  obtain ⟨flag, value, form⟩ := p
  rw [← List.append_assoc]
  cases form with
  | twoArguments =>
    have hfirst : (read ++ [flag.text, value] ++ rest)[read.length]? = some flag.text := by simp
    have hsecond : (read ++ [flag.text, value] ++ rest)[read.length+1]? = some value := by simp
    show parseFrom (read ++ [flag.text, value] ++ rest) read.length args = _
    rw [parseFrom_flag hfirst, hsecond, Option.bind_some]
    simp [Pair.args]
  | equals =>
    have hfirst : (read ++ [flag.text ++ "=" ++ value] ++ rest)[read.length]? =
      some (flag.text ++ "=" ++ value) := by simp
    show parseFrom (read ++ [flag.text ++ "=" ++ value] ++ rest) read.length args = _
    rw [parseFrom_other hfirst (ofArg_equals flag value)]
    simp [Pair.args]

def assignAll (pairs : List Pair) (args : Args) : Args :=
  pairs.foldl (fun args p => set args p.flag p.value) args

theorem parseFrom_pairs (pairs : List Pair) (read : List String) (args : Args) :
    parseFrom (read ++ pairs.flatMap Pair.args) read.length args =
      some (assignAll (spaced pairs) args) := by
  induction pairs generalizing read args with
  | nil => exact parseFrom_end (by simp) args
  | cons p pairs ih =>
    rw [List.flatMap_cons, parseFrom_pair, ih, assignAll, assignAll, spaced, spaced,
      List.filter_cons]
    by_cases hf : p.form = .twoArguments
    · simp [hf]
    · simp [hf]

theorem parseArgs_pairs (program : String) (pairs : List Pair) :
    parseArgs (commandLine program pairs) =
      some (hasRequired (assignAll (spaced pairs) Args.empty),
        assignAll (spaced pairs) Args.empty) :=
  congrArg (Option.map (fun args => (hasRequired args, args)))
    (parseFrom_pairs pairs [program] Args.empty)

theorem lastOccurrence_concat (pairs : List Pair) (p : Pair) (flag : Flag) :
    lastOccurrence (pairs ++ [p]) flag =
      if p.flag = flag then some p else lastOccurrence pairs flag := by
  rw [lastOccurrence, List.filter_append]
  by_cases h : p.flag = flag
  · simp [h]
  · simp [h, lastOccurrence]

theorem get_assignAll (pairs : List Pair) (flag : Flag) :
    get (assignAll pairs Args.empty) flag = lastValue pairs flag := by
  induction pairs using List.reverseRecOn with
  | nil => cases flag <;> rfl
  | append_singleton pairs p ih =>
    rw [assignAll, List.foldl_append, List.foldl_cons, List.foldl_nil, get_set, ← assignAll, ih,
      lastValue, lastValue, lastOccurrence_concat]
    split <;> rfl

/-- A value can only differ where the last occurrence has an equals sign. -/
theorem lastValue_spaced (pairs : List Pair) (flag : Flag)
    (h : ∀ p, lastOccurrence pairs flag = some p → p.form = .twoArguments) :
    lastValue (spaced pairs) flag = lastValue pairs flag := by
  induction pairs using List.reverseRecOn with
  | nil => rfl
  | append_singleton pairs p ih =>
    rw [lastOccurrence_concat] at h
    by_cases hp : p.flag = flag
    · have hform : p.form = .twoArguments := h p (if_pos hp)
      have hkept : spaced (pairs ++ [p]) = spaced pairs ++ [p] := by
        simp [spaced, hform]
      rw [hkept, lastValue, lastValue, lastOccurrence_concat, lastOccurrence_concat, if_pos hp,
        if_pos hp]
    · rw [if_neg hp] at h
      have hsame : lastOccurrence (spaced (pairs ++ [p])) flag =
          lastOccurrence (spaced pairs) flag := by
        by_cases hform : p.form = .twoArguments
        · have hkept : spaced (pairs ++ [p]) = spaced pairs ++ [p] := by
            simp [spaced, hform]
          rw [hkept, lastOccurrence_concat, if_neg hp]
        · simp [spaced, hform]
      rw [lastValue, hsame, lastValue, lastOccurrence_concat, if_neg hp]
      exact ih h

theorem equalsRedundant_iff (pairs : List Pair) : EqualsRedundant pairs ↔
    ∀ flag, lastValue (spaced pairs) flag = lastValue pairs flag := by
  constructor
  · intro h flag
    cases hlast : lastOccurrence pairs flag with
    | none => exact lastValue_spaced pairs flag (by simp [hlast])
    | some p =>
      cases hform : p.form with
      | twoArguments =>
        refine lastValue_spaced pairs flag (fun q hq => ?_)
        cases hlast.symm.trans hq
        exact hform
      | equals =>
        rw [← h flag p hlast hform, lastValue, hlast]
        rfl
  · intro h flag p hlast _
    rw [h flag, lastValue, hlast]
    rfl

def launchPairs (l : Launch) (nodePort : ℕ) : List Pair :=
  [⟨.port, l.replicaPort, .twoArguments⟩, ⟨.replicaId, toString l.replicaId, .twoArguments⟩,
    ⟨.parentPort, toString nodePort, .twoArguments⟩,
    ⟨.deploymentName, l.deploymentName, .twoArguments⟩,
    ⟨.deploymentId, l.deploymentId, .twoArguments⟩,
    ⟨.metricsPort, toString (9000+l.replicaId), .twoArguments⟩,
    ⟨.numCpus, "1", .twoArguments⟩, ⟨.numGpus, "1", .twoArguments⟩]

theorem cmd_eq (l : Launch) (nodePort : ℕ) :
    l.cmd nodePort = commandLine "/usr/local/bin/replica_server" (launchPairs l nodePort) := rfl

theorem readsPairs_iff (program : String) (pairs : List Pair) : ReadsPairs program pairs ↔
    ∀ flag, lastValue (spaced pairs) flag = lastValue pairs flag := by
  constructor
  · rintro ⟨ok, args, hparse, hget, -⟩ flag
    rw [parseArgs_pairs] at hparse
    obtain ⟨-, rfl⟩ := Prod.mk.inj (Option.some.inj hparse)
    rw [← get_assignAll, hget]
  · intro h
    have hall : ∀ flag, get (assignAll (spaced pairs) Args.empty) flag = lastValue pairs flag :=
      fun flag => (get_assignAll _ _).trans (h flag)
    refine ⟨_, _, parseArgs_pairs program pairs, hall, ?_⟩
    rw [← hall, ← hall, ← hall]
    simp [hasRequired, get, and_assoc]

/-- Command lines are read as written exactly when their pairs with an equals
sign change nothing; the one that starts a replica has none. -/
theorem arguments_read_iff (program : String) (pairs : List Pair) (l : Launch) (nodePort : ℕ) :
    (ReadsPairs program pairs ↔ EqualsRedundant pairs) ∧
      l.cmd nodePort = commandLine "/usr/local/bin/replica_server" (launchPairs l nodePort) ∧
      ReadsPairs "/usr/local/bin/replica_server" (launchPairs l nodePort) := by
  have hiff : ∀ program pairs, ReadsPairs program pairs ↔ EqualsRedundant pairs :=
    fun program pairs => (readsPairs_iff program pairs).trans (equalsRedundant_iff pairs).symm
  refine ⟨hiff program pairs, cmd_eq l nodePort, (hiff _ _).mpr ?_⟩
  intro flag p hlast hform
  have hspaced : ∀ q ∈ launchPairs l nodePort, q.form = .twoArguments := by
    simp [launchPairs]
  have hmem : p ∈ launchPairs l nodePort := (List.mem_filter.mp (List.mem_of_getLast? hlast)).1
  cases (hspaced p hmem).symm.trans hform

/-- `--port=50101` leaves the port empty, and the process refuses to start. -/
theorem equals_form_ignored :
    let pairs : List Pair := [⟨.replicaId, "1", .twoArguments⟩, ⟨.port, "50101", .equals⟩,
      ⟨.metricsPort, "9001", .twoArguments⟩]
    commandLine "replica_server" pairs =
        ["replica_server", "--replica_id", "1", "--port=50101", "--metrics_port", "9001"] ∧
      parseArgs (commandLine "replica_server" pairs) =
        some (false, ⟨"1", "", "", "", "", "", "", "9001"⟩) ∧
      ¬ ReadsPairs "replica_server" pairs := by
  intro pairs
  have hparse := parseArgs_pairs "replica_server" pairs
  refine ⟨rfl, hparse, fun h => ?_⟩
  have hport := (readsPairs_iff "replica_server" pairs).mp h .port
  exact absurd hport (by decide)

end ServingSystem.ArgumentForms
