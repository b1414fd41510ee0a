import ServingSystem.Scheduler
import ServingSystem.HttpMessage
import Mathlib.Data.List.TakeWhile

/-!
# The command line of a replica

What `StartReplicaCpp` starts and what `replica_server` reads back from it,
up to the ports that the process is told to bind.
-/

set_option autoImplicit false

namespace ServingSystem.CommandLine

structure Launch where
  replicaId : ℕ
  replicaPort : String
  deploymentName : String
  deploymentId : String
  deriving DecidableEq, Repr

def Launch.cmd (l : Launch) (nodePort : ℕ) : List String :=
  let metricsPort := 9000+l.replicaId
  ["/usr/local/bin/replica_server",
    "--port", l.replicaPort,
    "--replica_id", toString l.replicaId,
    "--parent_port", toString nodePort,
    "--deployment_name", l.deploymentName,
    "--deployment_id", l.deploymentId,
    "--metrics_port", toString metricsPort,
    "--num_cpus", "1",
    "--num_gpus", "1"]

def nodePort : ℕ := 50051

def started (p : Scheduler.Process) : Launch :=
  ⟨p.replicaId, p.port, p.deploymentName, toString p.deploymentId⟩

structure Args where
  replicaId : String
  parentPort : String
  port : String
  deploymentName : String
  deploymentId : String
  numCpus : String
  numGpus : String
  metricsPort : String
  deriving DecidableEq, Repr

def Args.empty : Args := ⟨"", "", "", "", "", "", "", ""⟩

def Args.assign (args : Args) (value : String) : String → Option Args
  | "--replica_id" => some { args with replicaId := value }
  | "--parent_port" => some { args with parentPort := value }
  | "--port" => some { args with port := value }
  | "--deployment_name" => some { args with deploymentName := value }
  | "--deployment_id" => some { args with deploymentId := value }
  | "--num_cpus" => some { args with numCpus := value }
  | "--num_gpus" => some { args with numGpus := value }
  | "--metrics_port" => some { args with metricsPort := value }
  | _ => none

/-- The loop of `parse_args`. A flag has no equals sign, so that `get_arg`
takes the next argument; a flag at the end has none. -/
def readArgs : List String → Args → Option Args
  | [], args => some args
  | [arg], args =>
    match args.assign "" arg with
    | none => some args
    | some _ => none
  | arg::value::rest, args =>
    match args.assign value arg with
    | none => readArgs (value::rest) args
    | some args => readArgs rest args

def parseArgs (argv : List String) : Option Args :=
  (readArgs argv.tail Args.empty).filter
    (fun args => args.replicaId ≠ "" ∧ args.port ≠ "" ∧ args.metricsPort ≠ "")

def isSpace (c : Char) : Bool := c = ' ' ∨ ('\t' ≤ c ∧ c ≤ '\r')

def leadingNumber (text : List Char) : Option ℕ :=
  match text.takeWhile Char.isDigit with
  | [] => none
  | digits => some (Nat.ofDigitChars 10 digits 0)

/-- `std::stoi`, with `none` where it throws. -/
def stoi (text : String) : Option ℤ :=
  let number : Option ℤ := match text.toList.dropWhile isSpace with
    | '-'::rest => (leadingNumber rest).map (fun n : ℕ => -(n : ℤ))
    | '+'::rest => (leadingNumber rest).map (fun n : ℕ => (n : ℤ))
    | rest => (leadingNumber rest).map (fun n : ℕ => (n : ℤ))
  number.filter (fun n => -2^31 ≤ n ∧ n < 2^31)

def tcpPort (port : ℤ) : Option ℕ := if 0 ≤ port ∧ port < 65536 then some port.toNat else none

/-- The ports that `main` binds: the metrics server of the Python module, the
gRPC server and the exposer. -/
def Args.ports (args : Args) : List ℕ :=
  match stoi args.metricsPort with
  | none => []
  | some metricsPort =>
    ([metricsPort] ++ (stoi args.port).toList ++ [metricsPort+1]).filterMap tcpPort

theorem toString_ne_empty (n : ℕ) : toString n ≠ "" := by
  intro h
  have hl := congrArg String.toList h
  rw [HttpMessage.toString_digits] at hl
  exact Nat.toDigits_ne_nil hl

/-- `replica_server` reads back what the scheduler wrote. -/
theorem parseArgs_cmd (l : Launch) (nodePort : ℕ) (hp : l.replicaPort ≠ "") :
    parseArgs (l.cmd nodePort) = some ⟨toString l.replicaId, toString nodePort, l.replicaPort,
      l.deploymentName, l.deploymentId, "1", "1", toString (9000+l.replicaId)⟩ := by
  have hread : readArgs (l.cmd nodePort).tail Args.empty = some ⟨toString l.replicaId,
      toString nodePort, l.replicaPort, l.deploymentName, l.deploymentId, "1", "1",
      toString (9000+l.replicaId)⟩ := rfl
  rw [parseArgs, hread, Option.filter_some, if_pos]
  exact decide_eq_true ⟨toString_ne_empty _, hp, toString_ne_empty _⟩

theorem isDigit_range {c : Char} (h : c.isDigit) : 48 ≤ c.toNat ∧ c.toNat ≤ 57 := by
  simpa [Char.isDigit, UInt32.le_iff_toNat_le] using h

theorem leadingNumber_digits {cs : List Char} (hne : cs ≠ []) (h : ∀ c ∈ cs, c.isDigit) :
    leadingNumber cs = some (Nat.ofDigitChars 10 cs 0) := by
  have hall : cs.takeWhile Char.isDigit = cs := List.takeWhile_eq_self_iff.mpr h
  obtain ⟨c, rest, rfl⟩ := List.exists_cons_of_ne_nil hne
  simp only [leadingNumber, hall]

theorem stoi_toString (n : ℕ) :
    stoi (toString n) = if n < 2^31 then some (n : ℤ) else none := by
  have hdigits : ∀ c ∈ Nat.toDigits 10 n, c.isDigit := HttpMessage.toDigits_isDigit
  obtain ⟨c, rest, hcs⟩ := List.exists_cons_of_ne_nil (Nat.toDigits_ne_nil : Nat.toDigits 10 n ≠ [])
  have hc : 48 ≤ c.toNat ∧ c.toNat ≤ 57 := isDigit_range (hdigits c (by simp [hcs]))
  have hspace : isSpace c = false := by
    have htab : ('\r' : Char).toNat = 13 := rfl
    simp only [isSpace, Char.le_def, UInt32.le_iff_toNat_le, decide_eq_false_iff_not]
    rintro (rfl | ⟨-, h⟩)
    · exact absurd hc.1 (by decide)
    · have h : c.toNat ≤ 13 := h
      omega
  have hlead := leadingNumber_digits (Nat.toDigits_ne_nil : Nat.toDigits 10 n ≠ []) hdigits
  rw [Nat.ofDigitChars_ten_toDigits, hcs] at hlead
  have hminus : c ≠ '-' := by
    rintro rfl
    exact absurd hc.1 (by decide)
  have hplus : c ≠ '+' := by
    rintro rfl
    exact absurd hc.1 (by decide)
  have hmatch : stoi (toString n) = (some (n : ℤ)).filter (fun n => -2^31 ≤ n ∧ n < 2^31) := by
    rw [stoi, HttpMessage.toString_digits, hcs, List.dropWhile_cons_of_neg (by simp [hspace])]
    split
    next heq => exact absurd (List.cons.inj heq).1 hminus
    next heq => exact absurd (List.cons.inj heq).1 hplus
    next => rw [hlead, Option.map_some]
  rw [hmatch]
  by_cases hn : n < 2^31
  · rw [if_pos hn, Option.filter_some, if_pos]
    exact decide_eq_true (by omega)
  · rw [if_neg hn, Option.filter_some, if_neg]
    rw [decide_eq_true_eq]
    omega

theorem tcpPort_cast {n port : ℕ} : tcpPort n = some port ↔ n < 65536 ∧ n = port := by
  unfold tcpPort
  split
  next h =>
    rw [Option.some.injEq, Int.toNat_natCast]
    omega
  next h =>
    simp only [reduceCtorEq, false_iff]
    omega

def Launch.ports (l : Launch) (nodePort : ℕ) : List ℕ :=
  ((parseArgs (l.cmd nodePort)).map Args.ports).getD []

/-- A replica on the port that `CreateReplica` gives it binds three ports, as
far as they are in range. -/
theorem mem_ports {l : Launch} {nodePort port : ℕ}
    (hp : l.replicaPort = toString (50100+l.replicaId)) : port ∈ l.ports nodePort ↔
      port < 65536 ∧ (port = 9000+l.replicaId ∨ port = 50100+l.replicaId ∨
        port = 9001+l.replicaId) := by
  rw [Launch.ports, parseArgs_cmd l nodePort (by rw [hp]; exact toString_ne_empty _),
    Option.map_some, Option.getD_some, Args.ports]
  simp only [hp, stoi_toString]
  by_cases h : 9000+l.replicaId < 2^31
  · have hnext : ((9000+l.replicaId : ℕ) : ℤ)+1 = ((9001+l.replicaId : ℕ) : ℤ) := by
      push_cast
      ring
    simp only [if_pos h, hnext]
    by_cases h' : 50100+l.replicaId < 2^31
    · simp only [if_pos h', Option.toList_some, List.mem_filterMap, List.mem_append,
        List.mem_singleton, or_and_right, exists_or, exists_eq_left, tcpPort_cast]
      omega
    · simp only [if_neg h', Option.toList_none, List.mem_filterMap, List.mem_append,
        List.mem_singleton, List.not_mem_nil, or_false, or_and_right, exists_or, exists_eq_left,
        tcpPort_cast]
      omega
  · simp only [if_neg h, List.not_mem_nil, false_iff]
    omega

end ServingSystem.CommandLine
