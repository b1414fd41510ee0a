import ServingSystem.ClusterRouting
import ServingSystem.GenerateStream

/-!
# A replica starts

`main` of `replica_server` from its command line to the request that
`RegisterReplicaWithScheduler` sends, with the engine and the metrics server
of the Python module as parameters. A process that gets so far registers
under the id, the port and the deployment that it was launched with.
-/

set_option autoImplicit false

namespace ServingSystem.ReplicaStartup
open CommandLine ReplicaManager

structure ReplicaStatus where
  state : String
  replicaId : ℕ
  pid : ℕ
  port : String
  deploymentId : ℕ
  deploymentName : String
  deriving DecidableEq, Repr

/-- How far `main` gets: it prints the usage, ends in an exception, or sends
its registration. -/
inductive Startup where
  | usage
  | threw
  | registers (request : ReplicaStatus) (manager : Manager)

/-- `std::stoul`, with `none` where it throws; a minus sign negates modulo
the width. -/
def stoul (text : String) : Option ℕ :=
  match text.toList.dropWhile isSpace with
  | '-'::rest => ((leadingNumber rest).filter (fun n => n < 2^64)).map (fun n => (2^64-n) % 2^64)
  | '+'::rest => (leadingNumber rest).filter (fun n => n < 2^64)
  | rest => (leadingNumber rest).filter (fun n => n < 2^64)

def registerReplicaWithScheduler (args : Args) (pid : ℕ) : Option ReplicaStatus :=
  (stoul args.replicaId).bind (fun replicaId => (stoul args.deploymentId).map (fun deploymentId =>
    ⟨"RUNNING", replicaId % 2^32, pid % 2^32, args.port, deploymentId % 2^32,
      args.deploymentName⟩))

section
variable (fromEngineArgs : String → Except Raised Engine)
  (startHttpServer : ℤ → Except Raised Unit) (pid : ℕ)

def serve (args : Args) : Option (ReplicaStatus × Manager) :=
  (stoi args.deploymentId).bind (fun deploymentId =>
    (stoi args.metricsPort).bind (fun metricsPort =>
      match create args.deploymentName deploymentId metricsPort fromEngineArgs
          (startHttpServer metricsPort) with
      | .error _ => none
      | .ok manager => (registerReplicaWithScheduler args pid).map (fun request =>
          (request, manager))))

def main (argv : List String) : Startup :=
  match parseArgs argv with
  | none => .usage
  | some args =>
    match serve fromEngineArgs startHttpServer pid args with
    | none => .threw
    | some (request, manager) => .registers request manager

end

theorem digit_no_space {c : Char} (h : c.isDigit) : isSpace c = false := by
  have hc := isDigit_range h
  have htab : ('\r' : Char).toNat = 13 := rfl
  simp only [isSpace, Char.le_def, UInt32.le_iff_toNat_le, decide_eq_false_iff_not]
  rintro (rfl | ⟨-, hle⟩)
  · exact absurd hc.1 (by decide)
  · have hle : c.toNat ≤ 13 := hle
    omega

theorem digit_no_sign {c : Char} (h : c.isDigit) : c ≠ '-' ∧ c ≠ '+' := by
  constructor <;> rintro rfl <;> exact absurd h (by decide)

theorem stoul_toString (n : ℕ) :
    stoul (toString n) = if n < 2^64 then some n else none := by
  have hdigits : ∀ c ∈ Nat.toDigits 10 n, c.isDigit := HttpMessage.toDigits_isDigit
  obtain ⟨c, rest, hcs⟩ := List.exists_cons_of_ne_nil (Nat.toDigits_ne_nil : Nat.toDigits 10 n ≠ [])
  have hc : c.isDigit := hdigits c (by simp [hcs])
  have hlead := leadingNumber_digits (Nat.toDigits_ne_nil : Nat.toDigits 10 n ≠ []) hdigits
  rw [Nat.ofDigitChars_ten_toDigits, hcs] at hlead
  have hmatch : stoul (toString n) = (some n).filter (fun n => n < 2^64) := by
    rw [stoul, HttpMessage.toString_digits, hcs,
      List.dropWhile_cons_of_neg (by simp [digit_no_space hc])]
    split
    next heq => exact absurd (List.cons.inj heq).1 (digit_no_sign hc).1
    next heq => exact absurd (List.cons.inj heq).1 (digit_no_sign hc).2
    next => rw [hlead]
  rw [hmatch, Option.filter_some]
  simp only [decide_eq_true_eq]

section
variable {fromEngineArgs : String → Except Raised Engine}
  {startHttpServer : ℤ → Except Raised Unit} {pid : ℕ}

/-- The number that `stoi` accepts and the casts keep. -/
theorem registered_fields {l : Launch} {d : ℕ} (hd : l.deploymentId = toString d) (hdlt : d < 2^31)
    (hid : 9000+l.replicaId < 2^31) (nodePort : ℕ) :
    registerReplicaWithScheduler ⟨toString l.replicaId, toString nodePort, l.replicaPort,
      l.deploymentName, l.deploymentId, "1", "1", toString (9000+l.replicaId)⟩ pid =
      some ⟨"RUNNING", l.replicaId, pid % 2^32, l.replicaPort, d, l.deploymentName⟩ := by
  have hid' : l.replicaId < 2^32 := by omega
  have hd' : d < 2^32 := by omega
  have hidlt : l.replicaId < 2^64 := by omega
  have hdlt' : d < 2^64 := by omega
  simp only [registerReplicaWithScheduler, hd, stoul_toString, if_pos hidlt, if_pos hdlt',
    Option.bind_some, Option.map_some, Nat.mod_eq_of_lt hid', Nat.mod_eq_of_lt hd']

theorem serve_launched {l : Launch} {d : ℕ} (hd : l.deploymentId = toString d) (nodePort : ℕ)
    {request : ReplicaStatus} {manager : Manager} :
    serve fromEngineArgs startHttpServer pid ⟨toString l.replicaId, toString nodePort,
        l.replicaPort, l.deploymentName, l.deploymentId, "1", "1", toString (9000+l.replicaId)⟩ =
        some (request, manager) ↔
      d < 2^31 ∧ 9000+l.replicaId < 2^31 ∧
        create l.deploymentName d (9000+l.replicaId : ℕ) fromEngineArgs
          (startHttpServer (9000+l.replicaId : ℕ)) = .ok manager ∧
        request = ⟨"RUNNING", l.replicaId, pid % 2^32, l.replicaPort, d, l.deploymentName⟩ := by
  simp only [serve, hd, stoi_toString]
  by_cases hdlt : d < 2^31
  · by_cases hid : 9000+l.replicaId < 2^31
    · rw [if_pos hdlt, if_pos hid, Option.bind_some, Option.bind_some, ← hd,
        registered_fields hd hdlt hid nodePort]
      cases hc : create l.deploymentName d (9000+l.replicaId : ℕ) fromEngineArgs
          (startHttpServer (9000+l.replicaId : ℕ)) with
      | error e => simp
      | ok m =>
        simp only [Option.map_some, Option.some.injEq, Prod.mk.injEq, Except.ok.injEq, hdlt, hid,
          true_and]
        exact ⟨fun h => ⟨h.2, h.1.symm⟩, fun h => ⟨h.2.symm, h.1⟩⟩
    · rw [if_pos hdlt, if_neg hid, Option.bind_some, Option.bind_none]
      exact ⟨(nomatch ·), fun h => absurd h.2.1 hid⟩
  · rw [if_neg hdlt, Option.bind_none]
    exact ⟨(nomatch ·), fun h => absurd h.1 hdlt⟩

/-- A process registers exactly as it was launched, or not at all. -/
theorem main_launched {l : Launch} {d : ℕ} (hd : l.deploymentId = toString d)
    (hp : l.replicaPort ≠ "") (nodePort : ℕ) {request : ReplicaStatus} {manager : Manager} :
    main fromEngineArgs startHttpServer pid (l.cmd nodePort) = .registers request manager ↔
      d < 2^31 ∧ 9000+l.replicaId < 2^31 ∧
        create l.deploymentName d (9000+l.replicaId : ℕ) fromEngineArgs
          (startHttpServer (9000+l.replicaId : ℕ)) = .ok manager ∧
        request = ⟨"RUNNING", l.replicaId, pid % 2^32, l.replicaPort, d, l.deploymentName⟩ := by
  rw [← serve_launched hd nodePort]
  simp only [main, parseArgs_cmd l nodePort hp]
  split
  next h =>
    rw [h]
    exact ⟨(nomatch ·), (nomatch ·)⟩
  next request' manager' h =>
    rw [h, Option.some.injEq, Prod.mk.injEq, Startup.registers.injEq]

def Built (fromEngineArgs : String → Except Raised Engine) (modelId : String)
    (engine : Option Engine) : Prop :=
  (∃ e, fromEngineArgs modelId = .ok e ∧ engine = some e) ∨
    ∃ e, fromEngineArgs modelId = .error e ∧ e.isException = true ∧ engine = none

theorem create_known {name modelId : String} (hn : modelConfigs.lookup name = some modelId)
    {d metricsPort : ℤ} {started : Except Raised Unit} {manager : Manager} :
    create name d metricsPort fromEngineArgs started = .ok manager ↔
      started = .ok () ∧ ∃ engine, Built fromEngineArgs modelId engine ∧
        manager = ⟨name, d, metricsPort, modelId, engine⟩ := by
  have hcreate : ∀ engine, initModel name fromEngineArgs = .ok (modelId, engine) →
      (create name d metricsPort fromEngineArgs started = .ok manager ↔
        started = .ok () ∧ manager = ⟨name, d, metricsPort, modelId, engine⟩) := by
    intro engine h
    simp only [create, h]
    cases started with
    | error e => simp
    | ok u => simp [eq_comm]
  cases hb : fromEngineArgs modelId with
  | ok e =>
    rw [hcreate (some e) (by simp only [initModel, hn, hb])]
    simp [Built, hb]
  | error e =>
    cases he : e.isException with
    | true =>
      rw [hcreate none (by simp only [initModel, hn, hb, he, if_true])]
      simp [Built, hb, he]
    | false =>
      have h : initModel name fromEngineArgs = .error e := by
        simp [initModel, hn, hb, he]
      simp [create, h, Built, hb, he]

end

def servedModel : String := "TinyLlama/TinyLlama-1.1B-Chat-v1.0"

/-- The process of a worker registers under its own id, port and deployment
with that deployment's model; nothing but the metrics port, the metrics server
and the engine decides whether it does. -/
def StartsAsLaunched (p : Scheduler.Process) : Prop :=
  ∀ fromEngineArgs startHttpServer pid request manager,
    main fromEngineArgs startHttpServer pid ((started p).cmd nodePort) =
        .registers request manager ↔
      9000+p.replicaId < 2^31 ∧ startHttpServer (9000+p.replicaId : ℕ) = .ok () ∧
        (∃ engine, Built fromEngineArgs servedModel engine ∧
          manager = ⟨"/v1/chat/tinyllama", 2, (9000+p.replicaId : ℕ), servedModel, engine⟩) ∧
        request = ⟨"RUNNING", p.replicaId, pid % 2^32, p.port, p.deploymentId, p.deploymentName⟩

/-- In every run of the head with its workers, each process that a worker has
launched starts as it was launched. -/
theorem launched_start_as_launched (nodes : List (ℕ × String)) (hn : (nodes.map Prod.fst).Nodup)
    (ha : (nodes.map Prod.snd).Nodup) (as : List Cluster.Act) (s : Cluster.State)
    (hr : Runs.exec Cluster.step as
      (Cluster.initial Head.HeadController.ownDeployments nodes) = some s)
    (w : Scheduler.State) (hw : w ∈ s.workers) (p : Scheduler.Process) (hp : p ∈ w.processes) :
    StartsAsLaunched p := by
  have hi := Cluster.reachable_inv Head.HeadController.ownDeployments_noReplicas hn ha hr
  obtain ⟨dep, hdep, hl⟩ := hi.launched w hw (started p) (List.mem_map_of_mem hp)
  obtain rfl : (⟨"/v1/chat/tinyllama", "1.0", 2, 1, []⟩ : Head.DeploymentHandle) = dep :=
    Option.some.inj hdep
  obtain ⟨-, hport, hname, hd⟩ := Launch.mk.inj hl
  have hd : p.deploymentId = 2 := Head.toString_inj hd
  intro fromEngineArgs startHttpServer pid request manager
  have hstart : (started p).deploymentId = toString 2 := by rw [started, hd]
  rw [main_launched hstart (by rw [hl]; exact toString_ne_empty _)]
  change _ ∧ 9000+p.replicaId < 2^31 ∧ create p.deploymentName 2 _ _ _ = _ ∧
    request = ⟨_, p.replicaId, _, p.port, 2, p.deploymentName⟩ ↔ _
  have hmodel : modelConfigs.lookup p.deploymentName = some servedModel := by
    rw [hname]
    rfl
  rw [create_known hmodel, hname, hd]
  simp only [and_assoc, Nat.reducePow, Nat.reduceLT, true_and]
  rfl

theorem launched_start_as_launched_sample : ∃ s w p,
    Runs.exec Cluster.step Cluster.lostAttempt
      (Cluster.initial Head.HeadController.ownDeployments Cluster.twoNodes) = some s ∧
    w ∈ s.workers ∧ p ∈ w.processes ∧ StartsAsLaunched p := by
  obtain ⟨s, hs, -⟩ := Cluster.lostAttempt_runs
  have h : (Runs.exec Cluster.step Cluster.lostAttempt
      (Cluster.initial Head.HeadController.ownDeployments Cluster.twoNodes)).any
      (fun s => s.workers.any (fun w => !w.processes.isEmpty)) = true := by decide +kernel
  rw [hs, Option.any_some, List.any_eq_true] at h
  obtain ⟨w, hw, hne⟩ := h
  obtain ⟨p, hp⟩ := List.exists_mem_of_ne_nil w.processes (by simpa using hne)
  exact ⟨s, w, p, hs, hw, hp, launched_start_as_launched Cluster.twoNodes (by decide) (by decide)
    Cluster.lostAttempt s hs w hw p hp⟩

end ServingSystem.ReplicaStartup
