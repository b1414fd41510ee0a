import ServingSystem.DeploymentHandle
import ServingSystem.StateExcept

/-!
# The request coroutine

`DeploymentHandle::send_request` over an arbitrary state: what it does to
the handle, to the call's stream and to the caller's callback is supplied by
its operations. An exception keeps the state reached when it was thrown.
-/

set_option autoImplicit false

namespace ServingSystem.Proxy
open StateExcept

abbrev Bytes := List UInt8

structure Status where
  code : ℕ
  errorMessage : String
  deriving DecidableEq, Repr

def Status.ok (s : Status) : Bool := s.code = 0

def unavailable : ℕ := 14

structure ReplicaReply where
  text : Bytes
  isError : Bool
  deriving DecidableEq, Repr

/-- How the call to the replica goes: whether it starts, the replies that
can be read before `read` returns false, and the status of `finish`. -/
structure Rpc where
  started : Bool
  replies : List ReplicaReply
  status : Status
  deriving DecidableEq, Repr

structure Exn where
  what : String
  deriving DecidableEq, Repr

abbrev Co (σ : Type) := EStateM Exn σ

structure HandleOps (σ : Type) where
  pickNextReplica : Co σ (Option ReplicaConnection)
  markReplicaUnhealthy : String → Co σ Unit
  releaseReplica : ℕ → σ → σ

abbrev OnToken (σ : Type) := Except Status Bytes → Co σ Unit

/-- The body runs in the scope of a `ReplicaReleaser`, whose destructor runs
on every way out. -/
def withReleaser {σ : Type} (release : σ → σ) (body : Co σ Unit) : Co σ Unit := fun s =>
  match body s with
  | .ok a s => .ok a (release s)
  | .error e s => .error e (release s)

def readLoop {σ : Type} (onToken : OnToken σ) : List ReplicaReply → Co σ Unit
  | [] => pure ()
  | reply::rest => do
    onToken (.ok reply.text)
    readLoop onToken rest

def sendRequest {σ : Type} (ops : HandleOps σ) (rpc : Rpc) (onToken : OnToken σ) :
    Co σ Unit := do
  match ← ops.pickNextReplica with
  | none => onToken (.error ⟨unavailable, "No replicas available"⟩)
  | some connection =>
    withReleaser (ops.releaseReplica connection.info) do
      if !rpc.started then
        ops.markReplicaUnhealthy connection.replicaId
        onToken (.error rpc.status)
      else
        readLoop onToken rpc.replies
        if !rpc.status.ok then
          ops.markReplicaUnhealthy connection.replicaId
          onToken (.error rpc.status)

inductive Action where
  | token (text : Bytes)
  | error (status : Status)
  | mark (replicaId : String)
  | release (info : ℕ)
  deriving DecidableEq, Repr

def callback : Except Status Bytes → Action
  | .ok text => .token text
  | .error status => .error status

def recordingOps (picked : Option ReplicaConnection) : HandleOps (List Action) where
  pickNextReplica := pure picked
  markReplicaUnhealthy id := fun l => .ok () (l ++ [.mark id])
  releaseReplica i l := l ++ [.release i]

/-- A callback that throws whenever the actions of the call so far say so. -/
def recordingOnToken (throws : List Action → Bool) : OnToken (List Action) := fun e l =>
  if throws (l ++ [callback e]) then .error ⟨"on_token"⟩ (l ++ [callback e])
  else .ok () (l ++ [callback e])

def callTrace (picked : Option ReplicaConnection) (rpc : Rpc) (throws : List Action → Bool) :
    List Action :=
  finalState (sendRequest (recordingOps picked) rpc (recordingOnToken throws) [])

def tokens (replies : List ReplicaReply) : List Action := replies.map (fun r => .token r.text)

def ReadToEnd (rpc : Rpc) (throws : List Action → Bool) : Prop :=
  ∀ n < rpc.replies.length, throws (tokens (rpc.replies.take (n+1))) = false

/-- The first callback that throws is the one for that reply. -/
structure ThrowsAt (rpc : Rpc) (throws : List Action → Bool) (n : ℕ) : Prop where
  reply : n < rpc.replies.length
  thrown : throws (tokens (rpc.replies.take (n+1))) = true
  first : ∀ m < n, throws (tokens (rpc.replies.take (m+1))) = false

theorem ReadToEnd.not_throwsAt {rpc : Rpc} {throws : List Action → Bool} {n : ℕ}
    (h : ReadToEnd rpc throws) : ¬ ThrowsAt rpc throws n :=
  fun ht => Bool.false_ne_true ((h n ht.reply).symm.trans ht.thrown)

theorem ThrowsAt.unique {rpc : Rpc} {throws : List Action → Bool} {n m : ℕ}
    (hn : ThrowsAt rpc throws n) (hm : ThrowsAt rpc throws m) : n = m := by
  rcases lt_trichotomy n m with h | h | h
  · exact absurd hn.thrown (by simp [hm.first n h])
  · exact h
  · exact absurd hm.thrown (by simp [hn.first m h])

theorem finalState_withReleaser {σ : Type} (release : σ → σ) (body : Co σ Unit) (s : σ) :
    finalState (withReleaser release body s) = release (finalState (body s)) := by
  unfold withReleaser
  cases body s <;> rfl

theorem finalState_recordingOnToken (throws : List Action → Bool) (e : Except Status Bytes)
    (l : List Action) : finalState (recordingOnToken throws e l) = l ++ [callback e] := by
  unfold recordingOnToken
  split <;> rfl

theorem readLoop_recording (throws : List Action → Bool) (replies : List ReplicaReply)
    (l : List Action) :
    ((∀ n < replies.length, throws (l ++ tokens (replies.take (n+1))) = false) ∧
      readLoop (recordingOnToken throws) replies l = .ok () (l ++ tokens replies)) ∨
    ∃ n < replies.length, throws (l ++ tokens (replies.take (n+1))) = true ∧
      (∀ m < n, throws (l ++ tokens (replies.take (m+1))) = false) ∧
      ∃ e, readLoop (recordingOnToken throws) replies l =
        .error e (l ++ tokens (replies.take (n+1))) := by
  induction replies generalizing l with
  | nil => exact Or.inl ⟨by simp, by simp [readLoop, tokens, pure_apply]⟩
  | cons r rest ih =>
    by_cases ht : throws (l ++ [.token r.text]) = true
    · refine Or.inr ⟨0, by simp, by simpa [tokens] using ht, by simp, ⟨"on_token"⟩, ?_⟩
      exact bind_error (by simp [recordingOnToken, callback, ht, tokens])
    · have htoken : recordingOnToken throws (.ok r.text) l = .ok () (l ++ [.token r.text]) := by
        simp [recordingOnToken, callback, ht]
      have hgo : readLoop (recordingOnToken throws) (r::rest) l =
          readLoop (recordingOnToken throws) rest (l ++ [.token r.text]) := bind_ok htoken
      have happ : ∀ k, l ++ tokens ((r::rest).take (k+1)) =
          l ++ [.token r.text] ++ tokens (rest.take k) := by simp [tokens]
      rw [hgo]
      rcases ih (l ++ [.token r.text]) with ⟨hall, he⟩ | ⟨n, hn, htn, hfirst, e, he⟩
      · refine Or.inl ⟨fun n hn => ?_, by simp [he, tokens]⟩
        cases n with
        | zero => simpa [tokens] using ht
        | succ n => exact happ (n+1) ▸ hall n (by simpa using hn)
      · refine Or.inr ⟨n+1, by simpa using hn, happ (n+1) ▸ htn, fun m hm => ?_, e,
          happ (n+1) ▸ he⟩
        cases m with
        | zero => simpa [tokens] using ht
        | succ m => exact happ (m+1) ▸ hfirst m (by simpa using hm)

theorem finalState_failure (throws : List Action → Bool) (picked : Option ReplicaConnection)
    (id : String) (status : Status) (l : List Action) :
    finalState (((recordingOps picked).markReplicaUnhealthy id >>= fun _ =>
      recordingOnToken throws (.error status)) l) = l ++ [.mark id, .error status] := by
  have h : (recordingOps picked).markReplicaUnhealthy id l = .ok () (l ++ [.mark id]) := rfl
  rw [finalState_bind_ok h, finalState_recordingOnToken]
  simp [callback]

/-- Everything one call can do after its pick. -/
theorem callTrace_cases (picked : Option ReplicaConnection) (rpc : Rpc)
    (throws : List Action → Bool) :
    (picked = none ∧ callTrace picked rpc throws =
      [.error ⟨unavailable, "No replicas available"⟩]) ∨
    ∃ c, picked = some c ∧
      ((rpc.started = false ∧ callTrace picked rpc throws =
          [.mark c.replicaId, .error rpc.status, .release c.info]) ∨
       (rpc.started = true ∧ ∃ n, ThrowsAt rpc throws n ∧ callTrace picked rpc throws =
          tokens (rpc.replies.take (n+1)) ++ [.release c.info]) ∨
       (rpc.started = true ∧ ReadToEnd rpc throws ∧ rpc.status.ok = true ∧
          callTrace picked rpc throws = tokens rpc.replies ++ [.release c.info]) ∨
       (rpc.started = true ∧ ReadToEnd rpc throws ∧ rpc.status.ok = false ∧
          callTrace picked rpc throws = tokens rpc.replies ++
            [.mark c.replicaId, .error rpc.status, .release c.info])) := by
  cases picked with
  | none =>
    left
    exact ⟨rfl, (finalState_bind_ok rfl).trans (finalState_recordingOnToken throws _ [])⟩
  | some c =>
    right
    refine ⟨c, rfl, ?_⟩
    have hcall : callTrace (some c) rpc throws = finalState
        ((if !rpc.started then do
            (recordingOps (some c)).markReplicaUnhealthy c.replicaId
            recordingOnToken throws (.error rpc.status)
          else do
            readLoop (recordingOnToken throws) rpc.replies
            if !rpc.status.ok then
              (recordingOps (some c)).markReplicaUnhealthy c.replicaId
              recordingOnToken throws (.error rpc.status)) []) ++ [.release c.info] :=
      (finalState_bind_ok rfl).trans (finalState_withReleaser _ _ _)
    cases hs : rpc.started with
    | false =>
      refine Or.inl ⟨rfl, ?_⟩
      rw [hcall, hs]
      simp [finalState_failure]
    | true =>
      right
      simp only [hs, Bool.not_true, Bool.false_eq_true, if_false] at hcall
      rcases readLoop_recording throws rpc.replies [] with ⟨hall, he⟩ | ⟨n, hn, htn, hfirst, e, he⟩
      · right
        rw [finalState_bind_ok he] at hcall
        cases hok : rpc.status.ok with
        | true =>
          refine Or.inl ⟨rfl, hall, rfl, ?_⟩
          simpa [hok, pure_apply, finalState] using hcall
        | false =>
          refine Or.inr ⟨rfl, hall, rfl, ?_⟩
          simpa [hok, finalState_failure] using hcall
      · refine Or.inl ⟨rfl, n, ⟨hn, by simpa using htn, by simpa using hfirst⟩, ?_⟩
        rw [hcall, finalState_bind_error he]
        simp

end ServingSystem.Proxy
