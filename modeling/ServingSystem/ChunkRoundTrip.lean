import ServingSystem.HttpSession

/-!
# Round trip of the chunks of a session

The bytes `on_token_received` writes for a list of tokens, closed by the
chunk of length zero, as a chunked decoder reads them back. A token may be
any byte string.
-/

set_option autoImplicit false

namespace ServingSystem.Proxy.ChunkRoundTrip
open ChunkedCoding HttpSession StateExcept

/-- What a session whose client accepts every write writes for the tokens
that the loop of `send_request` passes on. -/
def chunksWritten (tokens : List Bytes) : Bytes :=
  (finalState (readLoop onTokenReceived (tokens.map (fun token => ⟨token, false⟩))
    (start none))).sent

def RoundTrips (tokens : List Bytes) : Prop :=
  (decode (chunksWritten tokens ++ lastChunk)).1 = tokens.flatten ∧
    (decode (chunksWritten tokens ++ lastChunk)).2 ≠ none

instance : DecidablePred RoundTrips := fun _ => inferInstanceAs (Decidable (_ ∧ _))

def EmptyLast (tokens : List Bytes) : Prop := tokens.Pairwise (fun a b => a = [] → b = [])

theorem chunksWritten_eq (tokens : List Bytes) : chunksWritten tokens = tokens.flatMap chunk := by
  obtain ⟨hw, -⟩ := readLoop_writes (tokens.map (fun token => ⟨token, false⟩)) (start none)
  have hs := hw.sent
  rw [List.map_map] at hs
  rw [chunksWritten, hs]
  show [] ++ (tokens.map id).flatMap chunk = tokens.flatMap chunk
  rw [List.map_id, List.nil_append]

/-- The decoder returns what stands before the first empty token. -/
theorem decode_tokens (tokens : List Bytes) : ∃ rest,
    decode (chunksWritten tokens ++ lastChunk) =
      ((tokens.takeWhile (fun token => token ≠ [])).flatten, some rest) := by
  have hne : ∀ token ∈ tokens.takeWhile (fun token => token ≠ []), token ≠ [] := by
    intro token ht
    simpa using List.mem_takeWhile_imp ht
  obtain ⟨rest, hr⟩ := chunks_takeWhile tokens []
  refine ⟨rest, ?_⟩
  rw [List.append_nil] at hr
  rw [chunksWritten_eq, hr, List.append_assoc, decode_chunks hne, decode_lastChunk,
    List.append_nil]

theorem flatten_takeWhile_iff (tokens : List Bytes) :
    (tokens.takeWhile (fun token => token ≠ [])).flatten = tokens.flatten ↔ EmptyLast tokens := by
  unfold EmptyLast
  induction tokens with
  | nil => simp
  | cons token tokens ih =>
    rw [List.pairwise_cons]
    by_cases h : token = []
    · subst h
      have hnil : tokens.flatten = [] ↔ ∀ t ∈ tokens, t = [] := List.flatten_eq_nil_iff
      constructor
      · intro hf
        have hall := hnil.mp (by simpa using hf.symm)
        refine ⟨fun t ht _ => hall t ht, ?_⟩
        exact List.pairwise_of_forall_mem_list (fun _ _ t ht _ => hall t ht)
      · rintro ⟨hall, -⟩
        have hf := hnil.mpr (fun t ht => hall t ht rfl)
        simp [hf]
    · rw [List.takeWhile_cons_of_pos (by simpa using h), List.flatten_cons, List.flatten_cons,
        List.append_cancel_left_eq, ih]
      simp [h]

/-- The tokens come back exactly when no empty one stands before one that is
not: its chunk is the end of the message. -/
theorem round_trip_iff (tokens : List Bytes) : RoundTrips tokens ↔ EmptyLast tokens := by
  obtain ⟨rest, h⟩ := decode_tokens tokens
  rw [RoundTrips, h, ← flatten_takeWhile_iff]
  simp

/-- The text after an empty one is lost. -/
theorem empty_token_truncates :
    ¬ RoundTrips [utf8 "a".toList, [], utf8 "b".toList] ∧
      (decode (chunksWritten [utf8 "a".toList, [], utf8 "b".toList] ++ lastChunk)).1 =
        utf8 "a".toList := by
  decide

end ServingSystem.Proxy.ChunkRoundTrip
