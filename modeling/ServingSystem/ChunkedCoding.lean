import Mathlib.Algebra.Order.Ring.Int
import Mathlib.Data.List.Basic
import Mathlib.Tactic.Common
import Mathlib.Tactic.IntervalCases
import Mathlib.Tactic.Ring

/-!
# The HTTP/1.1 chunked coding

A chunk is its length in hexadecimal, a line end, the data and another line
end. The decoder concatenates the data of the complete chunks it reads and
stops at the first chunk of length zero, which a line end has to follow;
chunk extensions are skipped and trailer fields are not accepted. A response
is a head, an empty line and the coded body.
-/

set_option autoImplicit false

namespace ServingSystem.ChunkedCoding

def crlf : List UInt8 := [13, 10]

def hexByte (d : ℕ) : UInt8 := UInt8.ofNat (Nat.digitChar d).toNat

def hex (n : ℕ) : List UInt8 := (Nat.toDigits 16 n).map (fun c => UInt8.ofNat c.toNat)

def chunk (data : List UInt8) : List UInt8 := hex data.length ++ crlf ++ data ++ crlf

def lastChunk : List UInt8 := chunk []

def hexValue (b : UInt8) : Option ℕ :=
  if 48 ≤ b ∧ b ≤ 57 then some (b.toNat-48)
  else if 97 ≤ b ∧ b ≤ 102 then some (b.toNat-87)
  else if 65 ≤ b ∧ b ≤ 70 then some (b.toNat-55)
  else none

def afterLine : List UInt8 → Option (List UInt8)
  | [] => none
  | 13::10::rest => some rest
  | _::rest => afterLine rest

/-- The end of a size line whose digits have been read: a line end, or an
extension that runs to the next one. -/
def sizeEnd (size : ℕ) (b : UInt8) (rest : List UInt8) : Option (ℕ × List UInt8) :=
  if b = 13 ∧ rest.head? = some 10 then some (size, rest.tail)
  else if b = 59 then (afterLine rest).map (fun r => (size, r))
  else none

def readSize : Bool → ℕ → List UInt8 → Option (ℕ × List UInt8)
  | _, _, [] => none
  | seen, acc, b::rest =>
    match hexValue b with
    | some v => readSize true (acc*16+v) rest
    | none => if seen then sizeEnd acc b rest else none

def decodeFuel : ℕ → List UInt8 → List UInt8 × Option (List UInt8)
  | 0, _ => ([], none)
  | fuel+1, input =>
    match readSize false 0 input with
    | none => ([], none)
    | some (size, rest) =>
      if rest.length < size+2 then ([], none)
      else if (rest.drop size).take 2 ≠ crlf then ([], none)
      else if size = 0 then ([], some (rest.drop 2))
      else
        let out := decodeFuel fuel (rest.drop (size+2))
        (rest.take size ++ out.1, out.2)

def decode (input : List UInt8) : List UInt8 × Option (List UInt8) :=
  decodeFuel (input.length+1) input

def splitHead : List UInt8 → Option (List UInt8 × List UInt8)
  | [] => none
  | 13::10::13::10::rest => some ([], rest)
  | b::rest => (splitHead rest).map (fun p => (b::p.1, p.2))

def statusCode (head : List UInt8) : List UInt8 := (head.drop 9).take 3

def CompleteOk (bytes : List UInt8) : Prop :=
  ∃ head body, splitHead bytes = some (head, body) ∧ statusCode head = [50, 48, 48] ∧
    (decode body).2 ≠ none

example : decode (chunk [104, 105] ++ lastChunk ++ [0]) = ([104, 105], some [0]) := by decide

theorem hexValue_hexByte {d : ℕ} (h : d < 16) : hexValue (hexByte d) = some d := by
  interval_cases d <;> rfl

theorem hex_digit {n : ℕ} (h : n < 16) : hex n = [hexByte n] := by
  rw [hex, Nat.toDigits_of_lt_base h]
  rfl

theorem hex_step {n : ℕ} (h : 16 ≤ n) : hex n = hex (n/16) ++ [hexByte (n%16)] := by
  rw [hex, Nat.toDigits_of_base_le (by decide) h, List.map_append]
  rfl

theorem readSize_digit (seen : Bool) (acc : ℕ) {d : ℕ} (h : d < 16) (rest : List UInt8) :
    readSize seen acc (hexByte d::rest) = readSize true (acc*16+d) rest := by
  rw [readSize]
  simp only [hexValue_hexByte h]

theorem readSize_hex (seen : Bool) (acc n : ℕ) (rest : List UInt8) :
    ∃ k, readSize seen acc (hex n ++ rest) = readSize true (acc*16^k+n) rest := by
  induction n using Nat.strong_induction_on generalizing seen acc rest with
  | _ n ih =>
    by_cases h : n < 16
    · exact ⟨1, by rw [hex_digit h, List.singleton_append, readSize_digit seen acc h, pow_one]⟩
    · have h16 : 16 ≤ n := not_lt.mp h
      obtain ⟨k, hk⟩ := ih (n/16) (by omega) seen acc (hexByte (n%16)::rest)
      refine ⟨k+1, ?_⟩
      rw [hex_step h16, List.append_assoc, List.singleton_append, hk,
        readSize_digit _ _ (Nat.mod_lt n (by decide))]
      congr 1
      have hdiv := Nat.div_add_mod n 16
      calc (acc*16^k+n/16)*16+n%16 = acc*16^(k+1)+(16*(n/16)+n%16) := by ring
        _ = acc*16^(k+1)+n := by rw [hdiv]

theorem readSize_line (n : ℕ) (rest : List UInt8) :
    readSize false 0 (hex n ++ crlf ++ rest) = some (n, rest) := by
  obtain ⟨k, hk⟩ := readSize_hex false 0 n (crlf ++ rest)
  rw [List.append_assoc, hk, zero_mul, zero_add]
  rfl

theorem afterLine_append {p r : List UInt8} (e : List UInt8) (h : afterLine p = some r) :
    afterLine (p ++ e) = some (r ++ e) := by
  induction p using afterLine.induct with
  | case1 => simp [afterLine] at h
  | case2 rest =>
    simp only [afterLine, Option.some.injEq] at h
    simp [afterLine, h]
  | case3 b rest hne ih =>
    rw [afterLine.eq_3 _ _ hne] at h
    cases rest with
    | nil => simp [afterLine] at h
    | cons c rest =>
      have hne' : ∀ r, b = 13 → (c::rest) ++ e = 10::r → False := by
        intro r hb hr
        have hc : c = 10 := (List.cons.inj hr).1
        exact hne rest hb (by rw [hc])
      rw [List.cons_append, afterLine.eq_3 _ _ hne']
      exact ih h

theorem afterLine_length {p r : List UInt8} (h : afterLine p = some r) : r.length < p.length := by
  induction p using afterLine.induct with
  | case1 => simp [afterLine] at h
  | case2 rest =>
    simp only [afterLine, Option.some.injEq] at h
    subst h
    rw [List.length_cons, List.length_cons]
    omega
  | case3 b rest hne ih =>
    rw [afterLine.eq_3 _ _ hne] at h
    exact (ih h).trans (by simp)

theorem sizeEnd_append {size n : ℕ} {b : UInt8} {p r : List UInt8} (e : List UInt8)
    (h : sizeEnd size b p = some (n, r)) : sizeEnd size b (p ++ e) = some (n, r ++ e) := by
  unfold sizeEnd at h ⊢
  split at h
  next hc =>
    obtain ⟨hb, hp⟩ := hc
    obtain ⟨q, rfl⟩ := List.head?_eq_some_iff.mp hp
    obtain ⟨rfl, rfl⟩ := Prod.mk.inj (Option.some.inj h)
    rw [if_pos ⟨hb, rfl⟩]
    rfl
  next hc =>
    split at h
    next hb =>
      obtain ⟨r', hr', he⟩ := Option.map_eq_some_iff.mp h
      obtain ⟨rfl, rfl⟩ := Prod.mk.inj he
      rw [if_neg (by simp [hb]), if_pos hb, afterLine_append e hr', Option.map_some]
    · cases h

theorem sizeEnd_length {size n : ℕ} {b : UInt8} {p r : List UInt8}
    (h : sizeEnd size b p = some (n, r)) : r.length < p.length := by
  unfold sizeEnd at h
  split at h
  next hc =>
    obtain ⟨q, rfl⟩ := List.head?_eq_some_iff.mp hc.2
    obtain ⟨rfl, rfl⟩ := Prod.mk.inj (Option.some.inj h)
    simp
  next =>
    split at h
    · obtain ⟨r', hr', he⟩ := Option.map_eq_some_iff.mp h
      obtain ⟨rfl, rfl⟩ := Prod.mk.inj he
      exact afterLine_length hr'
    · cases h

theorem readSize_append {seen : Bool} {acc n : ℕ} {p r : List UInt8} (e : List UInt8)
    (h : readSize seen acc p = some (n, r)) : readSize seen acc (p ++ e) = some (n, r ++ e) := by
  induction p generalizing seen acc with
  | nil => simp [readSize] at h
  | cons b p ih =>
    rw [List.cons_append, readSize]
    rw [readSize] at h
    cases hv : hexValue b with
    | some v =>
      simp only [hv] at h ⊢
      exact ih h
    | none =>
      simp only [hv] at h ⊢
      obtain ⟨hs, h⟩ := Option.ite_none_right_eq_some.mp h
      rw [if_pos hs]
      exact sizeEnd_append e h

theorem readSize_length {seen : Bool} {acc n : ℕ} {p r : List UInt8}
    (h : readSize seen acc p = some (n, r)) : r.length < p.length := by
  induction p generalizing seen acc with
  | nil => simp [readSize] at h
  | cons b p ih =>
    rw [readSize] at h
    cases hv : hexValue b with
    | some v =>
      simp only [hv] at h
      exact (ih h).trans (by simp)
    | none =>
      simp only [hv] at h
      exact (sizeEnd_length (Option.ite_none_right_eq_some.mp h).2).trans (by simp)

/-- Fuel beyond the length of the input changes nothing. -/
theorem decodeFuel_eq {n m : ℕ} {input : List UInt8} (hn : input.length < n)
    (hm : input.length < m) : decodeFuel n input = decodeFuel m input := by
  induction n generalizing m input with
  | zero => omega
  | succ n ih =>
    cases m with
    | zero => omega
    | succ m =>
      simp only [decodeFuel]
      cases hs : readSize false 0 input with
      | none => rfl
      | some p =>
        obtain ⟨size, rest⟩ := p
        have hl := readSize_length hs
        simp only
        rw [ih (by simp; omega : (rest.drop (size+2)).length < n)
          (by simp; omega : (rest.drop (size+2)).length < m)]

theorem decode_of_size {input rest : List UInt8} {size : ℕ}
    (h : readSize false 0 input = some (size, rest)) :
    decode input =
      if rest.length < size+2 then ([], none)
      else if (rest.drop size).take 2 ≠ crlf then ([], none)
      else if size = 0 then ([], some (rest.drop 2))
      else (rest.take size ++ (decode (rest.drop (size+2))).1,
        (decode (rest.drop (size+2))).2) := by
  have hl := readSize_length h
  have hd : decodeFuel input.length (rest.drop (size+2)) = decode (rest.drop (size+2)) :=
    decodeFuel_eq (by simp; omega) (Nat.lt_succ_self _)
  simp only [decode, decodeFuel, h, hd]

theorem decode_of_no_size {input : List UInt8} (h : readSize false 0 input = none) :
    decode input = ([], none) := by
  simp only [decode, decodeFuel, h]

theorem readSize_chunk (data rest : List UInt8) :
    readSize false 0 (chunk data ++ rest) = some (data.length, data ++ crlf ++ rest) := by
  have h := readSize_line data.length (data ++ crlf ++ rest)
  simpa only [chunk, List.append_assoc] using h

theorem decode_chunk {data : List UInt8} (hd : data ≠ []) (rest : List UInt8) :
    decode (chunk data ++ rest) = (data ++ (decode rest).1, (decode rest).2) := by
  have hs := readSize_chunk data rest
  have hn : data.length ≠ 0 := fun hc => hd (List.length_eq_zero_iff.mp hc)
  have hdrop : (data ++ crlf ++ rest).drop (data.length+2) = rest := by
    rw [List.append_assoc, ← List.drop_drop, List.drop_left]
    rfl
  rw [decode_of_size hs, hdrop, if_neg (by simp [crlf]), if_neg (by simp [crlf]), if_neg hn]
  simp

theorem decode_lastChunk (rest : List UInt8) : decode (lastChunk ++ rest) = ([], some rest) := by
  have hs : readSize false 0 (lastChunk ++ rest) = some (0, crlf ++ rest) := readSize_chunk [] rest
  rw [decode_of_size hs, if_neg (by simp [crlf]), if_neg (by simp [crlf]), if_pos rfl]
  rfl

theorem decode_chunks {ds : List (List UInt8)} (hd : ∀ d ∈ ds, d ≠ []) (rest : List UInt8) :
    decode (ds.flatMap chunk ++ rest) = (ds.flatten ++ (decode rest).1, (decode rest).2) := by
  induction ds with
  | nil => rfl
  | cons d ds ih =>
    rw [List.flatMap_cons, List.append_assoc, decode_chunk (hd d (by simp)),
      ih (fun e he => hd e (by simp [he])), List.flatten_cons, List.append_assoc]

/-- More input only adds data, and leaves a message that was complete as it
was. -/
theorem decode_append (p e : List UInt8) :
    (decode p).1 <+: (decode (p ++ e)).1 ∧
      ∀ r, (decode p).2 = some r → decode (p ++ e) = ((decode p).1, some (r ++ e)) := by
  induction hn : p.length using Nat.strong_induction_on generalizing p with
  | _ n ih =>
    cases hs : readSize false 0 p with
    | none => simp [decode_of_no_size hs]
    | some q =>
      obtain ⟨size, rest⟩ := q
      have hl := readSize_length hs
      rw [decode_of_size hs, decode_of_size (readSize_append e hs)]
      by_cases h1 : rest.length < size+2
      · simp [h1]
      have h1' : ¬ (rest ++ e).length < size+2 := by simp; omega
      have htake : ((rest ++ e).drop size).take 2 = (rest.drop size).take 2 := by
        rw [List.drop_append_of_le_length (by omega),
          List.take_append_of_le_length (by simp; omega)]
      rw [if_neg h1, if_neg h1', htake]
      by_cases h2 : (rest.drop size).take 2 ≠ crlf
      · simp [h2]
      rw [if_neg h2, if_neg h2]
      by_cases h3 : size = 0
      · subst h3
        have hdrop : (rest ++ e).drop 2 = rest.drop 2 ++ e :=
          List.drop_append_of_le_length (by omega)
        simp [hdrop]
      rw [if_neg h3, if_neg h3, List.drop_append_of_le_length (by omega),
        List.take_append_of_le_length (by omega)]
      obtain ⟨hp, hc⟩ := ih (rest.drop (size+2)).length (by simp; omega) _ rfl
      refine ⟨(List.prefix_append_right_inj _).mpr hp, fun r hr => ?_⟩
      rw [hc r hr]

theorem decode_cut_chunk {part e data : List UInt8} (h : part ++ e = chunk data) (he : e ≠ []) :
    decode part = ([], none) := by
  cases hs : readSize false 0 part with
  | none => exact decode_of_no_size hs
  | some q =>
    obtain ⟨size, rest⟩ := q
    have hc := readSize_append e hs
    have hd := readSize_chunk data []
    rw [List.append_nil, ← h, hc] at hd
    obtain ⟨hsize, hrest⟩ := Prod.mk.inj (Option.some.inj hd)
    have hlen := congrArg List.length hrest
    simp only [List.length_append, crlf, List.length_cons, List.length_nil] at hlen
    have hpos := List.length_pos_of_ne_nil he
    rw [decode_of_size hs, if_pos (by omega)]

/-- The data decoded from a cut message ends at a chunk boundary. -/
theorem decode_cut {ds : List (List UInt8)} (hd : ∀ d ∈ ds, d ≠ []) (tail : List UInt8)
    {p : List UInt8} (hp : p <+: ds.flatMap chunk ++ lastChunk ++ tail) :
    ∃ k, (decode p).1 = (ds.take k).flatten := by
  induction ds generalizing p with
  | nil =>
    refine ⟨0, ?_⟩
    rcases List.prefix_or_prefix_of_prefix hp (List.prefix_append lastChunk tail) with h | h
    · obtain ⟨e, he⟩ := h
      cases e with
      | nil =>
        have hl := decode_lastChunk []
        rw [List.append_nil] at hl he
        rw [he, hl]
        rfl
      | cons b e =>
        rw [decode_cut_chunk he (by simp)]
        rfl
    · obtain ⟨q, rfl⟩ := h
      rw [decode_lastChunk]
      rfl
  | cons d ds ih =>
    rw [List.flatMap_cons, List.append_assoc, List.append_assoc] at hp
    rcases List.prefix_or_prefix_of_prefix hp (List.prefix_append (chunk d) _) with h | h
    · obtain ⟨e, he⟩ := h
      cases e with
      | nil =>
        rw [List.append_nil] at he
        refine ⟨1, ?_⟩
        have hc := decode_chunk (hd d (by simp)) []
        have hnil : (decode []).1 = [] := rfl
        rw [List.append_nil] at hc
        simp only [he, hc, hnil, List.append_nil, List.take_succ_cons, List.take_zero,
          List.flatten_cons, List.flatten_nil]
      | cons b e =>
        refine ⟨0, ?_⟩
        rw [decode_cut_chunk he (by simp)]
        rfl
    · obtain ⟨q, rfl⟩ := h
      have hq : q <+: ds.flatMap chunk ++ lastChunk ++ tail := by
        rw [List.append_assoc]
        exact (List.prefix_append_right_inj (chunk d)).mp hp
      obtain ⟨k, hk⟩ := ih (fun e he => hd e (by simp [he])) hq
      refine ⟨k+1, ?_⟩
      rw [decode_chunk (hd d (by simp)), hk]
      rfl

/-- A message cut off after `n` bytes is complete exactly when its data
chunks and its last chunk are inside the cut. -/
theorem decode_take_complete {ds : List (List UInt8)} (hd : ∀ d ∈ ds, d ≠ [])
    (rest : List UInt8) (n : ℕ) :
    (decode ((ds.flatMap chunk ++ lastChunk ++ rest).take n)).2 ≠ none ↔
      (ds.flatMap chunk).length+5 ≤ n := by
  have hall : ∀ r, decode (ds.flatMap chunk ++ lastChunk ++ r) = (ds.flatten, some r) := by
    intro r
    rw [List.append_assoc, decode_chunks hd, decode_lastChunk, List.append_nil]
  have hlast : lastChunk.length = 5 := rfl
  constructor
  · intro h
    obtain ⟨r, hr⟩ := Option.ne_none_iff_exists'.mp h
    have hc := (decode_append _ ((ds.flatMap chunk ++ lastChunk ++ rest).drop n)).2 r hr
    rw [List.take_append_drop, hall] at hc
    have hlen := congrArg List.length (Option.some.inj (Prod.mk.inj hc).2)
    simp only [List.length_append, List.length_drop, hlast] at hlen
    by_contra hlt
    omega
  · intro h
    rw [List.take_append, List.take_of_length_le (by simpa [hlast] using h), hall]
    simp

/-- Chunks of any data: the message ends at the first empty one. -/
theorem chunks_takeWhile (ds : List (List UInt8)) (rest : List UInt8) : ∃ rest',
    ds.flatMap chunk ++ lastChunk ++ rest =
      (ds.takeWhile (fun d => d ≠ [])).flatMap chunk ++ lastChunk ++ rest' := by
  induction ds with
  | nil => exact ⟨rest, rfl⟩
  | cons d ds ih =>
    obtain ⟨rest', ih⟩ := ih
    by_cases h : d = []
    · subst h
      exact ⟨ds.flatMap chunk ++ lastChunk ++ rest, by simp [lastChunk]⟩
    · refine ⟨rest', ?_⟩
      simp only [List.append_assoc] at ih
      simp [h, ih]

theorem splitHead_append {p h b : List UInt8} (e : List UInt8)
    (hs : splitHead p = some (h, b)) : splitHead (p ++ e) = some (h, b ++ e) := by
  induction p using splitHead.induct generalizing h with
  | case1 => simp [splitHead] at hs
  | case2 rest =>
    obtain ⟨rfl, rfl⟩ := Prod.mk.inj (Option.some.inj hs)
    rfl
  | case3 c rest hne ih =>
    rw [splitHead.eq_3 _ _ hne, Option.map_eq_some_iff] at hs
    obtain ⟨⟨h', b'⟩, hr, he⟩ := hs
    obtain ⟨rfl, rfl⟩ := Prod.mk.inj he
    have hne' : ∀ r, c = 13 → rest ++ e = 10::13::10::r → False := by
      intro r hc hr'
      match rest, hr with
      | [], hr => simp [splitHead] at hr
      | [_], hr => simp [splitHead] at hr
      | [_, _], hr => simp [splitHead] at hr
      | x::y::z::tail, _ =>
        simp only [List.cons_append, List.cons.injEq] at hr'
        exact hne tail hc (by rw [hr'.1, hr'.2.1, hr'.2.2.1])
    rw [List.cons_append, splitHead.eq_3 _ _ hne', ih hr]
    rfl

theorem completeOk_take {head h : List UInt8} (hh : splitHead head = some (h, []))
    (hok : statusCode h = [50, 48, 48]) (body : List UInt8) (n : ℕ) :
    CompleteOk ((head ++ body).take n) ↔
      head.length ≤ n ∧ (decode (body.take (n-head.length))).2 ≠ none := by
  rcases le_or_gt head.length n with hn | hn
  · have hs := splitHead_append (body.take (n-head.length)) hh
    rw [List.take_append, List.take_of_length_le hn, CompleteOk, hs]
    simp [hok, hn]
  · rw [List.take_append_of_le_length hn.le]
    constructor
    · rintro ⟨h', b, hs, -⟩
      have hd := splitHead_append (head.drop n) hs
      rw [List.take_append_drop, hh] at hd
      have hnil := (Prod.mk.inj (Option.some.inj hd)).2
      have hlen := congrArg List.length hnil
      simp only [List.length_nil, List.length_append, List.length_drop] at hlen
      omega
    · intro hc
      exact absurd hc.1 (not_le.mpr hn)

end ServingSystem.ChunkedCoding
