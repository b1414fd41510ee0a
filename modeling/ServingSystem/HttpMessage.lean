import ServingSystem.ChunkedCoding

/-!
# HTTP/1 responses

A response is a status line and its fields, each with a line end, an empty
line and a body. The reader takes the head apart line by line. The body has
to end with the bytes given, by the chunked coding or by its Content-Length.
-/

set_option autoImplicit false

namespace ServingSystem.HttpMessage
open ChunkedCoding

def ascii (text : String) : List UInt8 := text.toList.map (fun c => UInt8.ofNat c.toNat)

structure Field where
  name : List UInt8
  value : List UInt8
  deriving DecidableEq, Repr

structure Head where
  startLine : List UInt8
  fields : List Field
  deriving DecidableEq, Repr

def Field.line (f : Field) : List UInt8 := f.name ++ [58, 32] ++ f.value

def Head.lines (h : Head) : List (List UInt8) := h.startLine :: h.fields.map Field.line

def Head.bytes (h : Head) : List UInt8 := h.lines.flatMap (fun l => l ++ crlf) ++ crlf

def splitLine : List UInt8 → Option (List UInt8 × List UInt8)
  | [] => none
  | 13::10::rest => some ([], rest)
  | b::rest => (splitLine rest).map (fun p => (b::p.1, p.2))

def readLines : ℕ → List UInt8 → Option (List (List UInt8) × List UInt8)
  | 0, _ => none
  | fuel+1, input =>
    match splitLine input with
    | none => none
    | some ([], rest) => some ([], rest)
    | some (b::line, rest) => (readLines fuel rest).map (fun p => ((b::line)::p.1, p.2))

def readField : List UInt8 → Option Field
  | [] => none
  | 58::value => some ⟨[], value.dropWhile (fun b => b = 32)⟩
  | b::rest => (readField rest).map (fun f => ⟨b::f.name, f.value⟩)

def readFields : List (List UInt8) → Option (List Field)
  | [] => some []
  | line::rest =>
    match readField line, readFields rest with
    | some f, some fs => some (f::fs)
    | _, _ => none

def readHead (input : List UInt8) : Option (Head × List UInt8) :=
  match readLines (input.length+1) input with
  | some (startLine::lines, body) => (readFields lines).map (fun fs => (⟨startLine, fs⟩, body))
  | _ => none

def lower (b : UInt8) : UInt8 := if 65 ≤ b ∧ b ≤ 90 then b+32 else b

def fieldValue (name : String) (fields : List Field) : Option (List UInt8) :=
  (fields.find? (fun f => f.name.map lower = (ascii name).map lower)).map Field.value

def isDigit (b : UInt8) : Bool := 48 ≤ b ∧ b ≤ 57

def decimalFrom : ℕ → List UInt8 → Option ℕ
  | acc, [] => some acc
  | acc, b::rest => if isDigit b then decimalFrom (10*acc+(b.toNat-48)) rest else none

def decimal : List UInt8 → Option ℕ
  | [] => none
  | b::rest => decimalFrom 0 (b::rest)

def IsStatusLine (version : String) (line : List UInt8) : Prop :=
  ∃ a b c reason, line = ascii version ++ [32, a, b, c, 32] ++ reason ∧
    isDigit a ∧ isDigit b ∧ isDigit c

def Delimited (fields : List Field) (body : List UInt8) : Prop :=
  match fieldValue "Transfer-Encoding" fields with
  | some coding => coding.map lower = ascii "chunked" ∧ (decode body).2 = some []
  | none => (fieldValue "Content-Length" fields).bind decimal = some body.length

/-- Exactly one response of that version. -/
def OneResponse (version : String) (bytes : List UInt8) : Prop :=
  ∃ head body, readHead bytes = some (head, body) ∧
    IsStatusLine version head.startLine ∧ Delimited head.fields body

def Field.Clean (f : Field) : Prop :=
  13 ∉ f.name ∧ 58 ∉ f.name ∧ 13 ∉ f.value ∧ f.value.head? ≠ some 32

instance (f : Field) : Decidable f.Clean :=
  inferInstanceAs (Decidable (_ ∧ _ ∧ _ ∧ _))

structure Head.Clean (h : Head) : Prop where
  nonempty : h.startLine ≠ []
  startLine : 13 ∉ h.startLine
  fields : ∀ f ∈ h.fields, f.Clean

theorem splitLine_append {line : List UInt8} (h : 13 ∉ line) (rest : List UInt8) :
    splitLine (line ++ crlf ++ rest) = some (line, rest) := by
  induction line with
  | nil => rfl
  | cons b line ih =>
    have hb : b ≠ 13 := fun hc => h (by simp [hc])
    have hne : ∀ r, b = 13 → line ++ crlf ++ rest = 10::r → False := fun _ hc => absurd hc hb
    rw [List.cons_append, List.cons_append, splitLine.eq_3 _ _ hne,
      ih (fun hm => h (List.mem_cons_of_mem b hm)), Option.map_some]

theorem readLines_append {lines : List (List UInt8)} (hne : ∀ l ∈ lines, l ≠ [])
    (hcr : ∀ l ∈ lines, 13 ∉ l) (body : List UInt8) {fuel : ℕ} (hf : lines.length < fuel) :
    readLines fuel (lines.flatMap (fun l => l ++ crlf) ++ crlf ++ body) = some (lines, body) := by
  induction lines generalizing fuel with
  | nil =>
    obtain ⟨k, rfl⟩ := Nat.exists_eq_succ_of_ne_zero (by omega : fuel ≠ 0)
    rfl
  | cons l lines ih =>
    obtain ⟨k, rfl⟩ := Nat.exists_eq_succ_of_ne_zero (by omega : fuel ≠ 0)
    rw [List.length_cons] at hf
    have hl := splitLine_append (hcr l (by simp))
      (lines.flatMap (fun l => l ++ crlf) ++ crlf ++ body)
    have hrest := ih (fun m hm => hne m (List.mem_cons_of_mem l hm))
      (fun m hm => hcr m (List.mem_cons_of_mem l hm)) (by omega : lines.length < k)
    have hassoc : (l :: lines).flatMap (fun l => l ++ crlf) ++ crlf ++ body =
        l ++ crlf ++ (lines.flatMap (fun l => l ++ crlf) ++ crlf ++ body) := by
      simp only [List.flatMap_cons, List.append_assoc]
    obtain ⟨b, line, rfl⟩ := List.exists_cons_of_ne_nil (hne l (by simp))
    rw [hassoc, readLines, hl]
    simp only [hrest, Option.map_some]

theorem readField_line {f : Field} (h : f.Clean) : readField f.line = some f := by
  obtain ⟨name, value⟩ := f
  obtain ⟨-, hcolon, -, hspace⟩ := h
  rw [Field.line]
  induction name with
  | nil =>
    have hv : value.dropWhile (fun b => b = 32) = value := by
      cases value with
      | nil => rfl
      | cons b rest => exact List.dropWhile_cons_of_neg (by simpa using hspace)
    show some (⟨[], value.dropWhile (fun b => b = 32)⟩ : Field) = _
    rw [hv]
  | cons b name ih =>
    have hb : b ≠ 58 := fun hc => hcolon (by simp [hc])
    show readField (b :: (name ++ [58, 32] ++ value)) = _
    rw [readField.eq_3 _ _ (fun hc => absurd hc hb),
      ih (fun hm => hcolon (List.mem_cons_of_mem b hm)) hspace, Option.map_some]

theorem readFields_lines {fields : List Field} (h : ∀ f ∈ fields, f.Clean) :
    readFields (fields.map Field.line) = some fields := by
  induction fields with
  | nil => rfl
  | cons f fields ih =>
    have hf := readField_line (h f (by simp))
    have hrest := ih (fun g hg => h g (List.mem_cons_of_mem f hg))
    simp only [List.map_cons, readFields, hf, hrest]

theorem Field.Clean.line {f : Field} (h : f.Clean) : f.line ≠ [] ∧ 13 ∉ f.line := by
  obtain ⟨hname, -, hvalue, -⟩ := h
  constructor
  · simp [Field.line]
  · simp [Field.line, hname, hvalue]

theorem Head.Clean.lines {h : Head} (hc : h.Clean) : ∀ l ∈ h.lines, l ≠ [] ∧ 13 ∉ l := by
  intro l hl
  rcases List.mem_cons.mp hl with rfl | hl
  · exact ⟨hc.nonempty, hc.startLine⟩
  · obtain ⟨f, hf, rfl⟩ := List.mem_map.mp hl
    exact (hc.fields f hf).line

theorem lines_length (lines : List (List UInt8)) :
    lines.length ≤ (lines.flatMap (fun l => l ++ crlf)).length := by
  induction lines with
  | nil => exact le_rfl
  | cons l lines ih =>
    simp only [List.flatMap_cons, List.length_append, List.length_cons, crlf, List.length_nil]
      at ih ⊢
    omega

theorem readHead_bytes {h : Head} (hc : h.Clean) (body : List UInt8) :
    readHead (h.bytes ++ body) = some (h, body) := by
  have hlen : h.lines.length < (h.bytes ++ body).length+1 := by
    have hl := lines_length h.lines
    simp only [Head.bytes, List.length_append]
    omega
  have hr := readLines_append (fun l hl => (hc.lines l hl).1) (fun l hl => (hc.lines l hl).2) body
    hlen
  have hf := readFields_lines hc.fields
  show readHead (h.lines.flatMap (fun l => l ++ crlf) ++ crlf ++ body) = _
  rw [readHead, show (h.lines.flatMap (fun l => l ++ crlf) ++ crlf ++ body).length =
    (h.bytes ++ body).length from rfl, hr]
  simp only [Head.lines, hf, Option.map_some]

/-- What may follow a clean head. -/
theorem oneResponse_iff {h : Head} (hc : h.Clean) (version : String) (body : List UInt8) :
    OneResponse version (h.bytes ++ body) ↔
      IsStatusLine version h.startLine ∧ Delimited h.fields body := by
  rw [OneResponse, readHead_bytes hc]
  constructor
  · rintro ⟨head, b, he, hs, hd⟩
    obtain ⟨rfl, rfl⟩ := Prod.mk.inj (Option.some.inj he)
    exact ⟨hs, hd⟩
  · intro hd
    exact ⟨h, body, rfl, hd⟩

theorem digit_byte {c : Char} (h : c.isDigit) :
    String.utf8EncodeChar c = [UInt8.ofNat c.toNat] ∧ isDigit (UInt8.ofNat c.toNat) ∧
      (UInt8.ofNat c.toNat).toNat = c.toNat := by
  have hc : 48 ≤ c.toNat ∧ c.toNat ≤ 57 := by
    simpa [Char.isDigit, UInt32.le_iff_toNat_le] using h
  have hn : (UInt8.ofNat c.toNat).toNat = c.toNat := by
    rw [UInt8.toNat_ofNat']
    omega
  refine ⟨?_, ?_, hn⟩
  · simp [String.utf8EncodeChar, (by omega : c.toNat ≤ 127)]
  · simp [isDigit, UInt8.le_iff_toNat_le, hn, hc]

theorem decimalFrom_digits {cs : List Char} (h : ∀ c ∈ cs, c.isDigit) (acc : ℕ) :
    decimalFrom acc (cs.flatMap String.utf8EncodeChar) = some (Nat.ofDigitChars 10 cs acc) := by
  induction cs generalizing acc with
  | nil => rfl
  | cons c cs ih =>
    obtain ⟨hb, hd, hn⟩ := digit_byte (h c (by simp))
    rw [List.flatMap_cons, hb, List.singleton_append, decimalFrom, if_pos hd, hn,
      ih (fun d hd => h d (List.mem_cons_of_mem c hd)), Nat.ofDigitChars_cons]
    rfl

def decimalBytes (n : ℕ) : List UInt8 := (toString n).toList.flatMap String.utf8EncodeChar

theorem toString_digits (n : ℕ) : (toString n).toList = Nat.toDigits 10 n := by
  simp

theorem toDigits_isDigit {n : ℕ} : ∀ c ∈ Nat.toDigits 10 n, c.isDigit := fun _ hc =>
  Nat.isDigit_of_mem_toDigits (by decide) (by decide) hc

theorem decimalBytes_digits {n : ℕ} {b : UInt8} (h : b ∈ decimalBytes n) : isDigit b := by
  rw [decimalBytes, toString_digits] at h
  obtain ⟨c, hc, hb⟩ := List.mem_flatMap.mp h
  obtain ⟨he, hd, -⟩ := digit_byte (toDigits_isDigit c hc)
  rw [he] at hb
  rwa [List.mem_singleton.mp hb]

theorem decimal_decimalBytes (n : ℕ) : decimal (decimalBytes n) = some n := by
  have hfrom : decimalFrom 0 (decimalBytes n) = some n := by
    rw [decimalBytes, toString_digits, decimalFrom_digits toDigits_isDigit,
      Nat.ofDigitChars_ten_toDigits]
  cases hb : decimalBytes n with
  | nil =>
    rw [decimalBytes, toString_digits] at hb
    obtain ⟨c, cs, hcs⟩ := List.exists_cons_of_ne_nil (Nat.toDigits_ne_nil : Nat.toDigits 10 n ≠ [])
    have hc : c ∈ Nat.toDigits 10 n := by
      rw [hcs]
      exact List.mem_cons_self
    have he := (digit_byte (toDigits_isDigit c hc)).1
    rw [hcs, List.flatMap_cons, he] at hb
    cases hb
  | cons b rest =>
    rw [hb] at hfrom
    exact hfrom

theorem clean_decimal {name : List UInt8} (h13 : 13 ∉ name) (h58 : 58 ∉ name) (n : ℕ) :
    Field.Clean ⟨name, decimalBytes n⟩ := by
  refine ⟨h13, h58, fun h => ?_, fun h => ?_⟩
  · exact absurd (decimalBytes_digits h) (by decide)
  · exact absurd (decimalBytes_digits (List.mem_of_mem_head? h)) (by decide)

end ServingSystem.HttpMessage
