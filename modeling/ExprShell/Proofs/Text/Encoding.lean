import ExprShell.Text.Utf8
/-!
# Decoding what was encoded

Strict decoding gives back every text that was encoded, character by character, and the byte of a
newline occurs only where the text has a newline. So bytes may be cut into lines before they are
decoded.
-/

namespace ExprShell.Utf8

/-- The bytes that encode a list of characters. -/
def encodeChars (text : List Char) : List UInt8 := text.flatMap String.utf8EncodeChar

@[simp] theorem encodeChars_nil : encodeChars [] = [] := rfl

@[simp] theorem encodeChars_cons (c : Char) (text : List Char) :
    encodeChars (c :: text) = String.utf8EncodeChar c ++ encodeChars text := rfl

@[simp] theorem encodeChars_append (first second : List Char) :
    encodeChars (first ++ second) = encodeChars first ++ encodeChars second :=
  List.flatMap_append

theorem encode_append (first second : String) :
    encode (first ++ second) = encode first ++ encode second := by
  simp [encode]

theorem toNat_ofNat_of_lt {code : Nat} (small : code < 256) : (UInt8.ofNat code).toNat = code := by
  rw [UInt8.toNat_ofNat', Nat.mod_eq_of_lt small]

theorem continuation?_ofNat (code : Nat) :
    continuation? (UInt8.ofNat (code % 64 + 0x80)) = some (code % 64) := by
  have value : (UInt8.ofNat (code % 64 + 0x80)).toNat = code % 64 + 0x80 :=
    toNat_ofNat_of_lt (by omega)
  have range : 0x80 ≤ UInt8.ofNat (code % 64 + 0x80) ∧ UInt8.ofNat (code % 64 + 0x80) < 0xC0 := by
    simp only [UInt8.le_iff_toNat_le, UInt8.lt_iff_toNat_lt, value, UInt8.reduceToNat]
    omega
  rw [continuation?, if_pos range, value]
  simp

/-- The code of a character is that of a scalar. -/
theorem scalar?_toNat {c : Char} {least : Nat} (enough : least ≤ c.toNat) :
    scalar? least c.toNat = some c := by
  have valid : c.toNat.isValidChar := c.valid
  rw [scalar?, if_pos ⟨enough, valid⟩, Char.ofNat_toNat]

section Sequences

variable {lead second third fourth : UInt8} {high middle low : Nat} {c : Char}

/-- One byte stands for itself. -/
theorem decode?_single (rest : List UInt8) (upper : lead.toNat < 0x80) :
    decode? (lead :: rest) = (decode? rest).map (Char.ofNat lead.toNat :: ·) := by
  have single : lead < 0x80 := UInt8.lt_iff_toNat_lt.mpr upper
  rw [decode?.eq_def]
  simp only [single, if_true]
  cases decode? rest <;> rfl

theorem decode?_double (rest : List UInt8) (lower : 0xC0 ≤ lead.toNat) (upper : lead.toNat < 0xE0)
    (last : continuation? second = some low)
    (scalar : scalar? 0x80 ((lead.toNat - 0xC0) * 64 + low) = some c) :
    decode? (lead :: second :: rest) = (decode? rest).map (c :: ·) := by
  have notSingle : ¬lead < 0x80 := by simp [UInt8.lt_iff_toNat_lt]; omega
  have notInside : ¬lead < 0xC0 := by simp [UInt8.lt_iff_toNat_lt]; omega
  rw [decode?, if_neg notSingle, if_neg notInside, if_pos (UInt8.lt_iff_toNat_lt.mpr upper)]
  cases decode? rest <;> simp [last, scalar]

theorem decode?_triple (rest : List UInt8) (lower : 0xE0 ≤ lead.toNat) (upper : lead.toNat < 0xF0)
    (first : continuation? second = some high) (last : continuation? third = some low)
    (scalar : scalar? 0x800 (((lead.toNat - 0xE0) * 64 + high) * 64 + low) = some c) :
    decode? (lead :: second :: third :: rest) = (decode? rest).map (c :: ·) := by
  have notSingle : ¬lead < 0x80 := by simp [UInt8.lt_iff_toNat_lt]; omega
  have notInside : ¬lead < 0xC0 := by simp [UInt8.lt_iff_toNat_lt]; omega
  have notDouble : ¬lead < 0xE0 := by simp [UInt8.lt_iff_toNat_lt]; omega
  rw [decode?, if_neg notSingle, if_neg notInside, if_neg notDouble,
    if_pos (UInt8.lt_iff_toNat_lt.mpr upper)]
  cases further : decode? rest <;> simp [first, last, scalar, further]

theorem decode?_quadruple (rest : List UInt8) (lower : 0xF0 ≤ lead.toNat)
    (upper : lead.toNat < 0xF8) (first : continuation? second = some high)
    (next : continuation? third = some middle) (last : continuation? fourth = some low)
    (scalar : scalar? 0x10000
      ((((lead.toNat - 0xF0) * 64 + high) * 64 + middle) * 64 + low) = some c) :
    decode? (lead :: second :: third :: fourth :: rest) = (decode? rest).map (c :: ·) := by
  have notSingle : ¬lead < 0x80 := by simp [UInt8.lt_iff_toNat_lt]; omega
  have notInside : ¬lead < 0xC0 := by simp [UInt8.lt_iff_toNat_lt]; omega
  have notDouble : ¬lead < 0xE0 := by simp [UInt8.lt_iff_toNat_lt]; omega
  have notTriple : ¬lead < 0xF0 := by simp [UInt8.lt_iff_toNat_lt]; omega
  rw [decode?, if_neg notSingle, if_neg notInside, if_neg notDouble, if_neg notTriple,
    if_pos (UInt8.lt_iff_toNat_lt.mpr upper)]
  cases further : decode? rest <;> simp [first, next, last, scalar, further]

end Sequences

/-- An encoded character is decoded, and decoding goes on behind it. -/
theorem decode?_utf8EncodeChar_append (c : Char) (rest : List UInt8) :
    decode? (String.utf8EncodeChar c ++ rest) = (decode? rest).map (c :: ·) := by
  have code : c.val.toNat = c.toNat := rfl
  have bound : c.toNat < 0x110000 := by
    have valid := c.valid
    simp only [UInt32.isValidChar, Nat.isValidChar, code] at valid
    omega
  simp only [String.utf8EncodeChar, code]
  by_cases single : c.toNat ≤ 0x7f
  · have lead : (UInt8.ofNat c.toNat).toNat = c.toNat := toNat_ofNat_of_lt (by omega)
    rw [if_pos single, List.singleton_append, decode?_single rest (by omega), lead,
      Char.ofNat_toNat]
  rw [if_neg single]
  by_cases double : c.toNat ≤ 0x7ff
  · have lead : (UInt8.ofNat (c.toNat / 64 % 0x20 + 0xc0)).toNat = c.toNat / 64 % 0x20 + 0xc0 :=
      toNat_ofNat_of_lt (by omega)
    rw [if_pos double]
    refine decode?_double rest (by omega) (by omega) (continuation?_ofNat _) ?_
    rw [show ((UInt8.ofNat (c.toNat / 64 % 0x20 + 0xc0)).toNat - 0xC0) * 64 + c.toNat % 64 =
      c.toNat by omega]
    exact scalar?_toNat (by omega)
  rw [if_neg double]
  by_cases triple : c.toNat ≤ 0xffff
  · have lead : (UInt8.ofNat (c.toNat / 4096 % 0x10 + 0xe0)).toNat = c.toNat / 4096 % 0x10 + 0xe0 :=
      toNat_ofNat_of_lt (by omega)
    rw [if_pos triple]
    refine decode?_triple rest (by omega) (by omega) (continuation?_ofNat _) (continuation?_ofNat _)
      ?_
    rw [show (((UInt8.ofNat (c.toNat / 4096 % 0x10 + 0xe0)).toNat - 0xE0) * 64 +
      c.toNat / 64 % 64) * 64 + c.toNat % 64 = c.toNat by omega]
    exact scalar?_toNat (by omega)
  rw [if_neg triple]
  have lead : (UInt8.ofNat (c.toNat / 262144 % 8 + 0xf0)).toNat = c.toNat / 262144 % 8 + 0xf0 :=
    toNat_ofNat_of_lt (by omega)
  refine decode?_quadruple rest (by omega) (by omega) (continuation?_ofNat _)
    (continuation?_ofNat _) (continuation?_ofNat _) ?_
  rw [show ((((UInt8.ofNat (c.toNat / 262144 % 8 + 0xf0)).toNat - 0xF0) * 64 +
    c.toNat / 4096 % 64) * 64 + c.toNat / 64 % 64) * 64 + c.toNat % 64 = c.toNat by omega]
  exact scalar?_toNat (by omega)

/-- Decoding gives back an encoded text. -/
@[simp] theorem decode?_encodeChars (text : List Char) :
    decode? (encodeChars text) = some text := by
  induction text with
  | nil => rfl
  | cons c rest inductionHypothesis =>
    rw [encodeChars_cons, decode?_utf8EncodeChar_append, inductionHypothesis]
    rfl

/-- The byte of a newline belongs to no other character. -/
theorem newline_notMem_utf8EncodeChar {c : Char} (other : c ≠ '\n') :
    (10 : UInt8) ∉ String.utf8EncodeChar c := by
  have code : c.val.toNat = c.toNat := rfl
  have differs : c.toNat ≠ 10 := fun same => other (Char.toNat_inj.mp same)
  have byte : ∀ value : Nat, value < 256 → value ≠ 10 → (10 : UInt8) ≠ UInt8.ofNat value := by
    intro value small different equal
    have same := congrArg UInt8.toNat equal
    rw [toNat_ofNat_of_lt small] at same
    exact different same.symm
  simp only [String.utf8EncodeChar, code]
  repeat' split
  · simp only [List.mem_singleton]
    exact byte _ (by omega) differs
  · simp only [List.mem_cons, List.not_mem_nil, or_false, not_or]
    exact ⟨byte _ (by omega) (by omega), byte _ (by omega) (by omega)⟩
  · simp only [List.mem_cons, List.not_mem_nil, or_false, not_or]
    exact ⟨byte _ (by omega) (by omega), byte _ (by omega) (by omega),
      byte _ (by omega) (by omega)⟩
  · simp only [List.mem_cons, List.not_mem_nil, or_false, not_or]
    exact ⟨byte _ (by omega) (by omega), byte _ (by omega) (by omega),
      byte _ (by omega) (by omega), byte _ (by omega) (by omega)⟩

/-- Text without a newline is encoded without its byte. -/
theorem newline_notMem_encodeChars {text : List Char} (plain : '\n' ∉ text) :
    (10 : UInt8) ∉ encodeChars text := by
  intro found
  obtain ⟨c, member, byte⟩ := List.mem_flatMap.mp found
  exact newline_notMem_utf8EncodeChar (fun same => plain (same ▸ member)) byte

end ExprShell.Utf8
