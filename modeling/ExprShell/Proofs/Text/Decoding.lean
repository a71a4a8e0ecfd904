import ExprShell.Proofs.Text.Encoding
/-!
# Only encoded text is decoded

Strict decoding refuses every byte string but the encodings of texts. Since the byte of a newline
belongs to no other character, a byte string with a newline in it is text exactly if what stands in
front of the newline and what stands behind it are.
-/

namespace ExprShell.Utf8

section Sequences

variable {byte lead second third fourth : UInt8} {least code high middle low : Nat} {c : Char}

theorem toNat_of_continuation? (found : continuation? byte = some low) :
    byte.toNat = low + 0x80 ∧ low < 64 := by
  unfold continuation? at found
  split at found
  · rename_i range
    obtain rfl := Option.some.inj found
    simp only [UInt8.le_iff_toNat_le, UInt8.lt_iff_toNat_lt, UInt8.reduceToNat] at range
    omega
  · simp at found

theorem toNat_of_scalar? (found : scalar? least code = some c) : least ≤ code ∧ c.toNat = code := by
  unfold scalar? at found
  split at found
  · rename_i range
    obtain rfl := Option.some.inj found
    refine ⟨range.1, ?_⟩
    rw [Char.ofNat, dif_pos range.2]
    rfl
  · simp at found

theorem eq_ofNat_of_toNat (byte : UInt8) (code : Nat) (value : byte.toNat = code) :
    byte = UInt8.ofNat code := by
  rw [← value, UInt8.ofNat_toNat]

theorem utf8EncodeChar_single (upper : lead.toNat < 0x80) :
    String.utf8EncodeChar (Char.ofNat lead.toNat) = [lead] := by
  have valid : lead.toNat.isValidChar := .inl (by omega)
  have code : (Char.ofNat lead.toNat).val.toNat = lead.toNat := by
    rw [Char.ofNat, dif_pos valid]
    rfl
  rw [String.utf8EncodeChar, code, if_pos (by omega), UInt8.ofNat_toNat]

theorem utf8EncodeChar_double (lower : 0xC0 ≤ lead.toNat) (upper : lead.toNat < 0xE0)
    (last : continuation? second = some low)
    (scalar : scalar? 0x80 ((lead.toNat - 0xC0) * 64 + low) = some c) :
    String.utf8EncodeChar c = [lead, second] := by
  obtain ⟨secondValue, lowBound⟩ := toNat_of_continuation? last
  obtain ⟨enough, code⟩ := toNat_of_scalar? scalar
  have value : c.val.toNat = c.toNat := rfl
  rw [String.utf8EncodeChar, value, if_neg (by omega), if_pos (by omega),
    eq_ofNat_of_toNat lead (c.toNat / 64 % 0x20 + 0xc0) (by omega),
    eq_ofNat_of_toNat second (c.toNat % 64 + 0x80) (by omega)]

theorem utf8EncodeChar_triple (lower : 0xE0 ≤ lead.toNat) (upper : lead.toNat < 0xF0)
    (first : continuation? second = some high) (last : continuation? third = some low)
    (scalar : scalar? 0x800 (((lead.toNat - 0xE0) * 64 + high) * 64 + low) = some c) :
    String.utf8EncodeChar c = [lead, second, third] := by
  obtain ⟨secondValue, highBound⟩ := toNat_of_continuation? first
  obtain ⟨thirdValue, lowBound⟩ := toNat_of_continuation? last
  obtain ⟨enough, code⟩ := toNat_of_scalar? scalar
  have value : c.val.toNat = c.toNat := rfl
  rw [String.utf8EncodeChar, value, if_neg (by omega), if_neg (by omega), if_pos (by omega),
    eq_ofNat_of_toNat lead (c.toNat / 4096 % 0x10 + 0xe0) (by omega),
    eq_ofNat_of_toNat second (c.toNat / 64 % 64 + 0x80) (by omega),
    eq_ofNat_of_toNat third (c.toNat % 64 + 0x80) (by omega)]

theorem utf8EncodeChar_quadruple (lower : 0xF0 ≤ lead.toNat) (upper : lead.toNat < 0xF8)
    (first : continuation? second = some high) (next : continuation? third = some middle)
    (last : continuation? fourth = some low)
    (scalar : scalar? 0x10000
      ((((lead.toNat - 0xF0) * 64 + high) * 64 + middle) * 64 + low) = some c) :
    String.utf8EncodeChar c = [lead, second, third, fourth] := by
  obtain ⟨secondValue, highBound⟩ := toNat_of_continuation? first
  obtain ⟨thirdValue, middleBound⟩ := toNat_of_continuation? next
  obtain ⟨fourthValue, lowBound⟩ := toNat_of_continuation? last
  obtain ⟨enough, code⟩ := toNat_of_scalar? scalar
  have value : c.val.toNat = c.toNat := rfl
  rw [String.utf8EncodeChar, value, if_neg (by omega), if_neg (by omega), if_neg (by omega),
    eq_ofNat_of_toNat lead (c.toNat / 262144 % 8 + 0xf0) (by omega),
    eq_ofNat_of_toNat second (c.toNat / 4096 % 64 + 0x80) (by omega),
    eq_ofNat_of_toNat third (c.toNat / 64 % 64 + 0x80) (by omega),
    eq_ofNat_of_toNat fourth (c.toNat % 64 + 0x80) (by omega)]

end Sequences

/-- What is decoded is the encoding of the text that it is decoded to. -/
theorem eq_encodeChars_of_decode? {bytes : List UInt8} {text : List Char}
    (decoded : decode? bytes = some text) : bytes = encodeChars text := by
  fun_induction decode? bytes generalizing text with
  | case1 =>
    obtain rfl := Option.some.inj decoded
    rfl
  | case2 lead rest single inductionHypothesis =>
    simp only [Option.bind_eq_bind, Option.bind_eq_some_iff, Option.pure_def,
      Option.some.injEq] at decoded
    obtain ⟨others, later, rfl⟩ := decoded
    rw [encodeChars_cons, utf8EncodeChar_single (UInt8.lt_iff_toNat_lt.mp single),
      ← inductionHypothesis later]
    rfl
  | case4 lead notSingle notInside double second rest inductionHypothesis =>
    simp only [Option.bind_eq_bind, Option.bind_eq_some_iff, Option.pure_def,
      Option.some.injEq] at decoded
    obtain ⟨low, last, c, scalar, others, later, rfl⟩ := decoded
    have lower : 0xC0 ≤ lead.toNat := by simpa [UInt8.lt_iff_toNat_lt] using notInside
    rw [encodeChars_cons, utf8EncodeChar_double lower (UInt8.lt_iff_toNat_lt.mp double) last scalar,
      ← inductionHypothesis later]
    rfl
  | case6 lead notSingle notInside notDouble triple second third rest inductionHypothesis =>
    simp only [Option.bind_eq_bind, Option.bind_eq_some_iff, Option.pure_def,
      Option.some.injEq] at decoded
    obtain ⟨high, first, low, last, c, scalar, others, later, rfl⟩ := decoded
    have lower : 0xE0 ≤ lead.toNat := by simpa [UInt8.lt_iff_toNat_lt] using notDouble
    rw [encodeChars_cons,
      utf8EncodeChar_triple lower (UInt8.lt_iff_toNat_lt.mp triple) first last scalar,
      ← inductionHypothesis later]
    rfl
  | case8 lead notSingle notInside notDouble notTriple quadruple second third fourth rest
      inductionHypothesis =>
    simp only [Option.bind_eq_bind, Option.bind_eq_some_iff, Option.pure_def,
      Option.some.injEq] at decoded
    obtain ⟨high, first, middle, next, low, last, c, scalar, others, later, rfl⟩ := decoded
    have lower : 0xF0 ≤ lead.toNat := by simpa [UInt8.lt_iff_toNat_lt] using notTriple
    rw [encodeChars_cons,
      utf8EncodeChar_quadruple lower (UInt8.lt_iff_toNat_lt.mp quadruple) first next last scalar,
      ← inductionHypothesis later]
    rfl
  | case3 => simp at decoded
  | case5 => simp at decoded
  | case7 => simp at decoded
  | case9 => simp at decoded
  | case10 => simp at decoded

/-- A byte string is decoded to a text exactly if it is the encoding of the text. -/
theorem decode?_eq_some_iff {bytes : List UInt8} {text : List Char} :
    decode? bytes = some text ↔ bytes = encodeChars text :=
  ⟨eq_encodeChars_of_decode?, fun encoded => encoded ▸ decode?_encodeChars text⟩

/-! ## Newlines -/

/-- What does not hold an element stands in front of it. -/
theorem exists_append_of_notMem {α : Type} {element : α} {first second front rest : List α}
    (outside : element ∉ first) (parts : first ++ second = front ++ element :: rest) :
    ∃ further, front = first ++ further ∧ second = further ++ element :: rest := by
  rcases List.append_eq_append_iff.mp parts with ⟨further, split, later⟩ | ⟨further, split, later⟩
  · exact ⟨further, split, later⟩
  · cases further with
    | nil => exact ⟨[], by simpa using split.symm, later.symm⟩
    | cons other others =>
      obtain ⟨rfl, _⟩ := List.cons.inj later
      exact absurd (split ▸ by simp) outside

/-- A newline among encoded bytes is a newline of the text. -/
theorem exists_newline_of_encodeChars {text : List Char} {front rest : List UInt8}
    (encoded : encodeChars text = front ++ 10 :: rest) :
    ∃ before after, text = before ++ '\n' :: after ∧ encodeChars before = front ∧
      encodeChars after = rest := by
  induction text generalizing front with
  | nil => simp at encoded
  | cons c others inductionHypothesis =>
    rw [encodeChars_cons] at encoded
    by_cases isNewline : c = '\n'
    · subst isNewline
      cases front with
      | nil => exact ⟨[], others, rfl, rfl, (List.cons.inj encoded).2⟩
      | cons byte front =>
        obtain ⟨rfl, later⟩ := List.cons.inj encoded
        obtain ⟨before, after, rfl, rfl, rfl⟩ := inductionHypothesis later
        exact ⟨'\n' :: before, after, rfl, rfl, rfl⟩
    · obtain ⟨further, rfl, later⟩ :=
        exists_append_of_notMem (newline_notMem_utf8EncodeChar isNewline) encoded
      obtain ⟨before, after, rfl, rfl, rfl⟩ := inductionHypothesis later
      exact ⟨c :: before, after, rfl, rfl, rfl⟩

/-- A byte string is text exactly if its parts in front of a newline and behind it are. -/
theorem isSome_decode?_append_newline (front rest : List UInt8) :
    (decode? (front ++ 10 :: rest)).isSome = true ↔
      (decode? front).isSome = true ∧ (decode? rest).isSome = true := by
  simp only [Option.isSome_iff_exists, decode?_eq_some_iff]
  constructor
  · rintro ⟨text, encoded⟩
    obtain ⟨before, after, _, frontEncoded, restEncoded⟩ :=
      exists_newline_of_encodeChars encoded.symm
    exact ⟨⟨before, frontEncoded.symm⟩, ⟨after, restEncoded.symm⟩⟩
  · rintro ⟨⟨before, rfl⟩, ⟨after, rfl⟩⟩
    exact ⟨before ++ '\n' :: after, by rw [encodeChars_append, encodeChars_cons]; rfl⟩

end ExprShell.Utf8
