import ExprShell.Native
import ExprShell.Proofs.Token.LongestMatch
/-!
# What native functions write

The text of a number stands for that number bit for bit, but for the sign and the payload of a NaN,
and it fits on a line. So the number function writes a line that stands for its argument. The
character function writes one character, whose code is the whole part of its argument as far as
that fits into a byte.
-/

namespace ExprShell

namespace Binary64

open Notation

/-! ## The text of a number -/

/-- The text of a decimal fraction is read to its end, as that fraction. -/
theorem takeDecimal?_text (d : Decimal) : takeDecimal? d.text = some (d, []) := by
  have parts := d.ofDigits_whole_fraction
  by_cases whole : d.places = 0
  · have noFraction : d.fraction = [] := List.length_eq_zero_iff.mp (d.length_fraction.trans whole)
    rw [Decimal.text, if_pos whole,
      takeDecimal?_whole d.whole_ne_nil fun _ => d.isDigit_of_mem_whole]
    rw [noFraction] at parts
    rw [parts]
  · rw [Decimal.text, if_neg whole, takeDecimal?_point (by simp [d.whole_ne_nil])
      (fun _ => d.isDigit_of_mem_whole) (fun _ => d.isDigit_of_mem_fraction), parts]

/-- The text of a decimal fraction starts with a digit. -/
theorem exists_text_eq_cons (d : Decimal) :
    ∃ first others, d.text = first :: others ∧ first.isDigit = true := by
  obtain ⟨first, others, parts⟩ := List.exists_cons_of_ne_nil d.whole_ne_nil
  have digit : first.isDigit = true := d.isDigit_of_mem_whole (by rw [parts]; simp)
  rw [Decimal.text, parts]
  split
  · exact ⟨first, others, rfl, digit⟩
  · exact ⟨first, others ++ '.' :: d.fraction, rfl, digit⟩

/-- The text of a magnitude has no sign and is read as the number without one. -/
theorem ofUnsignedText?_magnitudeText {magnitude : Nat} (number : magnitude ≤ infiniteMagnitude)
    (bound : magnitude < signBit) :
    takeSign (magnitudeText magnitude) = (false, magnitudeText magnitude) ∧
      ofUnsignedText? (magnitudeText magnitude) = some ⟨false, magnitude, bound⟩ := by
  rw [magnitudeText]
  split
  · rename_i finite
    have readsBack := readsBack_shortestDecimal finite
    obtain ⟨first, others, parts, digit⟩ := exists_text_eq_cons (shortestDecimal magnitude)
    have taken := takeDecimal?_text (shortestDecimal magnitude)
    rw [parts] at taken ⊢
    refine ⟨takeSign_of_starts (.inl digit), ?_⟩
    rw [ofUnsignedText?_of_takeDecimal? (.inl digit) taken]
    simpa [Decimal.toBinary64, nearest, Binary64.readsBack] using readsBack
  · rename_i infinite
    obtain rfl : magnitude = infiniteMagnitude := Nat.le_antisymm number (Nat.not_lt.mp infinite)
    have word : ofUnsignedText? "inf".toList = some infinity := by decide
    exact ⟨rfl, word⟩

/-- Reading the text of a number gives that number, and the usual NaN for any NaN. -/
theorem ofText?_text (x : Binary64) :
    ofText? x.text.toList = some (if x.isNaN then quietNaN else x) := by
  obtain ⟨negative, magnitude, bound⟩ := x
  cases nan : isNaN ⟨negative, magnitude, bound⟩ with
  | true =>
    have word : ofText? "NaN".toList = some quietNaN := by decide
    rw [text, if_pos nan, word, if_pos rfl]
  | false =>
    have number : magnitude ≤ infiniteMagnitude := Nat.not_lt.mp (of_decide_eq_false nan)
    obtain ⟨noSign, value⟩ := ofUnsignedText?_magnitudeText number bound
    rw [text, if_neg (by simp [nan]), String.toList_ofList]
    cases negative with
    | false => simp [ofText?, noSign, value]
    | true => simp [ofText?, takeSign, value]

theorem newline_notMem_magnitudeText (magnitude : Nat) : '\n' ∉ magnitudeText magnitude := by
  have noDigit : ('\n').isDigit = false := by decide
  rw [magnitudeText]
  split
  · intro member
    rw [Decimal.text] at member
    split at member
    · simp [Decimal.isDigit_of_mem_whole _ member] at noDigit
    · rcases List.mem_append.mp member with whole | (_ | ⟨_, fraction⟩)
      · simp [Decimal.isDigit_of_mem_whole _ whole] at noDigit
      · simp [Decimal.isDigit_of_mem_fraction _ fraction] at noDigit
  · decide

/-- The text of a number fits on a line. -/
theorem newline_notMem_text (x : Binary64) : '\n' ∉ x.text.toList := by
  have noNewline := newline_notMem_magnitudeText x.magnitude
  rw [text]
  split
  · decide
  · split <;> simpa using noNewline

/-! ## The whole part of a number -/

theorem unitsInOne_pos : 0 < unitsInOne := by
  obtain ⟨places, unit, _⟩ := exists_places 0
  rw [unit]
  exact Nat.pow_pos (by decide)

/-- Within the range of a byte, the whole part of a finite number is the byte. -/
theorem toNat_toByte {x : Binary64} (unsigned : x.negative = false) (finite : x.isFinite = true) :
    x.toByte.toNat = min (units x.magnitude / unitsInOne) 255 := by
  have below : x.magnitude < infiniteMagnitude := of_decide_eq_true finite
  have number : x.isNaN = false := decide_eq_false (Nat.not_lt.mpr (Nat.le_of_lt below))
  rw [toByte, unsigned, number, if_neg (by decide), if_pos finite, UInt8.toNat_ofNat']
  exact Nat.mod_eq_of_lt (Nat.lt_succ_of_le (Nat.min_le_right _ _))

end Binary64

namespace NativeFunction

open Binary64

/-! ## Calls -/

/-- The number function writes one line, of which the text stands for the argument. -/
theorem exists_output_printNumber (x : Binary64) :
    ∃ line, (printNumber.output x).toList = line ++ ['\n'] ∧ '\n' ∉ line ∧
      ofText? line = some (if x.isNaN then quietNaN else x) :=
  ⟨x.text.toList, by simp [output], newline_notMem_text x, ofText?_text x⟩

/-- The character of a byte has the byte as its code. -/
theorem toNat_ofNat_toNat (byte : UInt8) : (Char.ofNat byte.toNat).toNat = byte.toNat := by
  have small := byte.toNat_lt
  have valid : byte.toNat.isValidChar := .inl (by omega)
  rw [Char.ofNat, dif_pos valid]
  rfl

/-- The character function writes one character. Its code is the greatest one of a byte that does
not exceed the argument, and zero if there is none. -/
theorem exists_output_putChar (x : Binary64) :
    ∃ c : Char, putChar.output x = String.singleton c ∧ c.toNat ≤ 255 ∧
      (x.isNaN = true ∨ x.negative = true → c.toNat = 0) ∧
      (x.isNaN = false → x.negative = false →
        (x.isFinite = true → c.toNat * unitsInOne ≤ units x.magnitude) ∧
          (c.toNat < 255 → x.isFinite = true ∧
            units x.magnitude < (c.toNat + 1) * unitsInOne)) := by
  refine ⟨Char.ofNat x.toByte.toNat, rfl, ?_⟩
  rw [toNat_ofNat_toNat]
  refine ⟨Nat.le_of_lt_succ x.toByte.toNat_lt, fun low => ?_, fun number unsigned => ?_⟩
  · have zero : x.toByte = 0 := by
      rw [toByte, if_pos (by simpa using low)]
    rw [zero]
    rfl
  cases finite : x.isFinite with
  | true =>
    rw [toNat_toByte unsigned finite]
    constructor
    · exact fun _ => (Nat.mul_le_mul_right _ (Nat.min_le_left _ _)).trans (Nat.div_mul_le_self _ _)
    · intro less
      have within : min (units x.magnitude / unitsInOne) 255 = units x.magnitude / unitsInOne := by
        omega
      rw [within, Nat.mul_comm]
      exact ⟨rfl, Nat.lt_mul_div_succ _ unitsInOne_pos⟩
  | false =>
    have full : x.toByte = 255 := by
      rw [toByte, number, unsigned, finite]
      rfl
    rw [full]
    exact ⟨by simp, fun less => absurd less (by decide)⟩

/-- Only two names are bound. Under one of them a call writes its argument to the results, as a
line, and under the other a character to the diagnostics; and it gives zero. -/
theorem call_of_ofName? {name : String} {function : NativeFunction}
    (bound : ofName? name = some function) (x : Binary64) :
    function.value x = .zero ∧
      (name = "printd" ∧ function.channel = .results ∧
          (∃ line, (function.output x).toList = line ++ ['\n'] ∧ '\n' ∉ line ∧
            ofText? line = some (if x.isNaN then quietNaN else x)) ∨
        name = "putchard" ∧ function.channel = .diagnostics ∧
          ∃ c : Char, function.output x = String.singleton c ∧ c.toNat ≤ 255) := by
  have itsName : function.name = name := by simpa using List.find?_some bound
  refine ⟨rfl, ?_⟩
  cases function with
  | putChar =>
    obtain ⟨c, written, small, _⟩ := exists_output_putChar x
    exact .inr ⟨itsName.symm, rfl, c, written, small⟩
  | printNumber => exact .inl ⟨itsName.symm, rfl, exists_output_printNumber x⟩

end NativeFunction

end ExprShell
