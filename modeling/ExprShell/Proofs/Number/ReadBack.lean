import ExprShell.Number.Shortest
/-!
# Reading numbers back

The decimal fraction that a finite number is written as reads back as exactly that number, and the
digits on the two sides of its point give the fraction back. Nothing is assumed about the search
for a short fraction: a candidate is only taken if it reads back, and the exact value, which is the
last resort, always does.
-/

namespace ExprShell

namespace Binary64

/-- Doubling a significand moves its leading digit up, so the scale of a magnitude can be seen from
the length of its value. -/
theorem log2_units_sub (magnitude : Nat) : (units magnitude).log2 - 52 = scale magnitude := by
  by_cases small : magnitude < exponentUnit
  · have unscaled : scale magnitude = 0 := by simp [scale, Nat.div_eq_of_lt small]
    have value : units magnitude = magnitude := by simp [units, significand, small, unscaled]
    rw [value, unscaled]
    by_cases zero : magnitude = 0
    · simp [zero]
    · have short := (Nat.log2_lt zero).mpr (show magnitude < 2 ^ 52 from small)
      omega
  · have fraction : magnitude % exponentUnit < exponentUnit := Nat.mod_lt _ (by decide)
    have value : units magnitude =
        (exponentUnit + magnitude % exponentUnit) * 2 ^ scale magnitude := by
      simp [units, significand, small]
    have positive : 0 < 2 ^ scale magnitude := Nat.pow_pos (by decide)
    have leading : (units magnitude).log2 = 52 + scale magnitude := by
      rw [value, Nat.log2_eq_iff (Nat.mul_ne_zero (by simp [exponentUnit]) (by omega))]
      constructor
      · rw [Nat.pow_add]
        exact Nat.mul_le_mul_right _ (Nat.le_add_right _ _)
      · rw [show 52 + scale magnitude + 1 = 53 + scale magnitude by omega, Nat.pow_add]
        refine Nat.mul_lt_mul_of_pos_right ?_ positive
        simp only [exponentUnit] at fraction ⊢
        omega
    omega

/-- A magnitude is its scale in the exponent field with its significand added. -/
theorem scale_add_significand (magnitude : Nat) :
    scale magnitude * exponentUnit + significand magnitude = magnitude := by
  by_cases small : magnitude < exponentUnit
  · simp [scale, significand, small, Nat.div_eq_of_lt small]
  · simp only [scale, significand, small, if_false]
    simp only [exponentUnit] at small ⊢
    omega

/-- Nothing is rounded when a quotient is whole. -/
theorem divideToEven_mul (quotient : Nat) {denominator : Nat} (positive : 0 < denominator) :
    divideToEven (quotient * denominator) denominator = quotient := by
  simp [divideToEven, Nat.mul_div_cancel _ positive, positive]

/-- A quotient that is the value of a finite magnitude is rounded to that magnitude. -/
theorem nearestMagnitude_of_exact {magnitude numerator denominator : Nat}
    (finite : magnitude < infiniteMagnitude) (positive : 0 < denominator)
    (exact : numerator * unitsInOne = units magnitude * denominator) :
    nearestMagnitude numerator denominator = magnitude := by
  have scaled : units magnitude * denominator =
      significand magnitude * (denominator * Nat.pow 2 (scale magnitude)) := by
    rw [units, Nat.mul_assoc, Nat.mul_comm denominator]
  have divided : divideToEven (units magnitude * denominator)
      (denominator * Nat.pow 2 (scale magnitude)) = significand magnitude := by
    rw [scaled]
    exact divideToEven_mul _ (Nat.mul_pos positive (Nat.pow_pos (by decide)))
  simp only [nearestMagnitude, exact, Nat.mul_div_cancel _ positive, log2_units_sub, divided,
    scale_add_significand]
  exact Nat.min_eq_left (Nat.le_of_lt finite)

theorem mul_pow_five_mul_pow_two (count exponent : Nat) :
    count * Nat.pow 5 exponent * Nat.pow 2 exponent = count * Nat.pow 10 exponent := by
  rw [Nat.mul_assoc, show Nat.pow 5 exponent * Nat.pow 2 exponent = Nat.pow 10 exponent from
    (Nat.mul_pow 5 2 exponent).symm]

theorem ten_pow_pos (exponent : Nat) : 0 < Nat.pow 10 exponent := Nat.pow_pos (by decide)

/-- The exact value has as many decimal places as the unit has binary ones. -/
theorem exists_places (magnitude : Nat) : ∃ places, unitsInOne = Nat.pow 2 places ∧
    exactDecimal magnitude = ⟨units magnitude * Nat.pow 5 places, places⟩ :=
  ⟨1074, by unfold unitsInOne; rfl, rfl⟩

theorem readsBack_exactDecimal {magnitude : Nat} (finite : magnitude < infiniteMagnitude) :
    readsBack magnitude (exactDecimal magnitude) = true := by
  obtain ⟨places, unit, value⟩ := exists_places magnitude
  have exact : units magnitude * Nat.pow 5 places * unitsInOne =
      units magnitude * Nat.pow 10 places := by
    rw [unit, mul_pow_five_mul_pow_two]
  have nearest := nearestMagnitude_of_exact finite (ten_pow_pos places) exact
  exact value.symm ▸ beq_iff_eq.mpr nearest

/-- The shortest fraction of a finite number reads back. -/
theorem readsBack_shortestDecimal {magnitude : Nat} (finite : magnitude < infiniteMagnitude) :
    readsBack magnitude (shortestDecimal magnitude) = true := by
  simp only [shortestDecimal]
  cases found : (DecimalGrid.upTo (units magnitude)).findSome? fun grid =>
      (grid.neighbours (units magnitude)).find? (readsBack magnitude) with
  | none => exact readsBack_exactDecimal finite
  | some candidate =>
    obtain ⟨grid, _, accepted⟩ := List.exists_of_findSome?_eq_some found
    exact List.find?_some accepted

/-- A finite number without a sign is what its shortest fraction reads as. -/
theorem toBinary64_shortestDecimal {x : Binary64} (finite : x.isFinite = true)
    (unsigned : x.negative = false) : (shortestDecimal x.magnitude).toBinary64 = x := by
  have accepted := readsBack_shortestDecimal (of_decide_eq_true finite)
  obtain ⟨negative, magnitude, bound⟩ := x
  simp only [readsBack, beq_iff_eq] at accepted
  simp only [Decimal.toBinary64, nearest, mk.injEq] at accepted ⊢
  exact ⟨unsigned.symm, accepted⟩

/-- The text of a finite number without a sign is that of its shortest fraction. -/
theorem text_of_finite {x : Binary64} (finite : x.isFinite = true) (unsigned : x.negative = false) :
    x.text.toList = (shortestDecimal x.magnitude).text := by
  have below : x.magnitude < infiniteMagnitude := of_decide_eq_true finite
  have number : x.isNaN = false := decide_eq_false (Nat.not_lt.mpr (Nat.le_of_lt below))
  simp [text, number, unsigned, magnitudeText, below]

end Binary64

namespace Decimal

variable (d : Decimal)

/-- There is always a digit before the point. -/
theorem places_lt_length_padded : d.places < d.padded.length := by
  simp only [padded, List.length_append, List.length_replicate]
  omega

theorem whole_append_fraction : d.whole ++ d.fraction = d.padded := List.take_append_drop _ _

@[simp] theorem length_fraction : d.fraction.length = d.places := by
  have enough := d.places_lt_length_padded
  rw [fraction, List.length_drop]
  omega

theorem whole_ne_nil : d.whole ≠ [] := by
  intro empty
  have enough := d.places_lt_length_padded
  have parts := congrArg List.length d.whole_append_fraction
  simp only [empty, List.nil_append, length_fraction] at parts
  omega

theorem isDigit_of_mem_padded {c : Char} (member : c ∈ d.padded) : c.isDigit = true := by
  rcases List.mem_append.mp member with filler | written
  · rw [(List.mem_replicate.mp filler).2]
    decide
  · exact Nat.isDigit_of_mem_toDigits (by decide) (by decide) written

theorem isDigit_of_mem_whole {c : Char} (member : c ∈ d.whole) : c.isDigit = true :=
  d.isDigit_of_mem_padded (List.mem_of_mem_take member)

theorem isDigit_of_mem_fraction {c : Char} (member : c ∈ d.fraction) : c.isDigit = true :=
  d.isDigit_of_mem_padded (List.mem_of_mem_drop member)

/-- A fraction is given back by the digits on the two sides of its point. -/
theorem ofDigits_whole_fraction : ofDigits d.whole d.fraction = d := by
  have digits : Nat.ofDigitChars 10 d.padded 0 = d.digits := by
    rw [padded, Nat.ofDigitChars_append, Nat.ofDigitChars_replicate_zero, Nat.mul_zero,
      Nat.ofDigitChars_ten_toDigits]
  rw [ofDigits, whole_append_fraction, digits, length_fraction]

end Decimal

end ExprShell
