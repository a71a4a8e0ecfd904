/-!
# Double precision numbers

A number is a sign and a magnitude, the 64 bits of the interchange format with the sign bit set
apart. Magnitudes are ordered as the values they stand for, and every finite value is a natural
multiple of the smallest positive one, so reading and writing numbers is arithmetic on natural
numbers.
-/

namespace ExprShell

/-- The weight of the sign bit: one more than the greatest magnitude. -/
def Binary64.signBit : Nat := 0x8000000000000000

/-- A double precision binary number: a sign, and the other 63 bits as one natural number. -/
structure Binary64 where
  negative : Bool
  magnitude : Nat
  magnitude_lt : magnitude < Binary64.signBit
deriving DecidableEq, Repr

namespace Binary64

/-- The number with the given interchange bits. -/
def ofBits (bits : UInt64) : Binary64 where
  negative := decide (signBit ≤ bits.toNat)
  magnitude := bits.toNat % signBit
  magnitude_lt := Nat.mod_lt _ (by decide)

/-- The interchange bits of a number. -/
def toBits (x : Binary64) : UInt64 :=
  UInt64.ofNat ((if x.negative then signBit else 0) + x.magnitude)

theorem toNat_toBits (x : Binary64) :
    x.toBits.toNat = (if x.negative then signBit else 0) + x.magnitude := by
  have bound := x.magnitude_lt
  simp only [signBit] at bound
  rw [toBits, UInt64.toNat_ofNat']
  cases x.negative <;> simp only [signBit, if_true, Bool.false_eq_true, if_false] <;> omega

/-- A number is given back by its bits. -/
@[simp] theorem ofBits_toBits (x : Binary64) : ofBits x.toBits = x := by
  have bound := x.magnitude_lt
  obtain ⟨negative, magnitude, magnitude_lt⟩ := x
  simp only [signBit] at bound
  simp only [ofBits, toNat_toBits, mk.injEq]
  cases negative <;> simp only [signBit, if_true, Bool.false_eq_true, if_false,
    decide_eq_true_eq, decide_eq_false_iff_not] <;> omega

/-- Bits are given back by their number. -/
@[simp] theorem toBits_ofBits (bits : UInt64) : (ofBits bits).toBits = bits := by
  apply UInt64.toNat_inj.mp
  have bound := bits.toNat_lt
  rw [toNat_toBits]
  by_cases high : signBit ≤ bits.toNat
  · simp only [ofBits, high, decide_true, if_true]
    simp only [signBit] at high ⊢
    omega
  · simp only [ofBits, high, decide_false, Bool.false_eq_true, if_false]
    simp only [signBit] at high ⊢
    omega

/-- The weight of the lowest exponent bit, which is also that of the implicit leading digit. -/
def exponentUnit : Nat := 0x10000000000000

/-- The magnitude of infinity, all exponent bits; a larger one stands for no number. -/
def infiniteMagnitude : Nat := 2047 * exponentUnit

/-- Whether the bits stand for no number at all. -/
def isNaN (x : Binary64) : Bool := decide (infiniteMagnitude < x.magnitude)

/-- Whether the value is a number and not an infinity. -/
def isFinite (x : Binary64) : Bool := decide (x.magnitude < infiniteMagnitude)

/-- Positive zero. -/
def zero : Binary64 := ⟨false, 0, by decide⟩

/-- Equality of values: the two zeros are equal, and a NaN equals nothing. -/
def sameValue (x y : Binary64) : Bool :=
  !x.isNaN && !y.isNaN && (x.magnitude == 0 && y.magnitude == 0 || x == y)

/-- The leading digits of a magnitude, the implicit one of a normal number included. -/
def significand (magnitude : Nat) : Nat :=
  if magnitude < exponentUnit then magnitude else exponentUnit + magnitude % exponentUnit

/-- How often the significand is doubled to give the value. -/
def scale (magnitude : Nat) : Nat := magnitude / exponentUnit - 1

/-- Units of the smallest positive value in one. -/
def unitsInOne : Nat := Nat.pow 2 1074

/-- The absolute value of a finite number, in units of the smallest positive value. -/
def units (magnitude : Nat) : Nat := significand magnitude * Nat.pow 2 (scale magnitude)

/-- The quotient rounded to the nearest natural number, a tie to the even one. -/
def divideToEven (numerator denominator : Nat) : Nat :=
  let quotient := numerator / denominator
  let remainder := numerator % denominator
  if 2 * remainder < denominator then quotient
  else if denominator < 2 * remainder then quotient + 1
  else quotient + quotient % 2

/-- The magnitude nearest to a quotient, a tie to the even one; a quotient beyond the finite range
gives infinity. A significand rounded up to the next power of two carries into the exponent field
by plain addition. -/
def nearestMagnitude (numerator denominator : Nat) : Nat :=
  let scaled := numerator * unitsInOne
  let scale := (scaled / denominator).log2 - 52
  min (scale * exponentUnit + divideToEven scaled (denominator * Nat.pow 2 scale))
    infiniteMagnitude

theorem nearestMagnitude_le (numerator denominator : Nat) :
    nearestMagnitude numerator denominator ≤ infiniteMagnitude :=
  Nat.min_le_right _ _

/-- The number nearest to a quotient of natural numbers. -/
def nearest (numerator denominator : Nat) : Binary64 where
  negative := false
  magnitude := nearestMagnitude numerator denominator
  magnitude_lt := Nat.lt_of_le_of_lt (nearestMagnitude_le numerator denominator) (by decide)

@[simp] theorem nearest_negative (numerator denominator : Nat) :
    (nearest numerator denominator).negative = false := rfl

/-- Rounding a quotient always gives a number. -/
@[simp] theorem nearest_isNaN (numerator denominator : Nat) :
    (nearest numerator denominator).isNaN = false :=
  decide_eq_false (Nat.not_lt.mpr (nearestMagnitude_le numerator denominator))

/-- The whole part of a number as a byte: fractions are dropped, values out of range go to the
nearer end, and a NaN goes to zero. -/
def toByte (x : Binary64) : UInt8 :=
  if x.isNaN || x.negative then 0
  else if x.isFinite then UInt8.ofNat (min (units x.magnitude / unitsInOne) 255)
  else 255

end Binary64

end ExprShell
