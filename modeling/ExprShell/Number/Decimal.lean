import ExprShell.Number.Binary64
/-!
# Decimal fractions

A decimal fraction is a whole number of units in its last place. Its text is positional: digits,
and a point only where there are places after it.
-/

namespace ExprShell

/-- The value `digits / 10 ^ places`, written with exactly `places` digits after the point. -/
structure Decimal where
  digits : Nat
  places : Nat
deriving DecidableEq, Repr

namespace Decimal

/-- The fraction with the given digits before and after its point. -/
def ofDigits (whole fraction : List Char) : Decimal where
  digits := Nat.ofDigitChars 10 (whole ++ fraction) 0
  places := fraction.length

/-- The double precision number nearest to a decimal fraction. -/
def toBinary64 (d : Decimal) : Binary64 := Binary64.nearest d.digits (Nat.pow 10 d.places)

/-- All digits of a fraction, with zeros in front as far as a digit before the point needs them. -/
def padded (d : Decimal) : List Char :=
  let written := Nat.toDigits 10 d.digits
  List.replicate (d.places + 1 - written.length) '0' ++ written

/-- The digits before the point. -/
def whole (d : Decimal) : List Char := d.padded.take (d.padded.length - d.places)

/-- The digits after the point. -/
def fraction (d : Decimal) : List Char := d.padded.drop (d.padded.length - d.places)

/-- The positional text of a fraction. -/
def text (d : Decimal) : List Char :=
  if d.places = 0 then d.whole else d.whole ++ '.' :: d.fraction

end Decimal

end ExprShell
