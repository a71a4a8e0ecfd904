import ExprShell.Number.Decimal
/-!
# The text of a number

A finite number is written as the shortest decimal fraction that reads back as the same number.
Decimal grids are tried from coarse to fine; on the first grid where one of the two points next to
the value reads back, the nearer such point is taken. The text is positional at every size.
-/

namespace ExprShell

/-- The points of a decimal grid are the multiples of a power of ten, whole or fractional. -/
inductive DecimalGrid
  | tens (zeros : Nat)
  | places (count : Nat)
deriving DecidableEq, Repr

namespace DecimalGrid

/-- The point a number of steps above zero. -/
def point : DecimalGrid -> Nat -> Decimal
  | tens zeros, steps => ⟨steps * Nat.pow 10 zeros, 0⟩
  | places count, steps => ⟨steps, count⟩

/-- How many steps a value, given in units of the smallest positive number, lies above zero: a
numerator and a denominator. -/
def steps : DecimalGrid -> Nat -> Nat × Nat
  | tens zeros, units => (units, Binary64.unitsInOne * Nat.pow 10 zeros)
  | places count, units => (units * Nat.pow 10 count, Binary64.unitsInOne)

/-- The two points next to a value, the nearer one first; at equal distance the upper one. -/
def neighbours (grid : DecimalGrid) (units : Nat) : List Decimal :=
  let (numerator, denominator) := grid.steps units
  let lower := grid.point (numerator / denominator)
  let upper := grid.point (numerator / denominator + 1)
  if 2 * (numerator % denominator) < denominator then [lower, upper] else [upper, lower]

/-- The grids worth trying for a value, coarse to fine. A grid coarser than the first holds no
point near the value but zero, and the last holds the value itself. -/
def upTo (units : Nat) : List DecimalGrid :=
  let wholeDigits := (Nat.toDigits 10 (units / Binary64.unitsInOne)).length
  (List.range (wholeDigits + 1)).reverse.map tens ++ (List.range' 1 1074).map places

end DecimalGrid

namespace Binary64

/-- The value of a finite magnitude, exactly. -/
def exactDecimal (magnitude : Nat) : Decimal := ⟨units magnitude * Nat.pow 5 1074, 1074⟩

/-- Whether a decimal fraction reads back as the given magnitude. -/
def readsBack (magnitude : Nat) (d : Decimal) : Bool := d.toBinary64.magnitude == magnitude

/-- The shortest decimal fraction that reads back as a finite magnitude. -/
def shortestDecimal (magnitude : Nat) : Decimal :=
  let candidates := fun grid : DecimalGrid =>
    (grid.neighbours (units magnitude)).find? (readsBack magnitude)
  ((DecimalGrid.upTo (units magnitude)).findSome? candidates).getD (exactDecimal magnitude)

/-- The text of a number without its sign. -/
def magnitudeText (magnitude : Nat) : List Char :=
  if magnitude < infiniteMagnitude then (shortestDecimal magnitude).text else "inf".toList

/-- The text of a number. A NaN has no sign. -/
def text (x : Binary64) : String :=
  if x.isNaN then "NaN"
  else String.ofList (if x.negative then '-' :: magnitudeText x.magnitude
    else magnitudeText x.magnitude)

end Binary64

end ExprShell
