import ExprShell.Number.Decimal
/-!
# Number notation

The texts that stand for double precision numbers: an optional sign and behind it an infinity, NaN,
or a decimal fraction with an optional exponent. A lexeme uses only a small part of this notation.
-/

namespace ExprShell

namespace Notation

/-- Whether a text starts with a minus, and the text without its sign. -/
def takeSign : List Char -> Bool × List Char
  | '-' :: rest => (true, rest)
  | '+' :: rest => (false, rest)
  | text => (false, text)

/-- The decimal fraction at the start of a text, and what is behind it: digits, one at least, with
at most one point in front of them, between them or behind them. -/
def takeDecimal? (text : List Char) : Option (Decimal × List Char) :=
  let whole := text.takeWhile Char.isDigit
  let behind := text.dropWhile Char.isDigit
  let (fraction, rest) :=
    if behind.head? = some '.' then
      (behind.tail.takeWhile Char.isDigit, behind.tail.dropWhile Char.isDigit)
    else ([], behind)
  if whole ++ fraction = [] then none else some (Decimal.ofDigits whole fraction, rest)

/-- The number that an exponent writes, which is zero if there is none. -/
def exponent? : List Char -> Option Int
  | [] => some 0
  | mark :: rest =>
    let (negative, digits) := takeSign rest
    if (mark = 'e' ∨ mark = 'E') ∧ digits ≠ [] ∧ digits.all Char.isDigit then
      let size : Int := Nat.ofDigitChars 10 digits 0
      some (if negative then -size else size)
    else none

end Notation

namespace Binary64

/-- Positive infinity. -/
def infinity : Binary64 := ⟨false, infiniteMagnitude, by decide⟩

/-- The usual one of the bit patterns that stand for no number. -/
def quietNaN : Binary64 := ⟨false, infiniteMagnitude + exponentUnit / 2, by decide⟩

open Notation

/-- The number that a text without a sign stands for. The words may be written in any case. -/
def ofUnsignedText? (text : List Char) : Option Binary64 :=
  let word := text.map Char.toLower
  if word = "inf".toList ∨ word = "infinity".toList then some infinity
  else if word = "nan".toList then some quietNaN
  else do
    let (d, behind) ← takeDecimal? text
    let exponent ← exponent? behind
    return nearest (d.digits * Nat.pow 10 exponent.toNat)
      (Nat.pow 10 (d.places + (-exponent).toNat))

/-- The number that a text stands for, rounded to the nearest one. -/
def ofText? (text : List Char) : Option Binary64 :=
  let (negative, unsigned) := takeSign text
  (ofUnsignedText? unsigned).map fun x => { x with negative := negative }

end Binary64

end ExprShell
