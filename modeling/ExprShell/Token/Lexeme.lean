import ExprShell.Text.Blank
import ExprShell.Token.Basic
/-!
# Lexemes

A text without its first comment is cut into lexemes by longest match; blanks only separate them.
Each lexeme is one token. Letters and digits are the ASCII ones.
-/

namespace ExprShell

/-- The characters of one token. -/
structure Lexeme where
  first : Char
  others : List Char
deriving DecidableEq, Repr

namespace Lexeme

/-- The characters of a lexeme in order. -/
def chars (lexeme : Lexeme) : List Char := lexeme.first :: lexeme.others

/-- What belongs to the lexeme that starts with a given character, and what comes after it. -/
def split (first : Char) (rest : List Char) : List Char × List Char :=
  if first.isAlpha then (rest.takeWhile Char.isAlphanum, rest.dropWhile Char.isAlphanum)
  else if first.isDigit then
    let whole := rest.takeWhile Char.isDigit
    match rest.dropWhile Char.isDigit with
    | '.' :: after => (whole ++ '.' :: after.takeWhile Char.isDigit, after.dropWhile Char.isDigit)
    | after => (whole, after)
  else if first = '.' then (rest.takeWhile Char.isDigit, rest.dropWhile Char.isDigit)
  else ([], rest)

/-- A lexeme and what follows it make up the text that it was cut from. -/
theorem split_append (first : Char) (rest : List Char) :
    (split first rest).1 ++ (split first rest).2 = rest := by
  unfold split
  repeat' split
  · simp
  · rename_i after found
    simp only [List.append_assoc, List.cons_append, List.takeWhile_append_dropWhile]
    rw [← found, List.takeWhile_append_dropWhile]
  · simp
  · simp
  · simp

theorem split_length_le (first : Char) (rest : List Char) :
    (split first rest).2.length ≤ rest.length := by
  have lengths := congrArg List.length (split_append first rest)
  simp only [List.length_append] at lengths
  omega

/-- The lexemes of a text without comments. -/
def ofText : List Char -> List Lexeme
  | [] => []
  | first :: rest =>
    if isBlank first then ofText rest
    else ⟨first, (split first rest).1⟩ :: ofText (split first rest).2
termination_by text => text.length
decreasing_by
  · simp
  · have bound := split_length_le first rest
    simp only [List.length_cons]
    omega

/-- The decimal fraction that a number lexeme writes. -/
def decimal (lexeme : Lexeme) : Decimal :=
  Decimal.ofDigits (lexeme.chars.takeWhile Char.isDigit)
    ((lexeme.chars.dropWhile Char.isDigit).drop 1)

/-- The token that a lexeme stands for. A point alone is no number. -/
def token (lexeme : Lexeme) : Token :=
  if lexeme.first.isAlpha then Token.ofWord (String.ofList lexeme.chars)
  else if lexeme.first.isDigit || lexeme.first == '.' && !lexeme.others.isEmpty then
    .number lexeme.decimal.toBinary64
  else .symbol lexeme.first

end Lexeme

/-- A text without its first comment, which runs from a `#` to the end of that line. -/
def withoutComment (text : List Char) : List Char :=
  text.takeWhile (· != '#') ++ (text.dropWhile (· != '#')).dropWhile (· != '\n')

/-- The tokens of a text, of which only the first comment is left out. -/
def Token.ofText (text : List Char) : List Token :=
  (Lexeme.ofText (withoutComment text)).map Lexeme.token

end ExprShell
