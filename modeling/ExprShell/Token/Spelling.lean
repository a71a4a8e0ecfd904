import ExprShell.Token.Lexeme
/-!
# Spelling of tokens

Every token that a text can hold has a spelling, which is one lexeme, and a list of tokens is
spelled with single spaces in between.
-/

namespace ExprShell

/-- Whether a text is a name: letters and digits, a letter first, and neither of the keywords. -/
def isName (text : String) : Bool :=
  match text.toList with
  | first :: others =>
    first.isAlpha && others.all Char.isAlphanum && text != Token.defineWord &&
      text != Token.declareWord
  | [] => false

/-- Whether a character is a token of its own wherever it stands between spaces. -/
def isSymbol (char : Char) : Bool := !isBlank char && !char.isAlphanum && char != '#'

namespace Token

/-- Whether a text can hold a token: names are names, numbers are finite and have no sign, and
symbols are symbols. -/
def isSpellable : Token -> Bool
  | define => true
  | declare => true
  | name text => isName text
  | number value => value.isFinite && !value.negative
  | symbol char => isSymbol char

/-- The characters that a token is written with. -/
def spelling : Token -> List Char
  | define => defineWord.toList
  | declare => declareWord.toList
  | name text => text.toList
  | number value => value.text.toList
  | symbol char => [char]

/-- The text of a list of tokens, with a space between neighbours. -/
def spaced (tokens : List Token) : List Char := [' '].intercalate (tokens.map spelling)

end Token

end ExprShell
