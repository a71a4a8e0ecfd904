import ExprShell.Number.Shortest
/-!
# Tokens

The words of the language and their names in messages. The end of the input is no token; where it
can occur a token is optional.
-/

namespace ExprShell

/-- A token: one of the two keywords, a name, a number, or any other character. -/
inductive Token
  | define
  | declare
  | name (text : String)
  | number (value : Binary64)
  | symbol (char : Char)
deriving DecidableEq, Repr

namespace Token

/-- The keyword that starts a definition. -/
def defineWord : String := "def"

/-- The keyword that starts a declaration of a function defined elsewhere. -/
def declareWord : String := "extern"

/-- The token that a word stands for. -/
def ofWord (word : String) : Token :=
  if word = defineWord then define
  else if word = declareWord then declare
  else name word

/-- How a message names what was found: a token, or the end of the input. -/
def describe : Option Token -> String
  | none => "end of input"
  | some define => "'" ++ defineWord ++ "'"
  | some declare => "'" ++ declareWord ++ "'"
  | some (name text) => "identifier '" ++ text ++ "'"
  | some (number value) => "number " ++ value.text
  | some (symbol char) => "'" ++ String.singleton char ++ "'"

end Token

end ExprShell
