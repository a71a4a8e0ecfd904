import ExprShell.Parser.Items
import ExprShell.Token.Spelling
/-!
# Printing programs

An expression is printed with the fewest brackets under an operator table: a left operand is put in
brackets when its operator binds looser, a right operand also when it binds equally.
-/

namespace ExprShell

/-- The precedence that decides about brackets. -/
def Operators.strength (operators : Operators) (operator : Char) : Nat :=
  (operators.precedence? operator).getD 0

/-- Tokens in brackets. -/
def bracketed (tokens : List Token) : List Token :=
  ExpressionState.opening :: tokens ++ [ExpressionState.closing]

namespace Expr

/-- Whether a left operand has to be put in brackets. -/
def bracketsLeft (operators : Operators) (operator : Char) : Expr -> Bool
  | binary inner _ _ => decide (operators.strength inner < operators.strength operator)
  | _ => false

/-- Whether a right operand has to be put in brackets. -/
def bracketsRight (operators : Operators) (operator : Char) : Expr -> Bool
  | binary inner _ _ => decide (operators.strength inner ≤ operators.strength operator)
  | _ => false

mutual

/-- The tokens of an expression. -/
def tokens (operators : Operators) : Expr -> List Token
  | number value => [.number value]
  | reference name => [.name name]
  | binary operator left right =>
    let leftTokens := tokens operators left
    let rightTokens := tokens operators right
    (if left.bracketsLeft operators operator then bracketed leftTokens else leftTokens) ++
      .symbol operator ::
        (if right.bracketsRight operators operator then bracketed rightTokens else rightTokens)
  | call function arguments => .name function :: bracketed (argumentTokens operators arguments)

/-- The tokens of the arguments of a call, with separators in between. -/
def argumentTokens (operators : Operators) : List Expr -> List Token
  | [] => []
  | expr :: rest => tokens operators expr ++ laterTokens operators rest

/-- The tokens of the arguments after the first, each behind a separator. -/
def laterTokens (operators : Operators) : List Expr -> List Token
  | [] => []
  | expr :: rest =>
    ExpressionState.separator :: (tokens operators expr ++ laterTokens operators rest)

end

end Expr

/-- The tokens of a prototype. -/
def Prototype.tokens (prototype : Prototype) : List Token :=
  .name prototype.name :: bracketed (prototype.parameters.map .name)

/-- The tokens of an item. -/
def Item.tokens (operators : Operators) : Item -> List Token
  | declaration prototype => .declare :: prototype.tokens
  | definition function =>
    .define :: function.prototype.tokens ++ function.body.tokens operators
  | expression body => body.tokens operators

/-- The tokens of a program, in which a separator stands behind every item. -/
def programTokens (operators : Operators) (items : List Item) : List Token :=
  items.flatMap fun item => item.tokens operators ++ [.itemSeparator]

/-- The text of a program. -/
def programText (operators : Operators) (items : List Item) : List Char :=
  Token.spaced (programTokens operators items)

end ExprShell
