import ExprShell.Printer
import Mathlib.Data.List.Forall2
/-!
# The grammar of items

A phrase is a sequence of operands with operators between them; an operand is a number, a name, a
call with phrases for its arguments, or a phrase in brackets. A sentence is a definition, a
declaration or a phrase.

A phrase does not say how its operators are nested. It writes every expression that has its operands
and operators from left to right; which of these a parser makes of it is up to the precedences.
-/

namespace ExprShell

/-- Whether a character is an operator under a table. -/
def Operators.Registers (operators : Operators) (operator : Char) : Prop :=
  (operators.precedence? operator).isSome = true

theorem Operators.Registers.precedence?_eq {operators : Operators} {operator : Char}
    (registered : operators.Registers operator) :
    operators.precedence? operator = some (operators.strength operator) := by
  obtain ⟨precedence, found⟩ := Option.isSome_iff_exists.mp registered
  simp [Operators.strength, found]

mutual

/-- An operand as it is written. -/
inductive Operand (operators : Operators)
  | number (value : Binary64)
  | reference (name : String)
  | call (function : String) (arguments : List (Phrase operators))
  | group (inner : Phrase operators)

/-- Operands with registered operators between them. -/
inductive Phrase (operators : Operators)
  | operand (only : Operand operators)
  | chain (first : Operand operators) (operator : Char) (registered : operators.Registers operator)
      (later : Phrase operators)

end

/-- An operand and the operator behind it. -/
structure Opened (operators : Operators) where
  operand : Operand operators
  operator : Char
  registered : operators.Registers operator

variable {operators : Operators}

mutual

/-- The tokens of an operand. -/
def Operand.tokens : Operand operators -> List Token
  | .number value => [.number value]
  | .reference name => [.name name]
  | .call function arguments => .name function :: bracketed (Phrase.argumentTokens arguments)
  | .group inner => bracketed inner.tokens

/-- The tokens of a phrase. -/
def Phrase.tokens : Phrase operators -> List Token
  | .operand only => only.tokens
  | .chain first operator _ later => first.tokens ++ .symbol operator :: later.tokens

/-- The tokens of some phrases, with separators in between. -/
def Phrase.argumentTokens : List (Phrase operators) -> List Token
  | [] => []
  | [only] => only.tokens
  | first :: second :: others =>
    first.tokens ++ ExpressionState.separator :: Phrase.argumentTokens (second :: others)

end

/-- The tokens of some operands with an operator behind each. -/
def Opened.tokens (before : List (Opened operators)) : List Token :=
  before.flatMap fun opened => opened.operand.tokens ++ [.symbol opened.operator]

namespace Phrase

/-- A phrase with some operands in front. -/
def behind (before : List (Opened operators)) (phrase : Phrase operators) : Phrase operators :=
  before.foldr (fun opened later => .chain opened.operand opened.operator opened.registered later)
    phrase

/-- The operands of a phrase behind which an operator follows. -/
def opened (operator : Char) (registered : operators.Registers operator) :
    Phrase operators -> List (Opened operators)
  | .operand only => [⟨only, operator, registered⟩]
  | .chain first inner innerRegistered later =>
    ⟨first, inner, innerRegistered⟩ :: later.opened operator registered

/-- Two phrases with an operator between them. -/
def join (left : Phrase operators) (operator : Char) (registered : operators.Registers operator)
    (right : Phrase operators) : Phrase operators :=
  right.behind (left.opened operator registered)

end Phrase

mutual

/-- The expressions that an operand writes. -/
inductive Operand.Writes : Operand operators -> Expr -> Prop
  | number (value : Binary64) : Operand.Writes (.number value) (.number value)
  | reference (name : String) : Operand.Writes (.reference name) (.reference name)
  | call (function : String) {phrases : List (Phrase operators)} {arguments : List Expr}
      (each : List.Forall₂ Phrase.Writes phrases arguments) :
      Operand.Writes (.call function phrases) (.call function arguments)
  | group {inner : Phrase operators} {expr : Expr} (writes : Phrase.Writes inner expr) :
      Operand.Writes (.group inner) expr

/-- The expressions that a phrase writes: it may be cut at any of its operators. -/
inductive Phrase.Writes : Phrase operators -> Expr -> Prop
  | operand {only : Operand operators} {expr : Expr} (writes : Operand.Writes only expr) :
      Phrase.Writes (.operand only) expr
  | join {left right : Phrase operators} {leftExpr rightExpr : Expr} {operator : Char}
      (registered : operators.Registers operator) (leftWrites : Phrase.Writes left leftExpr)
      (rightWrites : Phrase.Writes right rightExpr) :
      Phrase.Writes (left.join operator registered right) (.binary operator leftExpr rightExpr)

end

/-- An item as it is written. -/
inductive Sentence (operators : Operators)
  | definition (prototype : Prototype) (body : Phrase operators)
  | declaration (prototype : Prototype)
  | expression (body : Phrase operators)

namespace Sentence

/-- The tokens of a sentence. -/
def tokens : Sentence operators -> List Token
  | definition prototype body => .define :: prototype.tokens ++ body.tokens
  | declaration prototype => .declare :: prototype.tokens
  | expression body => body.tokens

/-- The items that a sentence writes. -/
inductive Writes : Sentence operators -> Item -> Prop
  | definition (prototype : Prototype) {body : Phrase operators} {expr : Expr}
      (writes : body.Writes expr) :
      Writes (.definition prototype body) (.definition ⟨prototype, expr⟩)
  | declaration (prototype : Prototype) : Writes (.declaration prototype) (.declaration prototype)
  | expression {body : Phrase operators} {expr : Expr} (writes : body.Writes expr) :
      Writes (.expression body) (.expression expr)

end Sentence

/-- Tokens that do not go on with a phrase in front of them: no operator, and no bracket that would
make a call of a name at the end. -/
structure Phrase.EndsBefore (phrase : Phrase operators) (rest : List Token) : Prop where
  noOperator : operators.binary? rest.head? = none
  uncalled : ∀ name, phrase.tokens.getLast? = some (.name name) →
    rest.head? ≠ some ExpressionState.opening

/-- Tokens that do not go on with a sentence in front of them. A declaration ends by itself. -/
def Sentence.EndsBefore (rest : List Token) : Sentence operators -> Prop
  | .definition _ body => body.EndsBefore rest
  | .declaration _ => True
  | .expression body => body.EndsBefore rest

/-- A sentence in front of some tokens that do not go on with it. -/
structure Sentence.Stands (sentence : Sentence operators) (tokens rest : List Token) : Prop where
  tokens_eq : tokens = sentence.tokens ++ rest
  ends : sentence.EndsBefore rest

end ExprShell
