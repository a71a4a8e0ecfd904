import ExprShell.Operators
import ExprShell.Parser.Basic
/-!
# Reading expressions

An expression is a sequence of operands with binary operators between them; an operand is a number,
a variable, a call, or an expression in brackets. The parser keeps what is open: for each open
bracket the operators in front of it that still wait for their right operands, and the same for the
place where it stands. An operator that arrives completes the waiting ones that bind at least as
tightly as it does, so equal precedence associates to the left.

An operator is recognised before anything else that its character may stand for behind an operand.
Only an opening bracket right behind a name is always the start of a call.
-/

namespace ExprShell

/-- An operator with its left operand, waiting for the right one. -/
structure Pending where
  left : Expr
  operator : Char
  precedence : Nat

namespace Pending

/-- The operator with its operands. -/
def complete (pending : Pending) (right : Expr) : Expr :=
  .binary pending.operator pending.left right

/-- Completes the operators, innermost first, that bind at least as tightly as a given precedence.
Gives the others and the operand in front of which they wait. -/
def reduce (precedence : Nat) : List Pending -> Expr -> List Pending × Expr
  | [], value => ([], value)
  | pending :: rest, value =>
    if precedence ≤ pending.precedence then reduce precedence rest (pending.complete value)
    else (pending :: rest, value)

/-- Completes all operators, innermost first. -/
def completeAll (waiting : List Pending) (value : Expr) : Expr :=
  waiting.foldl (fun right pending => pending.complete right) value

end Pending

/-- What an open bracket is for: grouping, or the arguments of a call, of which those already
complete are kept latest first. -/
inductive Bracket
  | group
  | call (function : String) (arguments : List Expr)

/-- An open bracket and the operators that wait in front of it, innermost first. -/
structure Level where
  bracket : Bracket
  waiting : List Pending

/-- What is known about the current operand: nothing yet, a name that may be called, a call whose
brackets may be empty, or its value. -/
inductive Focus
  | operand
  | name (name : String)
  | firstArgument (function : String)
  | value (value : Expr)

/-- Everything that is open in front of the next token. -/
structure ExpressionState where
  outer : List Level
  waiting : List Pending
  focus : Focus

namespace ExpressionState

/-- The token that opens brackets. -/
def opening : Token := .symbol '('

/-- The token that closes brackets. -/
def closing : Token := .symbol ')'

/-- The token between arguments. -/
def separator : Token := .symbol ','

/-- Goes on behind a complete operand. -/
def behind (outer : List Level) (waiting : List Pending) (value : Expr) : ExpressionState :=
  ⟨outer, waiting, .value value⟩

/-- Goes on inside a bracket that was just opened. -/
def inside (bracket : Bracket) (outer : List Level) (waiting : List Pending) : ExpressionState :=
  ⟨⟨bracket, waiting⟩ :: outer, [], .operand⟩

/-- Ends the expression inside the innermost bracket, or the whole one, in front of a token. -/
def close (outer : List Level) (waiting : List Pending) (value : Expr) (token : Option Token) :
    Verdict ExpressionState Expr :=
  let inner := Pending.completeAll waiting value
  match outer with
  | [] => .accept inner
  | ⟨.group, waiting⟩ :: outer =>
    if token = some closing then .shift (behind outer waiting inner)
    else .reject (.expected .closingBracket token)
  | ⟨.call function arguments, waiting⟩ :: outer =>
    if token = some closing then
      .shift (behind outer waiting (.call function (inner :: arguments).reverse))
    else if token = some separator then
      .shift (inside (.call function (inner :: arguments)) outer waiting)
    else .reject (.expected .argumentEnd token)

/-- The least precedence an operator needs to belong to the innermost expression. Inside brackets
every operator does. -/
def leastPrecedence (least : Nat) : List Level -> Nat
  | [] => least
  | _ :: _ => 0

/-- Takes an operator behind an operand, or ends the innermost expression. -/
def feedBehind (operators : Operators) (least : Nat) (outer : List Level)
    (waiting : List Pending) (value : Expr) (token : Option Token) :
    Verdict ExpressionState Expr :=
  match operators.binary? token with
  | some (operator, precedence) =>
    if leastPrecedence least outer ≤ precedence then
      let (waiting, left) := Pending.reduce precedence waiting value
      .shift ⟨outer, ⟨left, operator, precedence⟩ :: waiting, .operand⟩
    else close outer waiting value token
  | none => close outer waiting value token

/-- Starts an operand. -/
def feedOperand (outer : List Level) (waiting : List Pending) (token : Option Token) :
    Verdict ExpressionState Expr :=
  match token with
  | some (.number value) => .shift (behind outer waiting (.number value))
  | some (.name name) => .shift ⟨outer, waiting, .name name⟩
  | some (.symbol '(') => .shift (inside .group outer waiting)
  | _ => .reject (.unknownToken token)

/-- Goes one token on. -/
def feed (operators : Operators) (least : Nat) (state : ExpressionState) (token : Option Token) :
    Verdict ExpressionState Expr :=
  match state.focus with
  | .operand => feedOperand state.outer state.waiting token
  | .name name =>
    if token = some opening then .shift { state with focus := .firstArgument name }
    else feedBehind operators least state.outer state.waiting (.reference name) token
  | .firstArgument function =>
    if token = some closing then .shift (behind state.outer state.waiting (.call function []))
    else feedOperand (⟨.call function [], state.waiting⟩ :: state.outer) [] token
  | .value value => feedBehind operators least state.outer state.waiting value token

theorem close_end (outer : List Level) (waiting : List Pending) (value : Expr)
    (next : ExpressionState) : close outer waiting value none ≠ .shift next := by
  unfold close
  split <;> simp

theorem feedBehind_end (operators : Operators) (least : Nat) (outer : List Level)
    (waiting : List Pending) (value : Expr) (next : ExpressionState) :
    feedBehind operators least outer waiting value none ≠ .shift next :=
  close_end outer waiting value next

theorem feedOperand_end (outer : List Level) (waiting : List Pending) (next : ExpressionState) :
    feedOperand outer waiting none ≠ .shift next := by
  simp [feedOperand]

/-- No state takes the end of the input. -/
theorem feed_end (operators : Operators) (least : Nat) (state next : ExpressionState) :
    feed operators least state none ≠ .shift next := by
  unfold feed
  split
  · exact feedOperand_end _ _ _
  · simpa using feedBehind_end operators least _ _ _ next
  · simpa using feedOperand_end _ _ next
  · exact feedBehind_end operators least _ _ _ next

end ExpressionState

namespace Parser

/-- The parser that goes on from a given state. Outside brackets it takes only operators that bind
at least as tightly as a given precedence. -/
def expressionFrom (operators : Operators) (least : Nat) (start : ExpressionState) :
    Parser Expr where
  State := ExpressionState
  start := start
  feed := ExpressionState.feed operators least
  feed_end := ExpressionState.feed_end operators least

/-- The parser of expressions. -/
def expression (operators : Operators) : Parser Expr :=
  expressionFrom operators 0 ⟨[], [], .operand⟩

/-- The parser of what may follow a first operand: operators that bind at least as tightly as a
given precedence, with their right operands. -/
def operatorTail (operators : Operators) (least : Nat) (left : Expr) : Parser Expr :=
  expressionFrom operators least ⟨[], [], .value left⟩

end Parser

end ExprShell
