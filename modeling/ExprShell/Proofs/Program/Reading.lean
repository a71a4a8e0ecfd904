import ExprShell.Printer
import ExprShell.Proofs.Parser.Climbing
/-!
# Printed expressions are read back

The tokens of a printed expression are read as that expression in front of any tokens that do not
take part of it away: no operator that binds tighter than the expression, and no bracket that would
make a call of a name. In the same way the operators that already wait must bind looser.
-/

namespace ExprShell

/-- The precedence of the operator that an expression is made of, if it is made of one. -/
def Expr.strength? (operators : Operators) : Expr -> Option Nat
  | .binary operator _ _ => some (operators.strength operator)
  | _ => none

theorem Operators.strength_of_precedence? {operators : Operators} {operator : Char}
    {precedence : Nat} (registered : operators.precedence? operator = some precedence) :
    operators.strength operator = precedence := by
  rw [Operators.strength, registered, Option.getD_some]

mutual

/-- Whether every operator of an expression is registered. -/
def Expr.isRegistered (operators : Operators) : Expr -> Bool
  | .number _ => true
  | .reference _ => true
  | .binary operator left right =>
    (operators.precedence? operator).isSome && left.isRegistered operators &&
      right.isRegistered operators
  | .call _ arguments => Expr.areRegistered operators arguments

/-- Whether every operator of some expressions is registered. -/
def Expr.areRegistered (operators : Operators) : List Expr -> Bool
  | [] => true
  | expr :: rest => expr.isRegistered operators && Expr.areRegistered operators rest

end

/-- Tokens that leave an expression in front of them whole. -/
structure Expr.EndsBefore (operators : Operators) (expr : Expr) (rest : List Token) : Prop where
  uncalled : rest.head? ≠ some ExpressionState.opening
  looser : ∀ operator precedence, operators.binary? rest.head? = some (operator, precedence) →
    ∀ strength ∈ expr.strength? operators, precedence ≤ strength

/-- Operators that wait for the whole of an expression and not only for its first operand. -/
def Expr.StartsBehind (operators : Operators) (expr : Expr) (waiting : List Pending) : Prop :=
  ∀ pending ∈ waiting.head?, ∀ strength ∈ expr.strength? operators, pending.precedence < strength

namespace ExpressionState

variable {operators : Operators}

/-- That an expression is read back wherever it starts and ends. -/
def ReadsBack (operators : Operators) (expr : Expr) : Prop :=
  ∀ outer waiting rest, expr.StartsBehind operators waiting → expr.EndsBefore operators rest →
    parse operators 0 ⟨outer, waiting, .operand⟩ (expr.tokens operators ++ rest) =
      parse operators 0 (behind outer waiting expr) rest

theorem leastPrecedence_zero (outer : List Level) : leastPrecedence 0 outer = 0 := by
  cases outer <;> rfl

/-- A closing bracket takes nothing away. -/
theorem endsBefore_sign {char : Char} (unregistered : operators.precedence? char = none)
    (noOpening : char ≠ '(') (expr : Expr) (rest : List Token) :
    expr.EndsBefore operators (.symbol char :: rest) := by
  constructor
  · simpa [opening] using noOpening
  · intro operator precedence found
    rw [List.head?_cons, Operators.binary?_symbol_of_none unregistered] at found
    simp at found

/-- An expression in brackets is read back anywhere. -/
theorem parse_bracketed (leaves : operators.LeavesSigns) {expr : Expr}
    (readsBack : ReadsBack operators expr) (outer : List Level) (waiting : List Pending)
    (rest : List Token) :
    parse operators 0 ⟨outer, waiting, .operand⟩ (bracketed (expr.tokens operators) ++ rest) =
      parse operators 0 (behind outer waiting expr) rest := by
  have shape : bracketed (expr.tokens operators) ++ rest =
      opening :: (expr.tokens operators ++ closing :: rest) := by
    simp [bracketed]
  have alone : expr.StartsBehind operators [] := by simp [Expr.StartsBehind]
  have ends : expr.EndsBefore operators (closing :: rest) :=
    endsBefore_sign leaves.closing (by decide) expr rest
  rw [shape, parse_opening, inside, readsBack _ _ _ alone ends, parse_closeGroup leaves]
  rfl

/-- The first token of an expression starts an operand. -/
theorem head?_tokens (expr : Expr) (rest : List Token) :
    ∃ token, (expr.tokens operators ++ rest).head? = some token ∧ token.startsOperand = true := by
  match expr with
  | .number value => exact ⟨.number value, by simp [Expr.tokens], rfl⟩
  | .reference name => exact ⟨.name name, by simp [Expr.tokens], rfl⟩
  | .call function _ => exact ⟨.name function, by simp [Expr.tokens], rfl⟩
  | .binary operator left right =>
    rw [Expr.tokens]
    by_cases brackets : left.bracketsLeft operators operator = true
    · exact ⟨opening, by simp [brackets, bracketed], rfl⟩
    · simp only [brackets, Bool.false_eq_true, if_false, List.append_assoc]
      exact head?_tokens left _

theorem head?_tokens_ne {token : Token} (other : token.startsOperand = false) (expr : Expr)
    (rest : List Token) : (expr.tokens operators ++ rest).head? ≠ some token :=
  head?_ne_of_startsOperand (head?_tokens expr rest) other

/-- An unbracketed operand on the left binds at least as tightly as the operator behind it. -/
theorem strength_le_of_not_bracketsLeft {operator : Char} {left : Expr}
    (bare : left.bracketsLeft operators operator = false) :
    ∀ strength ∈ left.strength? operators, operators.strength operator ≤ strength := by
  intro strength found
  cases left with
  | binary inner _ _ =>
    obtain rfl := Option.some.inj found
    simpa [Expr.bracketsLeft] using bare
  | _ => simp [Expr.strength?] at found

/-- An unbracketed operand on the right binds tighter than the operator in front of it. -/
theorem strength_lt_of_not_bracketsRight {operator : Char} {right : Expr}
    (bare : right.bracketsRight operators operator = false) :
    ∀ strength ∈ right.strength? operators, operators.strength operator < strength := by
  intro strength found
  cases right with
  | binary inner _ _ =>
    obtain rfl := Option.some.inj found
    simpa [Expr.bracketsRight] using bare
  | _ => simp [Expr.strength?] at found

section Operands

variable {outer : List Level} {waiting : List Pending} {operator : Char} {precedence : Nat}
  {rest : List Token}

/-- The left operand of an operator is read back in front of it. -/
theorem parse_left (leaves : operators.LeavesSigns)
    (registered : operators.precedence? operator = some precedence) {left : Expr}
    (readsBack : ReadsBack operators left)
    (behindLooser : ∀ pending ∈ waiting.head?, pending.precedence < precedence) :
    parse operators 0 ⟨outer, waiting, .operand⟩
        ((if left.bracketsLeft operators operator then bracketed (left.tokens operators)
          else left.tokens operators) ++ .symbol operator :: rest) =
      parse operators 0 (behind outer waiting left) (.symbol operator :: rest) := by
  have strength := Operators.strength_of_precedence? registered
  cases brackets : left.bracketsLeft operators operator with
  | true => exact parse_bracketed leaves readsBack outer waiting _
  | false =>
    have tighter := strength_le_of_not_bracketsLeft brackets
    rw [strength] at tighter
    have starts : left.StartsBehind operators waiting := fun pending found strength outside =>
      Nat.lt_of_lt_of_le (behindLooser pending found) (tighter strength outside)
    have ends : left.EndsBefore operators (.symbol operator :: rest) := by
      constructor
      · simpa using leaves.ne_opening registered
      · intro other strength found
        rw [List.head?_cons, Operators.binary?_symbol_of_some registered] at found
        obtain ⟨rfl, rfl⟩ := Prod.mk.inj (Option.some.inj found)
        exact tighter
    exact readsBack outer waiting _ starts ends

/-- The right operand of an operator is read back in front of tokens that leave the operator
whole. -/
theorem parse_right (leaves : operators.LeavesSigns)
    (registered : operators.precedence? operator = some precedence) {left right : Expr}
    (readsBack : ReadsBack operators right)
    (ends : (Expr.binary operator left right).EndsBefore operators rest) :
    parse operators 0 ⟨outer, ⟨left, operator, precedence⟩ :: waiting, .operand⟩
        ((if right.bracketsRight operators operator then bracketed (right.tokens operators)
          else right.tokens operators) ++ rest) =
      parse operators 0 (behind outer waiting (.binary operator left right)) rest := by
  have strength := Operators.strength_of_precedence? registered
  have looser : ∀ other strength, operators.binary? rest.head? = some (other, strength) →
      strength ≤ precedence :=
    fun other bound found => ends.looser other bound found _ (by simp [Expr.strength?, strength])
  rw [← parse_join looser]
  cases brackets : right.bracketsRight operators operator with
  | true => exact parse_bracketed leaves readsBack outer _ rest
  | false =>
    have tighter := strength_lt_of_not_bracketsRight brackets
    rw [strength] at tighter
    have starts : right.StartsBehind operators (⟨left, operator, precedence⟩ :: waiting) := by
      intro pending found strength outside
      obtain rfl := Option.some.inj found
      exact tighter strength outside
    have endsToo : right.EndsBefore operators rest := by
      refine ⟨ends.uncalled, fun other bound found strength outside => ?_⟩
      exact Nat.le_of_lt (Nat.lt_of_le_of_lt (looser other bound found) (tighter strength outside))
    exact readsBack outer _ rest starts endsToo

end Operands

/-- An argument ends in front of those behind it, and in front of the closing bracket. -/
theorem endsBefore_laterTokens (leaves : operators.LeavesSigns) (expr : Expr)
    (others : List Expr) (rest : List Token) :
    expr.EndsBefore operators (Expr.laterTokens operators others ++ closing :: rest) := by
  cases others with
  | nil => exact endsBefore_sign leaves.closing (by decide) expr rest
  | cons next later => exact endsBefore_sign leaves.separator (by decide) expr _

mutual

/-- Every expression with registered operators is read back. -/
theorem readsBack_tokens (leaves : operators.LeavesSigns) (expr : Expr)
    (registered : expr.isRegistered operators = true) : ReadsBack operators expr := by
  intro outer waiting rest starts ends
  match expr with
  | .number value =>
    rw [Expr.tokens, List.singleton_append, parse_number]
  | .reference name =>
    rw [Expr.tokens, List.singleton_append, parse_name, parse_reference ends.uncalled]
  | .binary operator left right =>
    simp only [Expr.isRegistered, Bool.and_eq_true, Option.isSome_iff_exists] at registered
    obtain ⟨⟨⟨precedence, found⟩, leftRegistered⟩, rightRegistered⟩ := registered
    have strength := Operators.strength_of_precedence? found
    have behindLooser : ∀ pending ∈ waiting.head?, pending.precedence < precedence :=
      fun pending first => starts pending first _ (by simp [Expr.strength?, strength])
    have readLeft := readsBack_tokens leaves left leftRegistered
    have readRight := readsBack_tokens leaves right rightRegistered
    rw [Expr.tokens, List.append_assoc, List.cons_append, parse_left leaves found readLeft
      behindLooser, parse_operator found (by simp [leastPrecedence_zero]),
      reduce_of_looser left behindLooser, parse_right leaves found readRight ends]
  | .call function [] =>
    simp only [Expr.tokens, Expr.argumentTokens, bracketed, List.cons_append, List.nil_append]
    rw [parse_name, parse_callOpening, parse_emptyCall]
  | .call function (first :: others) =>
    simp only [Expr.isRegistered, Expr.areRegistered, Bool.and_eq_true] at registered
    have readFirst := readsBack_tokens leaves first registered.1
    have alone : first.StartsBehind operators [] := by simp [Expr.StartsBehind]
    have endsFirst := endsBefore_laterTokens leaves first others rest
    have shape : (Expr.call function (first :: others)).tokens operators ++ rest =
        .name function :: opening :: (first.tokens operators ++
          (Expr.laterTokens operators others ++ closing :: rest)) := by
      simp [Expr.tokens, Expr.argumentTokens, bracketed]
    rw [shape, parse_name, parse_callOpening,
      parse_firstArgument (head?_tokens_ne (by decide) first _), inside,
      readFirst _ _ _ alone endsFirst,
      parse_laterTokens leaves others registered.2]
    rfl

/-- The arguments of a call behind the first one are read back up to the closing bracket. -/
theorem parse_laterTokens (leaves : operators.LeavesSigns) (exprs : List Expr)
    (registered : Expr.areRegistered operators exprs = true) (outer : List Level)
    (waiting : List Pending) (function : String) (done : List Expr) (value : Expr)
    (rest : List Token) :
    parse operators 0 (behind (⟨.call function done, waiting⟩ :: outer) [] value)
        (Expr.laterTokens operators exprs ++ closing :: rest) =
      parse operators 0 (behind outer waiting
        (.call function ((value :: done).reverse ++ exprs))) rest := by
  match exprs with
  | [] =>
    rw [Expr.laterTokens, List.nil_append, parse_closeCall leaves, List.append_nil]
    rfl
  | next :: others =>
    simp only [Expr.areRegistered, Bool.and_eq_true] at registered
    have readNext := readsBack_tokens leaves next registered.1
    have alone : next.StartsBehind operators [] := by simp [Expr.StartsBehind]
    have endsNext := endsBefore_laterTokens leaves next others rest
    have nothing : Pending.completeAll [] value = value := rfl
    rw [Expr.laterTokens, List.cons_append, List.append_assoc, parse_separator leaves, nothing,
      inside, readNext _ _ _ alone endsNext, parse_laterTokens leaves others registered.2]
    simp

end

end ExpressionState

end ExprShell
