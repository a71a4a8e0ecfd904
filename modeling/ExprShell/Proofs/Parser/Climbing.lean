import ExprShell.Proofs.Parser.Runs
/-!
# Reading expressions step by step

One rule for each token that belongs to an expression: what the parser still has to do in front of
it is what it has to do from another state behind it. The rules hold for every operator table; those
about brackets and separators ask that these are no operators.
-/

namespace ExprShell

/-- A table in which the signs that structure expressions are no operators. -/
structure Operators.LeavesSigns (operators : Operators) : Prop where
  opening : operators.precedence? '(' = none
  closing : operators.precedence? ')' = none
  separator : operators.precedence? ',' = none

/-- Whether a token can be the first of an operand. -/
def Token.startsOperand : Token -> Bool
  | number _ => true
  | name _ => true
  | token => token == ExpressionState.opening

/-- Tokens whose first starts an operand do not go on with one that starts none. -/
theorem head?_ne_of_startsOperand {tokens : List Token}
    (starts : ∃ first, tokens.head? = some first ∧ first.startsOperand = true) {token : Token}
    (other : token.startsOperand = false) : tokens.head? ≠ some token := by
  obtain ⟨first, found, startsFirst⟩ := starts
  rw [found]
  rintro same
  obtain rfl := Option.some.inj same
  simp [other] at startsFirst

namespace Operators

variable {operators : Operators} {char : Char}

theorem binary?_symbol_of_none (unregistered : operators.precedence? char = none) :
    operators.binary? (some (.symbol char)) = none := by
  simp [binary?, unregistered]

theorem binary?_symbol_of_some {precedence : Nat}
    (registered : operators.precedence? char = some precedence) :
    operators.binary? (some (.symbol char)) = some (char, precedence) := by
  simp [binary?, registered]

/-- Only a registered symbol is an operator. -/
theorem eq_symbol_of_binary? {token : Option Token} {precedence : Nat}
    (operator : operators.binary? token = some (char, precedence)) :
    token = some (.symbol char) ∧ operators.precedence? char = some precedence := by
  match token with
  | some (.symbol other) =>
    simp only [binary?, Option.map_eq_some_iff, Prod.mk.injEq] at operator
    obtain ⟨_, registered, rfl, rfl⟩ := operator
    exact ⟨rfl, registered⟩
  | none | some .define | some .declare | some (.name _) | some (.number _) =>
    simp [binary?] at operator

/-- An operator is no bracket. -/
theorem LeavesSigns.ne_opening (leaves : operators.LeavesSigns) {precedence : Nat}
    (registered : operators.precedence? char = some precedence) :
    Token.symbol char ≠ ExpressionState.opening := by
  intro same
  obtain rfl : char = '(' := Token.symbol.inj same
  simp [leaves.opening] at registered

end Operators

namespace ExpressionState

variable {operators : Operators} {least : Nat} {outer : List Level} {waiting : List Pending}
  {rest : List Token}

/-- What the expression parser gives from a state on. -/
def parse (operators : Operators) (least : Nat) (state : ExpressionState) (tokens : List Token) :
    Except SyntaxError Expr × List Token :=
  (Parser.expressionFrom operators least ⟨[], [], .operand⟩).parseFrom state tokens

theorem parse_start (operators : Operators) (tokens : List Token) :
    (Parser.expression operators).parse tokens = parse operators 0 ⟨[], [], .operand⟩ tokens :=
  rfl

section Runs

variable {state next : ExpressionState}

theorem parse_of_shift {token : Token} (rest : List Token)
    (taken : feed operators least state (some token) = .shift next) :
    parse operators least state (token :: rest) = parse operators least next rest :=
  Parser.parseFrom_of_shift _ rest taken

theorem parse_of_stop {tokens : List Token} {result : Except SyntaxError Expr}
    (stopped : feed operators least state tokens.head? = .stop result) :
    parse operators least state tokens = (result, tokens) :=
  Parser.parseFrom_of_stop _ stopped

theorem parse_congr {state' : ExpressionState} {tokens : List Token}
    (same : feed operators least state tokens.head? = feed operators least state' tokens.head?) :
    parse operators least state tokens = parse operators least state' tokens :=
  Parser.parseFrom_congr _ same

/-- What the expression parser gives from a state on does not depend on where it may start. -/
theorem parseFrom_expressionFrom (start : ExpressionState) (tokens : List Token) :
    (Parser.expressionFrom operators least start).parseFrom state tokens =
      parse operators least state tokens := by
  induction tokens generalizing state with
  | nil =>
    rcases Parser.parseFrom_cases (Parser.expressionFrom operators least start) state [] with
      ⟨_, _, _, none, _, _⟩ | ⟨result, stopped, run⟩
    · simp at none
    · exact run.trans (parse_of_stop stopped).symm
  | cons token rest inductionHypothesis =>
    rcases Parser.parseFrom_cases (Parser.expressionFrom operators least start) state
        (token :: rest) with ⟨_, _, next, same, fed, run⟩ | ⟨result, stopped, run⟩
    · obtain ⟨rfl, rfl⟩ := List.cons.inj same
      rw [run, parse_of_shift rest fed]
      exact inductionHypothesis
    · exact run.trans (parse_of_stop stopped).symm

theorem parse_operatorTail (operators : Operators) (least : Nat) (left : Expr)
    (tokens : List Token) : (Parser.operatorTail operators least left).parse tokens =
      parse operators least (behind [] [] left) tokens :=
  parseFrom_expressionFrom _ tokens

end Runs

/-! ## Operands -/

theorem parse_number (value : Binary64) :
    parse operators least ⟨outer, waiting, .operand⟩ (.number value :: rest) =
      parse operators least (behind outer waiting (.number value)) rest :=
  parse_of_shift rest rfl

theorem parse_name (name : String) :
    parse operators least ⟨outer, waiting, .operand⟩ (.name name :: rest) =
      parse operators least ⟨outer, waiting, .name name⟩ rest :=
  parse_of_shift rest rfl

theorem parse_opening :
    parse operators least ⟨outer, waiting, .operand⟩ (opening :: rest) =
      parse operators least (inside .group outer waiting) rest :=
  parse_of_shift rest rfl

/-- A name that is not called is a variable. -/
theorem parse_reference {name : String} {tokens : List Token}
    (uncalled : tokens.head? ≠ some opening) :
    parse operators least ⟨outer, waiting, .name name⟩ tokens =
      parse operators least (behind outer waiting (.reference name)) tokens := by
  apply parse_congr
  simp only [feed, behind, if_neg uncalled]

theorem parse_callOpening (function : String) :
    parse operators least ⟨outer, waiting, .name function⟩ (opening :: rest) =
      parse operators least ⟨outer, waiting, .firstArgument function⟩ rest :=
  parse_of_shift rest (by simp [feed])

theorem parse_emptyCall (function : String) :
    parse operators least ⟨outer, waiting, .firstArgument function⟩ (closing :: rest) =
      parse operators least (behind outer waiting (.call function [])) rest :=
  parse_of_shift rest (by simp [feed])

/-- Behind the opening bracket of a call the first argument starts, unless there is none. -/
theorem parse_firstArgument {function : String} {tokens : List Token}
    (started : tokens.head? ≠ some closing) :
    parse operators least ⟨outer, waiting, .firstArgument function⟩ tokens =
      parse operators least (inside (.call function []) outer waiting) tokens := by
  apply parse_congr
  simp only [feed, inside, if_neg started]

/-! ## Behind an operand -/

section Behind

variable {value : Expr} {tokens : List Token}

/-- An operator that binds tightly enough completes the waiting ones that bind as tightly. -/
theorem parse_operator {operator : Char} {precedence : Nat}
    (registered : operators.precedence? operator = some precedence)
    (tight : leastPrecedence least outer ≤ precedence) :
    parse operators least (behind outer waiting value) (.symbol operator :: rest) =
      parse operators least
        ⟨outer, ⟨(Pending.reduce precedence waiting value).2, operator, precedence⟩ ::
          (Pending.reduce precedence waiting value).1, .operand⟩ rest := by
  apply parse_of_shift
  simp [feed, behind, feedBehind, Operators.binary?_symbol_of_some registered, tight]

/-- In front of anything but an operator, all waiting operators are complete. -/
theorem feed_behind_of_none (noOperator : operators.binary? tokens.head? = none) :
    feed operators least (behind outer waiting value) tokens.head? =
      close outer waiting value tokens.head? := by
  simp [feed, behind, feedBehind, noOperator]

section Closing

variable {before : List Pending} {function : String} {arguments : List Expr}

/-- A closing bracket closes a group, unless it is an operator. -/
theorem parse_closeGroup_of_none (noOperator : operators.binary? (some closing) = none) :
    parse operators least (behind (⟨.group, before⟩ :: outer) waiting value) (closing :: rest) =
      parse operators least (behind outer before (Pending.completeAll waiting value)) rest := by
  apply parse_of_shift
  rw [← List.head?_cons (a := closing) (l := rest), feed_behind_of_none noOperator]
  simp [close]

/-- A closing bracket closes a call, unless it is an operator. -/
theorem parse_closeCall_of_none (noOperator : operators.binary? (some closing) = none) :
    parse operators least (behind (⟨.call function arguments, before⟩ :: outer) waiting value)
        (closing :: rest) =
      parse operators least (behind outer before
        (.call function (Pending.completeAll waiting value :: arguments).reverse)) rest := by
  apply parse_of_shift
  rw [← List.head?_cons (a := closing) (l := rest), feed_behind_of_none noOperator]
  simp [close]

/-- A separator goes on with the next argument, unless it is an operator. -/
theorem parse_separator_of_none (noOperator : operators.binary? (some separator) = none) :
    parse operators least (behind (⟨.call function arguments, before⟩ :: outer) waiting value)
        (separator :: rest) =
      parse operators least
        (inside (.call function (Pending.completeAll waiting value :: arguments)) outer before)
        rest := by
  apply parse_of_shift
  rw [← List.head?_cons (a := separator) (l := rest), feed_behind_of_none noOperator]
  simp [close, separator, closing]

/-- Anything else behind a group is an error. -/
theorem parse_unclosedGroup (noOperator : operators.binary? tokens.head? = none)
    (unclosed : tokens.head? ≠ some closing) :
    parse operators least (behind (⟨.group, before⟩ :: outer) waiting value) tokens =
      (.error (.expected .closingBracket tokens.head?), tokens) := by
  apply parse_of_stop
  rw [feed_behind_of_none noOperator, close, if_neg unclosed]
  rfl

/-- Anything else behind an argument is an error. -/
theorem parse_unclosedCall (noOperator : operators.binary? tokens.head? = none)
    (unclosed : tokens.head? ≠ some closing) (unseparated : tokens.head? ≠ some separator) :
    parse operators least (behind (⟨.call function arguments, before⟩ :: outer) waiting value)
        tokens = (.error (.expected .argumentEnd tokens.head?), tokens) := by
  apply parse_of_stop
  rw [feed_behind_of_none noOperator, close, if_neg unclosed, if_neg unseparated]
  rfl

theorem parse_closeGroup (leaves : operators.LeavesSigns) :
    parse operators least (behind (⟨.group, before⟩ :: outer) waiting value) (closing :: rest) =
      parse operators least (behind outer before (Pending.completeAll waiting value)) rest :=
  parse_closeGroup_of_none (Operators.binary?_symbol_of_none leaves.closing)

theorem parse_closeCall (leaves : operators.LeavesSigns) :
    parse operators least (behind (⟨.call function arguments, before⟩ :: outer) waiting value)
        (closing :: rest) =
      parse operators least (behind outer before
        (.call function (Pending.completeAll waiting value :: arguments).reverse)) rest :=
  parse_closeCall_of_none (Operators.binary?_symbol_of_none leaves.closing)

theorem parse_separator (leaves : operators.LeavesSigns) :
    parse operators least (behind (⟨.call function arguments, before⟩ :: outer) waiting value)
        (separator :: rest) =
      parse operators least
        (inside (.call function (Pending.completeAll waiting value :: arguments)) outer before)
        rest :=
  parse_separator_of_none (Operators.binary?_symbol_of_none leaves.separator)

end Closing

/-- Outside all brackets an expression ends in front of anything but an operator. -/
theorem parse_end (noOperator : operators.binary? tokens.head? = none) :
    parse operators least (behind [] waiting value) tokens =
      (.ok (Pending.completeAll waiting value), tokens) :=
  parse_of_stop (feed_behind_of_none noOperator)

/-- It ends as well in front of an operator that does not bind tightly enough. -/
theorem parse_end_of_below
    (below : ∀ operator precedence, operators.binary? tokens.head? = some (operator, precedence) →
      precedence < least) :
    parse operators least (behind [] waiting value) tokens =
      (.ok (Pending.completeAll waiting value), tokens) := by
  cases found : operators.binary? tokens.head? with
  | none => exact parse_end found
  | some operator =>
    have loose : ¬ least ≤ operator.2 := Nat.not_le.mpr (below operator.1 operator.2 found)
    apply parse_of_stop
    simp only [feed, behind, feedBehind, found]
    exact if_neg loose

/-- Operators in front of one that binds tighter keep waiting. -/
theorem reduce_of_looser {precedence : Nat} {waiting : List Pending} (value : Expr)
    (looser : ∀ pending ∈ waiting.head?, pending.precedence < precedence) :
    Pending.reduce precedence waiting value = (waiting, value) := by
  cases waiting with
  | nil => rfl
  | cons pending rest =>
    have below := looser pending rfl
    simp [Pending.reduce, Nat.not_le.mpr below]

/-- In front of tokens that leave an operator whole, its operands may as well be joined. -/
theorem parse_join {left right : Expr} {operator : Char} {precedence : Nat}
    (looser : ∀ other strength, operators.binary? tokens.head? = some (other, strength) →
      strength ≤ precedence) :
    parse operators least (behind outer (⟨left, operator, precedence⟩ :: waiting) right) tokens =
      parse operators least (behind outer waiting (.binary operator left right)) tokens := by
  apply parse_congr
  cases found : operators.binary? tokens.head? with
  | none =>
    rw [feed_behind_of_none found, feed_behind_of_none found]
    rfl
  | some next =>
    obtain ⟨other, strength⟩ := next
    have reduced : Pending.reduce strength (⟨left, operator, precedence⟩ :: waiting) right =
        Pending.reduce strength waiting (.binary operator left right) := by
      rw [Pending.reduce, if_pos (looser other strength found), Pending.complete]
    simp only [feed, behind, feedBehind, found, reduced]
    rfl

end Behind

end ExpressionState

end ExprShell
