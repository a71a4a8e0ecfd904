import ExprShell.Proofs.Grammar.Sentences
import ExprShell.Proofs.Parser.Items
/-!
# Sentences are accepted

Every sentence of the grammar is read to its last token and no further, wherever the tokens behind
it do not go on with it. What it is read as is told by climbing over its operands with the operators
that wait; whatever the precedences, that expression is one that the sentence writes.
-/

namespace ExprShell

variable {operators : Operators}

mutual

/-- The expression that an operand is read as. -/
def Operand.expr : Operand operators -> Expr
  | .number value => .number value
  | .reference name => .reference name
  | .call function arguments => .call function (Phrase.exprs arguments)
  | .group inner => Pending.completeAll (inner.climb []).1 (inner.climb []).2

/-- Goes over a phrase behind operators that wait: those that wait at its end, and its last
operand with what it completes. -/
def Phrase.climb : Phrase operators -> List Pending -> List Pending × Expr
  | .operand only, waiting => (waiting, only.expr)
  | .chain first operator _ later, waiting =>
    let precedence := operators.strength operator
    let reduced := Pending.reduce precedence waiting first.expr
    later.climb (⟨reduced.2, operator, precedence⟩ :: reduced.1)

/-- The expressions that some phrases are read as. -/
def Phrase.exprs : List (Phrase operators) -> List Expr
  | [] => []
  | first :: others =>
    Pending.completeAll (first.climb []).1 (first.climb []).2 :: Phrase.exprs others

end

/-- The expression that a phrase is read as. -/
def Phrase.expr (phrase : Phrase operators) : Expr :=
  Pending.completeAll (phrase.climb []).1 (phrase.climb []).2

/-- The item that a sentence is read as. -/
def Sentence.item : Sentence operators -> Item
  | .definition prototype body => .definition ⟨prototype, body.expr⟩
  | .declaration prototype => .declaration prototype
  | .expression body => .expression body.expr

/-! ## First and last tokens -/

theorem Operand.head?_tokens (operand : Operand operators) (rest : List Token) :
    ∃ token, (operand.tokens ++ rest).head? = some token ∧ token.startsOperand = true := by
  cases operand with
  | number value => exact ⟨.number value, by simp [Operand.tokens], rfl⟩
  | reference name => exact ⟨.name name, by simp [Operand.tokens], rfl⟩
  | call function arguments => exact ⟨.name function, by simp [Operand.tokens], rfl⟩
  | group inner => exact ⟨ExpressionState.opening, by simp [Operand.tokens, bracketed], rfl⟩

/-- The first token of a phrase starts an operand. -/
theorem Phrase.head?_tokens (phrase : Phrase operators) (rest : List Token) :
    ∃ token, (phrase.tokens ++ rest).head? = some token ∧ token.startsOperand = true := by
  cases phrase with
  | operand only =>
    rw [Phrase.tokens]
    exact only.head?_tokens rest
  | chain first operator registered later =>
    rw [Phrase.tokens, List.append_assoc]
    exact first.head?_tokens _

theorem Phrase.head?_tokens_ne (phrase : Phrase operators) {token : Token}
    (other : token.startsOperand = false) (rest : List Token) :
    (phrase.tokens ++ rest).head? ≠ some token :=
  head?_ne_of_startsOperand (phrase.head?_tokens rest) other

theorem Phrase.tokens_ne_nil (phrase : Phrase operators) : phrase.tokens ≠ [] := by
  obtain ⟨first, found, _⟩ := phrase.head?_tokens []
  rintro empty
  simp [empty] at found

/-- The last token of a phrase is that of its last operand. -/
theorem Phrase.getLast?_tokens_chain (first : Operand operators) (operator : Char)
    (registered : operators.Registers operator) (later : Phrase operators) :
    (Phrase.chain first operator registered later).tokens.getLast? = later.tokens.getLast? := by
  rw [Phrase.tokens, List.getLast?_append_of_ne_nil _ (by simp), ← List.singleton_append,
    List.getLast?_append_of_ne_nil _ later.tokens_ne_nil]

/-! ## Operands and phrases are read -/

namespace ExpressionState

mutual

/-- An operand is read up to its end, unless it is a name and a bracket follows. -/
theorem parse_operandTokens (leaves : operators.LeavesSigns) (operand : Operand operators)
    (outer : List Level) (waiting : List Pending) (rest : List Token)
    (uncalled : ∀ name, operand.tokens.getLast? = some (.name name) → rest.head? ≠ some opening) :
    parse operators 0 ⟨outer, waiting, .operand⟩ (operand.tokens ++ rest) =
      parse operators 0 (behind outer waiting operand.expr) rest := by
  match operand with
  | .number value =>
    rw [Operand.tokens, List.singleton_append, parse_number, Operand.expr]
  | .reference name =>
    rw [Operand.tokens, List.singleton_append, parse_name, Operand.expr,
      parse_reference (uncalled name (by simp [Operand.tokens]))]
  | .call function [] =>
    simp only [Operand.tokens, Phrase.argumentTokens, bracketed, List.cons_append,
      List.nil_append]
    rw [parse_name, parse_callOpening, parse_emptyCall, Operand.expr, Phrase.exprs]
  | .call function (first :: others) =>
    have shape : (Operand.call function (first :: others)).tokens ++ rest =
        .name function :: opening :: (Phrase.argumentTokens (first :: others) ++
          closing :: rest) := by
      simp [Operand.tokens, bracketed]
    have started : (Phrase.argumentTokens (first :: others) ++ closing :: rest).head? ≠
        some closing := by
      cases others with
      | nil => exact first.head?_tokens_ne (by decide) _
      | cons second others =>
        rw [Phrase.argumentTokens, List.append_assoc]
        exact first.head?_tokens_ne (by decide) _
    rw [shape, parse_name, parse_callOpening, parse_firstArgument started,
      parse_argumentTokens leaves first others, Operand.expr]
    rfl
  | .group inner =>
    have shape : (Operand.group inner).tokens ++ rest =
        opening :: (inner.tokens ++ closing :: rest) := by
      simp [Operand.tokens, bracketed]
    rw [shape, parse_opening, inside,
      parse_phraseTokens leaves inner _ _ _ (by simp [opening, closing]), parse_closeGroup leaves,
      Operand.expr]
termination_by sizeOf operand

/-- A phrase is read up to its end, unless it ends in a name and a bracket follows. -/
theorem parse_phraseTokens (leaves : operators.LeavesSigns) (phrase : Phrase operators)
    (outer : List Level) (waiting : List Pending) (rest : List Token)
    (uncalled : ∀ name, phrase.tokens.getLast? = some (.name name) → rest.head? ≠ some opening) :
    parse operators 0 ⟨outer, waiting, .operand⟩ (phrase.tokens ++ rest) =
      parse operators 0 (behind outer (phrase.climb waiting).1 (phrase.climb waiting).2) rest := by
  match phrase with
  | .operand only =>
    rw [Phrase.tokens] at uncalled ⊢
    rw [parse_operandTokens leaves only outer waiting rest uncalled, Phrase.climb]
  | .chain first operator registered later =>
    rw [Phrase.getLast?_tokens_chain] at uncalled
    have found := registered.precedence?_eq
    have uncalledFirst : (Token.symbol operator :: (later.tokens ++ rest)).head? ≠ some opening :=
      fun same => leaves.ne_opening found (Option.some.inj same)
    rw [Phrase.tokens, List.append_assoc, List.cons_append,
      parse_operandTokens leaves first _ _ _ (fun _ _ => uncalledFirst),
      parse_operator found (by cases outer <;> exact Nat.zero_le _),
      parse_phraseTokens leaves later _ _ _ uncalled, Phrase.climb]
termination_by sizeOf phrase

/-- The remaining arguments of a call are read up to the closing bracket. -/
theorem parse_argumentTokens (leaves : operators.LeavesSigns) (first : Phrase operators)
    (others : List (Phrase operators)) (outer : List Level) (waiting : List Pending)
    (function : String) (done : List Expr) (rest : List Token) :
    parse operators 0 (inside (.call function done) outer waiting)
        (Phrase.argumentTokens (first :: others) ++ closing :: rest) =
      parse operators 0 (behind outer waiting
        (.call function (done.reverse ++ Phrase.exprs (first :: others)))) rest := by
  match others with
  | [] =>
    rw [Phrase.argumentTokens, inside,
      parse_phraseTokens leaves first _ _ _ (by simp [opening, closing]), parse_closeCall leaves]
    simp [Phrase.exprs]
  | second :: others =>
    rw [Phrase.argumentTokens, List.append_assoc, List.cons_append, inside,
      parse_phraseTokens leaves first _ _ _ (by simp [opening, separator]), parse_separator leaves,
      parse_argumentTokens leaves second others]
    simp [Phrase.exprs]
termination_by sizeOf (first :: others)

end

end ExpressionState

/-- A phrase is read in front of tokens that do not go on with it. -/
theorem Phrase.parse_tokens (leaves : operators.LeavesSigns) (phrase : Phrase operators)
    {rest : List Token} (ends : phrase.EndsBefore rest) :
    (Parser.expression operators).parse (phrase.tokens ++ rest) = (.ok phrase.expr, rest) := by
  rw [ExpressionState.parse_start,
    ExpressionState.parse_phraseTokens leaves phrase [] [] rest ends.uncalled,
    ExpressionState.parse_end ends.noOperator, Phrase.expr]

/-- A sentence is read in front of tokens that do not go on with it. -/
theorem Sentence.parse_tokens (leaves : operators.LeavesSigns) (sentence : Sentence operators)
    {rest : List Token} (ends : sentence.EndsBefore rest) :
    (Parser.item operators).parse (sentence.tokens ++ rest) = (.ok sentence.item, rest) := by
  cases sentence with
  | definition prototype body =>
    rw [Sentence.tokens, List.cons_append, List.cons_append, List.append_assoc,
      Parser.parse_item_define, Parser.parse_prototype]
    simp only [body.parse_tokens leaves ends]
    rfl
  | declaration prototype =>
    rw [Sentence.tokens, List.cons_append, Parser.parse_item_declare, Parser.parse_prototype]
    rfl
  | expression body =>
    rw [Sentence.tokens, Parser.parse_item_expression (body.head?_tokens_ne (by decide) rest)
      (body.head?_tokens_ne (by decide) rest), body.parse_tokens leaves ends]
    rfl

end ExprShell
