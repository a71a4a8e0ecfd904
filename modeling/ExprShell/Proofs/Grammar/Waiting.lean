import ExprShell.Proofs.Grammar.Acceptance
/-!
# Operators that wait

Operators that wait for their right operands stand for the operands and operators read so far.
Completing some of them moves these into one expression and changes neither their number nor their
order, so whatever the precedences, a phrase is read as an expression that it writes.
-/

namespace ExprShell

variable {operators : Operators}

theorem Opened.tokens_cons (opened : Opened operators) (others : List (Opened operators)) :
    Opened.tokens (opened :: others) =
      opened.operand.tokens ++ .symbol opened.operator :: Opened.tokens others := by
  simp [Opened.tokens]

namespace Phrase

theorem behind_cons (opened : Opened operators) (others : List (Opened operators))
    (phrase : Phrase operators) : phrase.behind (opened :: others) =
      .chain opened.operand opened.operator opened.registered (phrase.behind others) := rfl

theorem behind_append (before after : List (Opened operators)) (phrase : Phrase operators) :
    phrase.behind (before ++ after) = (phrase.behind after).behind before :=
  List.foldr_append

/-- The tokens in front of a phrase come first. -/
theorem tokens_behind (before : List (Opened operators)) (phrase : Phrase operators) :
    (phrase.behind before).tokens = Opened.tokens before ++ phrase.tokens := by
  induction before with
  | nil => rfl
  | cons opened others inductionHypothesis =>
    rw [behind_cons, Phrase.tokens, inductionHypothesis, Opened.tokens_cons, List.append_assoc,
      List.cons_append]

/-- The operands in front of a phrase are opened first. -/
theorem opened_behind (before : List (Opened operators)) (phrase : Phrase operators)
    (operator : Char) (registered : operators.Registers operator) :
    (phrase.behind before).opened operator registered =
      before ++ phrase.opened operator registered := by
  induction before with
  | nil => rfl
  | cons opened others inductionHypothesis =>
    rw [behind_cons, Phrase.opened, inductionHypothesis, List.cons_append]

end Phrase

namespace Pending

/-- What operators that wait, innermost first, stand for: the operands and operators that were read
for them. -/
inductive Covers : List Pending -> List (Opened operators) -> Prop
  | nil : Covers [] []
  | cons {waiting : List Pending} {before : List (Opened operators)} {left : Phrase operators}
      {expr : Expr} {operator : Char} (registered : operators.Registers operator)
      (precedence : Nat) (covers : Covers waiting before) (writes : left.Writes expr) :
      Covers (⟨expr, operator, precedence⟩ :: waiting) (before ++ left.opened operator registered)

/-- Completing all operators gives an expression that the operands and operators write. -/
theorem Covers.writes_completeAll {waiting : List Pending} {before : List (Opened operators)}
    (covers : Covers waiting before) {phrase : Phrase operators} {value : Expr}
    (writes : phrase.Writes value) : (phrase.behind before).Writes (completeAll waiting value) := by
  induction covers generalizing phrase value with
  | nil => exact writes
  | cons registered precedence covers leftWrites inductionHypothesis =>
    rw [Phrase.behind_append]
    exact inductionHypothesis (.join registered leftWrites writes)

/-- Completing the innermost operators keeps the operands and operators. -/
theorem Covers.reduce {waiting : List Pending} {before : List (Opened operators)}
    (covers : Covers waiting before) (precedence : Nat) {phrase : Phrase operators} {value : Expr}
    (writes : phrase.Writes value) :
    ∃ (before' : List (Opened operators)) (phrase' : Phrase operators),
      Covers (reduce precedence waiting value).1 before' ∧
        phrase'.Writes (reduce precedence waiting value).2 ∧
        phrase'.behind before' = phrase.behind before := by
  induction covers generalizing phrase value with
  | nil => exact ⟨[], phrase, .nil, writes, rfl⟩
  | cons registered bound covers leftWrites inductionHypothesis =>
    rw [Pending.reduce]
    split
    · have joined := inductionHypothesis (.join registered leftWrites writes)
      rwa [Phrase.join, ← Phrase.behind_append] at joined
    · exact ⟨_, phrase, .cons registered bound covers leftWrites, writes, rfl⟩

/-- An operator that arrives completes the innermost ones and waits itself. -/
theorem Covers.push {waiting : List Pending} {before : List (Opened operators)}
    (covers : Covers waiting before) {operator : Char} (registered : operators.Registers operator)
    (precedence : Nat) {operand : Operand operators} {value : Expr}
    (writes : operand.Writes value) :
    Covers (⟨(Pending.reduce precedence waiting value).2, operator, precedence⟩ ::
        (Pending.reduce precedence waiting value).1)
      (before ++ [⟨operand, operator, registered⟩]) := by
  obtain ⟨before', phrase', coversLater, writesLater, same⟩ :=
    covers.reduce precedence (.operand writes)
  have opened := Phrase.opened_behind before (.operand operand) operator registered
  rw [← same, Phrase.opened_behind, Phrase.opened] at opened
  rw [← opened]
  exact .cons registered precedence coversLater writesLater

end Pending

mutual

/-- An operand is read as an expression that it writes. -/
theorem Operand.writes_expr (operand : Operand operators) : operand.Writes operand.expr := by
  match operand with
  | .number value => exact .number value
  | .reference name => exact .reference name
  | .call function arguments => exact .call function (Phrase.writes_exprs arguments)
  | .group inner => exact .group (inner.writes_climb .nil)

/-- Completing the operators that wait at the end of a phrase gives an expression that the phrase
writes, with the operands in front of it. -/
theorem Phrase.writes_climb (phrase : Phrase operators) {waiting : List Pending}
    {before : List (Opened operators)} (covers : Pending.Covers waiting before) :
    (phrase.behind before).Writes
      (Pending.completeAll (phrase.climb waiting).1 (phrase.climb waiting).2) := by
  match phrase with
  | .operand only => exact covers.writes_completeAll (.operand only.writes_expr)
  | .chain first operator registered later =>
    have pushed := covers.push registered (operators.strength operator) first.writes_expr
    have writes := later.writes_climb pushed
    rwa [Phrase.behind_append] at writes

theorem Phrase.writes_exprs (phrases : List (Phrase operators)) :
    List.Forall₂ Phrase.Writes phrases (Phrase.exprs phrases) := by
  match phrases with
  | [] => exact .nil
  | first :: others => exact .cons (first.writes_climb .nil) (Phrase.writes_exprs others)

end

/-- A phrase is read as an expression that it writes. -/
theorem Phrase.writes_expr (phrase : Phrase operators) : phrase.Writes phrase.expr :=
  phrase.writes_climb .nil

/-- A sentence is read as an item that it writes. -/
theorem Sentence.writes_item (sentence : Sentence operators) : sentence.Writes sentence.item := by
  cases sentence with
  | definition prototype body => exact .definition prototype body.writes_expr
  | declaration prototype => exact .declaration prototype
  | expression body => exact .expression body.writes_expr

end ExprShell
