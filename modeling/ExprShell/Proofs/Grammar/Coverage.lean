import ExprShell.Proofs.Grammar.Waiting
/-!
# What the expression parser has read

Each state of the expression parser stands for the tokens that led to it: the tokens in front of
every open bracket, the operands in front of the operators that wait, and what is known about the
current operand. Taking a token adds it to these, and when the parser accepts, they are a phrase.
-/

namespace ExprShell

variable {operators : Operators}

/-- The tokens of an open bracket, with the arguments that are complete. -/
inductive Bracket.Covers (operators : Operators) : Bracket -> List Token -> Prop
  | group : Covers operators .group [ExpressionState.opening]
  | call (function : String) {phrases : List (Phrase operators)} {arguments : List Expr}
      (each : List.Forall₂ Phrase.Writes phrases arguments.reverse) :
      Covers operators (.call function arguments)
        (.name function :: ExpressionState.opening ::
          phrases.flatMap fun phrase => phrase.tokens ++ [ExpressionState.separator])

/-- The tokens up to the innermost open bracket. -/
inductive Level.Covers (operators : Operators) : List Level -> List Token -> Prop
  | nil : Covers operators [] []
  | cons {bracket : Bracket} {waiting : List Pending} {outer : List Level}
      {tokens inBracket : List Token} {before : List (Opened operators)}
      (levels : Covers operators outer tokens) (pending : Pending.Covers waiting before)
      (opened : bracket.Covers operators inBracket) :
      Covers operators (⟨bracket, waiting⟩ :: outer)
        (tokens ++ (Opened.tokens before ++ inBracket))

/-- The tokens of the current operand. A complete one does not end in a name, since a name may
still be called. -/
inductive Focus.Covers (operators : Operators) : Focus -> List Token -> Prop
  | operand : Covers operators .operand []
  | name (name : String) : Covers operators (.name name) [.name name]
  | firstArgument (function : String) :
      Covers operators (.firstArgument function) [.name function, ExpressionState.opening]
  | value {operand : Operand operators} {expr : Expr} (writes : operand.Writes expr)
      (noName : ∀ name, operand.tokens.getLast? ≠ some (.name name)) :
      Covers operators (.value expr) operand.tokens

/-- The tokens that led to a state. -/
inductive ExpressionState.Covers (operators : Operators) : ExpressionState -> List Token -> Prop
  | intro {outer : List Level} {waiting : List Pending} {focus : Focus}
      {outerTokens focusTokens : List Token} {before : List (Opened operators)}
      (levels : Level.Covers operators outer outerTokens) (pending : Pending.Covers waiting before)
      (current : focus.Covers operators focusTokens) :
      Covers operators ⟨outer, waiting, focus⟩
        (outerTokens ++ (Opened.tokens before ++ focusTokens))

/-- The tokens of a call whose arguments are complete. -/
theorem Phrase.argumentTokens_append_singleton (phrases : List (Phrase operators))
    (last : Phrase operators) :
    Phrase.argumentTokens (phrases ++ [last]) =
      phrases.flatMap (fun phrase => phrase.tokens ++ [ExpressionState.separator]) ++
        last.tokens := by
  induction phrases with
  | nil => simp [Phrase.argumentTokens]
  | cons first others inductionHypothesis =>
    have split : Phrase.argumentTokens (first :: (others ++ [last])) =
        first.tokens ++ ExpressionState.separator :: Phrase.argumentTokens (others ++ [last]) := by
      cases others <;> rfl
    rw [List.cons_append, split, inductionHypothesis, List.flatMap_cons]
    simp

theorem Operand.getLast?_tokens_call (function : String) (arguments : List (Phrase operators)) :
    (Operand.call function arguments).tokens.getLast? = some ExpressionState.closing := by
  simp [Operand.tokens, bracketed, List.getLast?_cons, List.getLast?_append]

theorem Operand.getLast?_tokens_group (inner : Phrase operators) :
    (Operand.group inner).tokens.getLast? = some ExpressionState.closing := by
  simp [Operand.tokens, bracketed, List.getLast?_cons, List.getLast?_append]

namespace ExpressionState

variable {least : Nat} {outer : List Level} {waiting : List Pending} {outerTokens : List Token}
  {before : List (Opened operators)} {token : Token} {next : ExpressionState}

/-- Going on inside a bracket that was just opened. -/
theorem covers_inside {bracket : Bracket} {inBracket : List Token}
    (levels : Level.Covers operators outer outerTokens) (pending : Pending.Covers waiting before)
    (opened : bracket.Covers operators inBracket) :
    (inside bracket outer waiting).Covers operators
      (outerTokens ++ (Opened.tokens before ++ inBracket)) := by
  have covers : (inside bracket outer waiting).Covers operators _ :=
    .intro (.cons levels pending opened) .nil .operand
  simpa [Opened.tokens] using covers

/-- Going on behind an operand that ends in a closing bracket. -/
theorem covers_behind {operand : Operand operators} {value : Expr}
    (levels : Level.Covers operators outer outerTokens) (pending : Pending.Covers waiting before)
    (writes : operand.Writes value) (closed : operand.tokens.getLast? = some closing) :
    (behind outer waiting value).Covers operators
      (outerTokens ++ (Opened.tokens before ++ operand.tokens)) :=
  .intro levels pending (.value writes (by simp [closed, closing]))

theorem covers_feedOperand (levels : Level.Covers operators outer outerTokens)
    (pending : Pending.Covers waiting before)
    (taken : feedOperand outer waiting (some token) = .shift next) :
    next.Covers operators (outerTokens ++ (Opened.tokens before ++ [token])) := by
  unfold feedOperand at taken
  split at taken
  case h_1 value found =>
    obtain rfl := Option.some.inj found
    obtain rfl := Verdict.shift.inj taken
    exact .intro levels pending (.value (.number value) (by simp [Operand.tokens]))
  case h_2 name found =>
    obtain rfl := Option.some.inj found
    obtain rfl := Verdict.shift.inj taken
    exact .intro levels pending (.name name)
  case h_3 found =>
    obtain rfl := Option.some.inj found
    obtain rfl := Verdict.shift.inj taken
    exact covers_inside levels pending .group
  case h_4 => simp at taken

section Behind

variable {operand : Operand operators} {value : Expr}

theorem covers_close (levels : Level.Covers operators outer outerTokens)
    (pending : Pending.Covers waiting before) (writes : operand.Writes value)
    (taken : close outer waiting value (some token) = .shift next) :
    next.Covers operators
      (outerTokens ++ (Opened.tokens before ++ operand.tokens) ++ [token]) := by
  have inner := pending.writes_completeAll (.operand writes)
  have innerTokens := Phrase.tokens_behind before (.operand operand)
  rw [Phrase.tokens] at innerTokens
  rw [← innerTokens]
  cases levels with
  | nil => simp [close] at taken
  | cons levels pending opened =>
    cases opened with
    | group =>
      simp only [close] at taken
      split at taken
      · rename_i closed
        obtain rfl := Option.some.inj closed
        obtain rfl := Verdict.shift.inj taken
        have covers := covers_behind levels pending (.group inner)
          (Operand.getLast?_tokens_group _)
        simpa [Operand.tokens, bracketed] using covers
      · simp at taken
    | call function each =>
      rename_i phrases arguments
      have all : List.Forall₂ Phrase.Writes
          (phrases ++ [(Phrase.operand operand).behind before])
          (Pending.completeAll waiting value :: arguments).reverse := by
        rw [List.reverse_cons]
        exact List.rel_append each (.cons inner .nil)
      simp only [close] at taken
      split at taken
      · rename_i closed
        obtain rfl := Option.some.inj closed
        obtain rfl := Verdict.shift.inj taken
        have covers := covers_behind levels pending (.call function all)
          (Operand.getLast?_tokens_call function _)
        simpa [Operand.tokens, bracketed, Phrase.argumentTokens_append_singleton] using covers
      · split at taken
        · rename_i separated
          obtain rfl := Option.some.inj separated
          obtain rfl := Verdict.shift.inj taken
          have covers := covers_inside levels pending (.call function all)
          simpa using covers
        · simp at taken

theorem covers_feedBehind (levels : Level.Covers operators outer outerTokens)
    (pending : Pending.Covers waiting before) (writes : operand.Writes value)
    (taken : feedBehind operators least outer waiting value (some token) = .shift next) :
    next.Covers operators
      (outerTokens ++ (Opened.tokens before ++ operand.tokens) ++ [token]) := by
  unfold feedBehind at taken
  split at taken
  · rename_i operator precedence found
    split at taken
    · obtain ⟨same, registered⟩ := Operators.eq_symbol_of_binary? found
      obtain rfl := Option.some.inj same
      obtain rfl := Verdict.shift.inj taken
      have isRegistered : operators.Registers operator := by
        simp [Operators.Registers, registered]
      have covers := ExpressionState.Covers.intro levels
        (pending.push isRegistered precedence writes) .operand
      simpa [Opened.tokens] using covers
    · exact covers_close levels pending writes taken
  · exact covers_close levels pending writes taken

end Behind

/-- A token that is taken is added to those that led to the state. -/
theorem covers_feed {state : ExpressionState} {tokens : List Token}
    (covers : state.Covers operators tokens)
    (taken : feed operators least state (some token) = .shift next) :
    next.Covers operators (tokens ++ [token]) := by
  cases covers with
  | intro levels pending current =>
    cases current with
    | operand =>
      have covers := covers_feedOperand levels pending taken
      simpa using covers
    | name name =>
      simp only [feed] at taken
      split at taken
      · rename_i opened
        obtain rfl := Option.some.inj opened
        obtain rfl := Verdict.shift.inj taken
        have covers := ExpressionState.Covers.intro levels pending (.firstArgument name)
        simpa using covers
      · exact covers_feedBehind levels pending (.reference name) taken
    | firstArgument function =>
      simp only [feed] at taken
      split at taken
      · rename_i closed
        obtain rfl := Option.some.inj closed
        obtain rfl := Verdict.shift.inj taken
        have covers := covers_behind levels pending (.call function .nil)
          (Operand.getLast?_tokens_call function _)
        simpa [Operand.tokens, bracketed, Phrase.argumentTokens] using covers
      · have covers := covers_feedOperand
          (.cons levels pending (.call function .nil)) .nil taken
        simpa [Opened.tokens] using covers
    | value writes noName => exact covers_feedBehind levels pending writes taken

/-- Behind a walk over some tokens, these have been read. -/
theorem covers_walk {state final : ExpressionState} {tokens : List Token}
    (covers : state.Covers operators tokens) {taken : List Token}
    (walked : (Parser.expression operators).walk state taken = some final) :
    final.Covers operators (tokens ++ taken) := by
  induction taken generalizing state tokens with
  | nil =>
    obtain rfl := Option.some.inj walked
    rwa [List.append_nil]
  | cons token rest inductionHypothesis =>
    simp only [Parser.walk] at walked
    split at walked
    · rename_i fed
      have further := inductionHypothesis (covers_feed covers fed) walked
      rwa [List.append_assoc, List.singleton_append] at further
    · simp at walked

/-- Tokens that go on with no operator end all expressions in brackets, so only outside of them does
the parser accept. -/
theorem eq_nil_of_close {value expr : Expr} {token : Option Token}
    (accepted : close outer waiting value token = .accept expr) :
    outer = [] ∧ expr = Pending.completeAll waiting value := by
  unfold close at accepted
  split at accepted
  · exact ⟨rfl, (Verdict.accept.inj accepted).symm⟩
  · split at accepted <;> simp at accepted
  · split at accepted
    · simp at accepted
    · split at accepted <;> simp at accepted

theorem of_feedBehind_accept {value expr : Expr} {rest : List Token}
    (accepted : feedBehind operators 0 outer waiting value rest.head? = .accept expr) :
    operators.binary? rest.head? = none ∧ outer = [] ∧
      expr = Pending.completeAll waiting value := by
  unfold feedBehind at accepted
  split at accepted
  · rename_i operator precedence found
    rw [if_pos (by cases outer <;> exact Nat.zero_le _)] at accepted
    simp at accepted
  · rename_i noOperator
    exact ⟨noOperator, eq_nil_of_close accepted⟩

/-- When the parser accepts, the tokens that it has read are a phrase that ends there. -/
theorem exists_phrase_of_accept {state : ExpressionState} {tokens rest : List Token} {expr : Expr}
    (covers : state.Covers operators tokens)
    (accepted : feed operators 0 state rest.head? = .accept expr) :
    ∃ phrase : Phrase operators, phrase.tokens = tokens ∧ phrase.Writes expr ∧
      phrase.EndsBefore rest := by
  cases covers with
  | intro levels pending current =>
    rename_i before
    cases current with
    | operand =>
      simp only [feed, feedOperand] at accepted
      split at accepted <;> simp at accepted
    | name name =>
      simp only [feed] at accepted
      split at accepted
      · simp at accepted
      · rename_i uncalled
        obtain ⟨noOperator, rfl, rfl⟩ := of_feedBehind_accept accepted
        cases levels
        refine ⟨(Phrase.operand (.reference name)).behind before, ?_,
          pending.writes_completeAll (.operand (.reference name)), noOperator, fun _ _ => uncalled⟩
        simp [Phrase.tokens_behind, Phrase.tokens, Operand.tokens]
    | firstArgument function =>
      simp only [feed, feedOperand] at accepted
      split at accepted
      · simp at accepted
      · split at accepted <;> simp at accepted
    | value writes noName =>
      rename_i operand value
      obtain ⟨noOperator, rfl, rfl⟩ := of_feedBehind_accept accepted
      cases levels
      refine ⟨(Phrase.operand operand).behind before, ?_,
        pending.writes_completeAll (.operand writes), noOperator, fun name last => ?_⟩
      · simp [Phrase.tokens_behind, Phrase.tokens]
      · rw [Phrase.tokens_behind, List.getLast?_append_of_ne_nil _ (Phrase.tokens_ne_nil _),
          Phrase.tokens] at last
        exact absurd last (noName name)

end ExpressionState

end ExprShell
