import ExprShell.Proofs.Descent.Ways
/-!
# Descents agree with the parser

A descent over any tokens comes to an end, and its outcome is that of the expression parser: the
same result or error, and the same tokens left. Every threshold that it uses is a natural number and
no greater than the greatest precedence of the table.

The parser goes on from a state with operators that wait where a descent is inside a call of
another function. Such an operator is completed when the inner call has ended, which the parser
notices only at the next token.
-/

namespace ExprShell

namespace Operators

/-- A table none of whose entries is beyond a natural limit. -/
structure Bounded (operators : Operators) (limit : Int) : Prop where
  natural : 0 ≤ limit
  entries : ∀ char precedence, operators.lookup char = some precedence → precedence ≤ limit

theorem Bounded.precedenceOf_le {operators : Operators} {limit : Int}
    (bounded : operators.Bounded limit) (token : Option Token) :
    operators.precedenceOf token ≤ limit := by
  have natural := bounded.natural
  match token with
  | some (.symbol char) =>
    cases found : operators.lookup char with
    | none =>
      simp only [precedenceOf, found, Option.getD_none]
      omega
    | some precedence =>
      simpa [precedenceOf, found] using bounded.entries char precedence found
  | none | some .define | some .declare | some (.name _) | some (.number _) =>
    simp only [precedenceOf]
    omega

theorem Bounded.mono {operators : Operators} {limit greater : Int}
    (bounded : operators.Bounded limit) (notLess : limit ≤ greater) :
    operators.Bounded greater where
  natural := Int.le_trans bounded.natural notLess
  entries char precedence found := Int.le_trans (bounded.entries char precedence found) notLess

/-- In front of tokens whose first does not reach a threshold stands no operator that does. -/
theorem lt_of_precedenceOf_lt {operators : Operators} {token : Option Token} {threshold : Nat}
    (below : operators.precedenceOf token < threshold) (operator : Char) (precedence : Nat)
    (found : operators.binary? token = some (operator, precedence)) : precedence < threshold := by
  have value := precedenceOf_of_binary? found
  omega

/-- Every table has a limit. -/
theorem exists_bounded (operators : Operators) : ∃ limit, operators.Bounded limit := by
  obtain ⟨entries⟩ := operators
  induction entries with
  | nil => exact ⟨0, by omega, by simp [lookup]⟩
  | cons entry rest inductionHypothesis =>
    obtain ⟨limit, natural, below⟩ := inductionHypothesis
    refine ⟨max limit entry.2, by omega, fun char precedence found => ?_⟩
    rw [lookup, lookup_entry_cons] at found
    split at found
    · obtain rfl := Option.some.inj found
      exact Int.le_max_right _ _
    · exact Int.le_trans (below char precedence found) (Int.le_max_left _ _)

end Operators

namespace Descent

open ExpressionState

variable {operators : Operators} {limit : Int} {tokens : List Token}

/-- What the parser goes on with when a descent has ended: behind a value from a state for that
value, and behind an error not at all. -/
def resume {Value : Type} (operators : Operators) (least : Nat)
    (onward : Value -> ExpressionState) :
    Except SyntaxError Value -> List Token -> Except SyntaxError Expr × List Token
  | .ok value, rest => ExpressionState.parse operators least (onward value) rest
  | .error error, rest => (.error error, rest)

/-- That the parser reads an operand as the descent does, and that an operand takes a token. -/
def OperandAgrees (operators : Operators) (limit : Int) (tokens : List Token) : Prop :=
  ∃ result rest, Ends limit (operand operators) tokens result rest ∧
    (∀ value, result = .ok value → rest.length < tokens.length) ∧
    ∀ least outer waiting, parse operators least ⟨outer, waiting, .operand⟩ tokens =
      resume operators least (behind outer waiting) result rest

/-- That the parser reads the operators from a threshold on as the descent does, behind operators
that bind looser than the threshold. -/
def JoinedAgrees (operators : Operators) (limit : Int) (threshold : Nat) (left : Expr)
    (tokens : List Token) : Prop :=
  ∃ result rest, Ends limit (joined operators threshold left) tokens result rest ∧
    (∀ value, result = .ok value → rest.length ≤ tokens.length ∧
      operators.precedenceOf rest.head? < threshold) ∧
    ∀ least outer waiting, leastPrecedence least outer ≤ threshold →
      (∀ pending ∈ waiting.head?, pending.precedence < threshold) →
      parse operators least (behind outer waiting left) tokens =
        resume operators least (behind outer waiting) result rest

/-- That the parser reads an expression as the descent does, up to a token that is no operator. -/
def ExpressionAgrees (operators : Operators) (limit : Int) (tokens : List Token) : Prop :=
  ∃ result rest, Ends limit (expression operators) tokens result rest ∧
    (∀ value, result = .ok value → rest.length < tokens.length ∧
      operators.binary? rest.head? = none) ∧
    ∀ least outer, leastPrecedence least outer = 0 →
      parse operators least ⟨outer, [], .operand⟩ tokens =
        resume operators least (behind outer []) result rest

/-- That the parser reads arguments behind those already complete as the descent does. -/
def ArgumentsAgree (operators : Operators) (limit : Int) (tokens : List Token) : Prop :=
  ∃ result rest, Ends limit (arguments operators) tokens result rest ∧
    (∀ values, result = .ok values → rest.length < tokens.length) ∧
    ∀ least function done outer waiting,
      parse operators least (inside (.call function done) outer waiting) tokens =
        resume operators least (fun values => behind outer waiting
          (.call function (done.reverse ++ values))) result rest

/-- An expression is an operand with operators behind it. -/
theorem expressionAgrees_of_parts (natural : 0 ≤ limit)
    (first : OperandAgrees operators limit tokens)
    (shorter : ∀ rest : List Token, rest.length < tokens.length → ∀ left,
      JoinedAgrees operators limit 0 left rest) : ExpressionAgrees operators limit tokens := by
  obtain ⟨result, rest, ends, takes, agrees⟩ := first
  cases result with
  | error error =>
    refine ⟨.error error, rest, ?_, by simp, fun least outer _ => agrees least outer []⟩
    rw [expression]
    exact ends.bind_error
  | ok value =>
    have less := takes value rfl
    obtain ⟨result, later, endsLater, stops, agreesLater⟩ := shorter rest less value
    refine ⟨result, later, ?_, fun final same => ?_, fun least outer inBrackets => ?_⟩
    · rw [expression]
      exact ends.bind (ends_operatorTail (Int.le_refl _) natural endsLater)
    · obtain ⟨notLonger, below⟩ := stops final same
      exact ⟨by omega, Operators.binary?_eq_none_iff.mpr below⟩
    · exact (agrees least outer []).trans
        (agreesLater least outer [] (by omega) (by simp))

theorem operandAgrees_of_unknown (unknown : ∀ token ∈ tokens.head?, token.startsOperand = false) :
    OperandAgrees operators limit tokens := by
  refine ⟨_, tokens, ends_operand_unknown unknown, by simp, fun least outer waiting => ?_⟩
  apply parse_of_stop
  simp only [feed, feedOperand]
  split
  · rename_i value found
    exact absurd (unknown _ found) (by simp [Token.startsOperand])
  · rename_i name found
    exact absurd (unknown _ found) (by simp [Token.startsOperand])
  · rename_i found
    exact absurd (unknown _ found) (by simp [Token.startsOperand, opening])
  · rfl

/-- A group is an expression up to a closing bracket. -/
theorem operandAgrees_of_group (inner : ExpressionAgrees operators limit tokens) :
    OperandAgrees operators limit (opening :: tokens) := by
  obtain ⟨result, rest, ends, stops, agrees⟩ := inner
  have start (least : Nat) (outer : List Level) (waiting : List Pending) :
      parse operators least ⟨outer, waiting, .operand⟩ (opening :: tokens) =
        resume operators least (behind (⟨.group, waiting⟩ :: outer) []) result rest := by
    rw [parse_opening, inside, agrees least (⟨.group, waiting⟩ :: outer) rfl]
  cases result with
  | error error => exact ⟨_, rest, ends_operand_group_error ends, by simp, start⟩
  | ok value =>
    obtain ⟨less, noOperator⟩ := stops value rfl
    by_cases closed : rest.head? = some closing
    · obtain ⟨later, rfl⟩ := List.head?_eq_some_iff.mp closed
      refine ⟨_, later, ends_operand_group ends, fun _ _ => ?_, fun least outer waiting => ?_⟩
      · simp only [List.length_cons] at less ⊢
        omega
      · exact (start least outer waiting).trans (parse_closeGroup_of_none noOperator)
    · refine ⟨_, rest, ends_operand_unclosed ends closed, by simp, fun least outer waiting => ?_⟩
      exact (start least outer waiting).trans (parse_unclosedGroup noOperator closed)

/-- Arguments are an expression up to a closing bracket, or up to a separator in front of further
arguments. -/
theorem argumentsAgree_of_parts (first : ExpressionAgrees operators limit tokens)
    (shorter : ∀ rest : List Token, rest.length < tokens.length →
      ArgumentsAgree operators limit rest) : ArgumentsAgree operators limit tokens := by
  obtain ⟨result, rest, ends, stops, agrees⟩ := first
  have start (least : Nat) (function : String) (done : List Expr) (outer : List Level)
      (waiting : List Pending) :
      parse operators least (inside (.call function done) outer waiting) tokens =
        resume operators least (behind (⟨.call function done, waiting⟩ :: outer) []) result
          rest := agrees least (⟨.call function done, waiting⟩ :: outer) rfl
  cases result with
  | error error => exact ⟨_, rest, ends_arguments_error ends, by simp, start⟩
  | ok value =>
    obtain ⟨less, noOperator⟩ := stops value rfl
    by_cases closed : rest.head? = some closing
    · obtain ⟨later, rfl⟩ := List.head?_eq_some_iff.mp closed
      refine ⟨_, later, ends_arguments_last ends, fun _ _ => ?_,
        fun least function done outer waiting => ?_⟩
      · simp only [List.length_cons] at less
        omega
      · refine (start least function done outer waiting).trans
          ((parse_closeCall_of_none noOperator).trans ?_)
        rw [List.reverse_cons]
        rfl
    · by_cases separated : rest.head? = some separator
      · obtain ⟨middle, rfl⟩ := List.head?_eq_some_iff.mp separated
        simp only [List.length_cons] at less
        obtain ⟨result, later, endsLater, takes, agreesLater⟩ := shorter middle (by omega)
        refine ⟨_, later, ends_arguments_more ends endsLater, fun values same => ?_,
          fun least function done outer waiting => ?_⟩
        · cases result with
          | error error => simp [Except.map] at same
          | ok others =>
            have lessLater := takes others rfl
            omega
        · refine (start least function done outer waiting).trans
            ((parse_separator_of_none noOperator).trans ?_)
          rw [agreesLater]
          cases result with
          | error error => rfl
          | ok others =>
            simp only [resume, Except.map, List.reverse_cons, List.append_assoc]
            rfl
      · refine ⟨_, rest, ends_arguments_misfit ends closed separated, by simp,
          fun least function done outer waiting => ?_⟩
        exact (start least function done outer waiting).trans
          (parse_unclosedCall noOperator closed separated)

section Joined

variable {threshold precedence : Nat} {left : Expr} {operator : Char} {rest : List Token}

/-- Behind an operator whose right operand ends in front of no operator that binds tighter, the
operands are joined. -/
theorem joinedAgrees_of_right {right : Expr} {later : List Token}
    (less : later.length < tokens.length)
    (looser : operators.precedenceOf later.head? ≤ precedence)
    (joins : JoinedAgrees operators limit threshold (.binary operator left right) later)
    (ends : ∀ result final,
      Ends limit (joined operators threshold (.binary operator left right)) later result final →
      Ends limit (joined operators threshold left) tokens result final)
    (parses : ∀ least outer waiting, leastPrecedence least outer ≤ threshold →
      (∀ pending ∈ waiting.head?, pending.precedence < threshold) →
      parse operators least (behind outer waiting left) tokens =
        parse operators least (behind outer (⟨left, operator, precedence⟩ :: waiting) right)
          later) : JoinedAgrees operators limit threshold left tokens := by
  obtain ⟨result, final, endsLater, stops, agrees⟩ := joins
  refine ⟨result, final, ends _ _ endsLater, fun value same => ?_,
    fun least outer waiting tight waits => ?_⟩
  · obtain ⟨notLonger, below⟩ := stops value same
    exact ⟨by omega, below⟩
  · rw [parses least outer waiting tight waits, parse_join, agrees least outer waiting tight waits]
    intro other strength found
    have value := Operators.precedenceOf_of_binary? found
    omega

/-- Operators from a threshold on: an operator with its first operand, the operators behind it that
bind tighter, and so on. -/
theorem joinedAgrees_of_shorter (bounded : ∀ token, operators.precedenceOf token ≤ limit)
    (operands : ∀ rest : List Token, rest.length < tokens.length →
      OperandAgrees operators limit rest)
    (shorter : ∀ rest : List Token, rest.length < tokens.length → ∀ threshold left,
      JoinedAgrees operators limit threshold left rest) (threshold : Nat) (left : Expr) :
    JoinedAgrees operators limit threshold left tokens := by
  by_cases below : operators.precedenceOf tokens.head? < threshold
  · exact ⟨_, tokens, ends_joined_stop below, fun _ _ => ⟨Nat.le_refl _, below⟩,
      fun _ _ _ _ _ => rfl⟩
  have isOperator : operators.binary? tokens.head? ≠ none := by
    rw [ne_eq, Operators.binary?_eq_none_iff]
    omega
  obtain ⟨⟨operator, precedence⟩, found⟩ := Option.ne_none_iff_exists'.mp isOperator
  obtain ⟨head, registered⟩ := Operators.eq_symbol_of_binary? found
  obtain ⟨rest, rfl⟩ := List.head?_eq_some_iff.mp head
  have strength : operators.precedenceOf (some (.symbol operator)) = precedence :=
    Operators.precedenceOf_of_binary? found
  have reached : (threshold : Int) ≤ operators.precedenceOf (some (.symbol operator)) := by
    simpa using below
  obtain ⟨result, middle, operandEnds, takes, agrees⟩ := operands rest (by simp)
  have start (least : Nat) (outer : List Level) (waiting : List Pending)
      (tight : leastPrecedence least outer ≤ threshold)
      (waits : ∀ pending ∈ waiting.head?, pending.precedence < threshold) :
      parse operators least (behind outer waiting left) (.symbol operator :: rest) =
        resume operators least (behind outer (⟨left, operator, precedence⟩ :: waiting)) result
          middle := by
    have looser : ∀ pending ∈ waiting.head?, pending.precedence < precedence :=
      fun pending first => by have := waits pending first; omega
    rw [parse_operator registered (by omega), reduce_of_looser left looser, agrees]
  cases result with
  | error error => exact ⟨_, middle, ends_joined_operand_error reached operandEnds, by simp, start⟩
  | ok first =>
    have less := takes first rfl
    by_cases tighter : operators.precedenceOf (some (.symbol operator)) <
        operators.precedenceOf middle.head?
    · -- The operators behind the first operand that bind tighter belong to the right operand.
      obtain ⟨result, later, tailEnds, stops, tailAgrees⟩ :=
        shorter middle (by rw [List.length_cons]; omega) (precedence + 1) first
      have tail : Ends limit (operatorTail operators
          (operators.precedenceOf (some (.symbol operator)) + 1) first) middle result later := by
        have limited := bounded middle.head?
        refine ends_operatorTail (by omega) (by omega) ?_
        rw [strength]
        exact tailEnds
      have onward (least : Nat) (outer : List Level) (waiting : List Pending)
          (tight : leastPrecedence least outer ≤ threshold)
          (waits : ∀ pending ∈ waiting.head?, pending.precedence < threshold) :
          parse operators least (behind outer waiting left) (.symbol operator :: rest) =
            resume operators least (behind outer (⟨left, operator, precedence⟩ :: waiting)) result
              later :=
        (start least outer waiting tight waits).trans
          (tailAgrees least outer _ (by omega) (by simp))
      cases result with
      | error error =>
        refine ⟨.error error, later, ends_joined_operator reached operandEnds ?_, by simp, onward⟩
        rw [if_pos tighter]
        exact tail.bind_error
      | ok right =>
        obtain ⟨notLonger, behindRight⟩ := stops right rfl
        have lessLater : later.length < (Token.symbol operator :: rest).length := by
          simp only [List.length_cons]
          omega
        refine joinedAgrees_of_right lessLater (by omega) (shorter later lessLater _ _)
          (fun result final ends => ?_) onward
        refine ends_joined_operator reached operandEnds ?_
        rw [if_pos tighter]
        exact tail.bind ends
    · have lessMiddle : middle.length < (Token.symbol operator :: rest).length := by
        simp only [List.length_cons]
        omega
      refine joinedAgrees_of_right lessMiddle (by omega) (shorter middle lessMiddle _ _)
        (fun result final ends => ?_) start
      refine ends_joined_operator reached operandEnds ?_
      rw [if_neg tighter]
      exact ends

end Joined

theorem operandAgrees_of_shorter
    (arguments : ∀ rest : List Token, rest.length < tokens.length →
      ArgumentsAgree operators limit rest)
    (expressions : ∀ rest : List Token, rest.length < tokens.length →
      ExpressionAgrees operators limit rest) : OperandAgrees operators limit tokens := by
  match tokens with
  | .number value :: rest =>
    exact ⟨_, rest, ends_operand_number value, by simp,
      fun least outer waiting => parse_number value⟩
  | .name name :: rest =>
    by_cases called : rest.head? = some opening
    · obtain ⟨given, rfl⟩ := List.head?_eq_some_iff.mp called
      by_cases closed : given.head? = some closing
      · obtain ⟨later, rfl⟩ := List.head?_eq_some_iff.mp closed
        refine ⟨_, later, ends_operand_emptyCall name, fun _ _ => ?_,
          fun least outer waiting => ?_⟩
        · simp only [List.length_cons]
          omega
        · rw [parse_name, parse_callOpening, parse_emptyCall]
          rfl
      · have shorter : given.length < (.name name :: opening :: given : List Token).length := by
          simp only [List.length_cons]
          omega
        obtain ⟨result, later, ends, takes, agrees⟩ := arguments given shorter
        refine ⟨_, later, ends_operand_call closed ends, fun value same => ?_,
          fun least outer waiting => ?_⟩
        · cases result with
          | error error => simp [Except.map] at same
          | ok values =>
            have less := takes values rfl
            simp only [List.length_cons]
            omega
        · rw [parse_name, parse_callOpening, parse_firstArgument closed, agrees]
          cases result <;> rfl
    · refine ⟨_, rest, ends_operand_reference called, by simp, fun least outer waiting => ?_⟩
      rw [parse_name, parse_reference called]
      rfl
  | .symbol char :: rest =>
    by_cases opened : char = '('
    · subst opened
      exact operandAgrees_of_group (expressions rest (by simp))
    · exact operandAgrees_of_unknown (by simpa [Token.startsOperand, opening] using opened)
  | [] | .define :: _ | .declare :: _ =>
    exact operandAgrees_of_unknown (by simp [Token.startsOperand, opening])

/-- All functions of a descent agree with the parser. -/
structure Agrees (operators : Operators) (limit : Int) (tokens : List Token) : Prop where
  operand : OperandAgrees operators limit tokens
  joined : ∀ threshold left, JoinedAgrees operators limit threshold left tokens
  expression : ExpressionAgrees operators limit tokens
  arguments : ArgumentsAgree operators limit tokens

theorem agrees (bounded : operators.Bounded limit) (tokens : List Token) :
    Agrees operators limit tokens := by
  have shorter (rest : List Token) (less : rest.length < tokens.length) :
      Agrees operators limit rest := agrees bounded rest
  have first := operandAgrees_of_shorter (fun rest less => (shorter rest less).arguments)
    fun rest less => (shorter rest less).expression
  have whole := expressionAgrees_of_parts bounded.natural first fun rest less =>
    (shorter rest less).joined 0
  exact {
    operand := first
    joined := joinedAgrees_of_shorter bounded.precedenceOf_le
      (fun rest less => (shorter rest less).operand) fun rest less => (shorter rest less).joined
    expression := whole
    arguments := argumentsAgree_of_parts whole fun rest less => (shorter rest less).arguments }
termination_by tokens.length

/-! ## Outcomes -/

theorem Ends.outcome_eq {Result : Type} {descent : Descent Result} {rest : List Token}
    {result : Except SyntaxError Result} (ends : Ends limit descent tokens result rest) :
    descent.outcome tokens = some (result, rest) := by
  obtain ⟨more, taken, _, run, _⟩ := ends [] []
  rw [outcome, run]
  rfl

theorem Ends.thresholds_within {Result : Type} {descent : Descent Result} {rest : List Token}
    {result : Except SyntaxError Result} (ends : Ends limit descent tokens result rest) :
    ∀ threshold ∈ descent.thresholds tokens, 0 ≤ threshold ∧ threshold ≤ limit := by
  obtain ⟨more, taken, _, run, within⟩ := ends [] []
  rw [thresholds, run]
  simpa using within

/-- An expression is read by descent as it is by the parser. -/
theorem ends_expression (bounded : operators.Bounded limit) (tokens : List Token) :
    Ends limit (expression operators) tokens ((Parser.expression operators).parse tokens).1
      ((Parser.expression operators).parse tokens).2 := by
  obtain ⟨result, rest, ends, stops, parses⟩ := (agrees bounded tokens).expression
  have whole : (Parser.expression operators).parse tokens = (result, rest) := by
    rw [parse_start, parses 0 [] rfl]
    cases result with
    | error error => rfl
    | ok value => exact parse_end (stops value rfl).2
  rw [whole]
  exact ends

/-- The operators behind an operand are read by descent as they are by the parser. -/
theorem ends_operatorTail_parse (bounded : operators.Bounded limit) {threshold : Nat}
    (within : (threshold : Int) ≤ limit) (left : Expr) (tokens : List Token) :
    Ends limit (operatorTail operators threshold left) tokens
      ((Parser.operatorTail operators threshold left).parse tokens).1
      ((Parser.operatorTail operators threshold left).parse tokens).2 := by
  obtain ⟨result, rest, ends, stops, parses⟩ := (agrees bounded tokens).joined threshold left
  have whole : (Parser.operatorTail operators threshold left).parse tokens = (result, rest) := by
    rw [parse_operatorTail, parses threshold [] [] (Nat.le_refl _) (by simp)]
    cases result with
    | error error => rfl
    | ok value => exact parse_end_of_below (Operators.lt_of_precedenceOf_lt (stops value rfl).2)
  rw [whole]
  exact ends_operatorTail (by omega) within ends

/-- Where the descent reads an operand, the parser goes on behind that operand. -/
theorem parse_of_operand {value : Expr} {rest : List Token}
    (read : (operand operators).outcome tokens = some (.ok value, rest)) (least : Nat)
    (outer : List Level) (waiting : List Pending) :
    parse operators least ⟨outer, waiting, .operand⟩ tokens =
      parse operators least (behind outer waiting value) rest := by
  obtain ⟨limit, bounded⟩ := operators.exists_bounded
  obtain ⟨result, later, ends, _, parses⟩ := (agrees bounded tokens).operand
  obtain ⟨rfl, rfl⟩ := Prod.mk.inj (Option.some.inj (ends.outcome_eq.symm.trans read))
  exact parses least outer waiting

end Descent

end ExprShell
