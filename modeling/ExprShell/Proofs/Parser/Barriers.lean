import ExprShell.Proofs.Parser.Climbing
import ExprShell.Parser.Items
/-!
# Tokens that end a construct as the end of the input does

An error of a parser names the token at which the parser stopped. A token is a barrier to a parser
if no state takes it and every state answers to it as to the end of the input, except that an error
names it. A run over tokens with a barrier among them does not go past it, and does in front of it
what it does at the end of the input.
-/

namespace ExprShell

/-- The same error with something else found. -/
def SyntaxError.withFound (found : Option Token) : SyntaxError -> SyntaxError
  | expected what _ => expected what found
  | unknownToken _ => unknownToken found

/-- The same answer with something else found if it is an error. -/
def Verdict.withFound {State Result : Type} (found : Option Token) :
    Verdict State Result -> Verdict State Result
  | shift next => shift next
  | accept result => accept result
  | reject error => reject (error.withFound found)

theorem Verdict.withFound_map {State State' Result Result' : Type} (found : Option Token)
    (onState : State -> State') (onResult : Result -> Result') (verdict : Verdict State Result) :
    (verdict.map onState onResult).withFound found =
      (verdict.withFound found).map onState onResult := by
  cases verdict <;> rfl

theorem Verdict.withFound_stop {State Result : Type} (found : Option Token)
    (result : Except SyntaxError Result) :
    (Verdict.stop result : Verdict State Result).withFound found =
      .stop (result.mapError (·.withFound found)) := by
  cases result <;> rfl

/-- What was found is the only part of a message that changes with it. -/
theorem SyntaxError.exists_message_withFound (error : SyntaxError) :
    ∃ before after, ∀ found,
      (error.withFound found).message = before ++ Token.describe found ++ after := by
  cases error with
  | expected what found =>
    exact ⟨"expected " ++ what.text ++ ", found ", "", fun found => String.append_empty.symm⟩
  | unknownToken found =>
    exact ⟨"unknown token ", " when expecting an expression", fun found => rfl⟩

theorem SyntaxError.found_withFound (error : SyntaxError) (found : Option Token) :
    (error.withFound found).found = found := by
  cases error <;> rfl

theorem SyntaxError.withFound_of_found {error : SyntaxError} {found : Option Token}
    (same : error.found = found) : error.withFound found = error := by
  subst same
  cases error <;> rfl

namespace Parser

variable {Result First Second : Type}

/-- That a parser answers to one token as to another, except that an error names the token met. A
token met like itself is named by every error. -/
def MeetsAlike (parser : Parser Result) (token token' : Option Token) : Prop :=
  ∀ state, parser.feed state token' = (parser.feed state token).withFound token'

section Combinators

variable {token token' : Option Token}

theorem MeetsAlike.map {parser : Parser First} (alike : parser.MeetsAlike token token')
    (change : First -> Second) : (parser.map change).MeetsAlike token token' := by
  intro state
  simp only [Parser.map]
  rw [alike state, Verdict.withFound_map]

theorem MeetsAlike.andThen {first : Parser First} {second : Parser Second}
    (alike : first.MeetsAlike token token') (secondAlike : second.MeetsAlike token token') :
    (first.andThen second).MeetsAlike token token' := by
  intro state
  cases state with
  | inl state =>
    simp only [Parser.andThen]
    rw [alike state, secondAlike second.start]
    cases first.feed state token with
    | shift next => rfl
    | accept value => exact (Verdict.withFound_map _ _ _ _).symm
    | reject error => rfl
  | inr pair =>
    simp only [Parser.andThen]
    rw [secondAlike pair.2, Verdict.withFound_map]

theorem MeetsAlike.branch {chosen otherwise : Parser Result} {chooses : Option Token -> Bool}
    (alike : chosen.MeetsAlike token token') (otherwiseAlike : otherwise.MeetsAlike token token')
    (same : chooses token' = chooses token) :
    (Parser.branch chooses chosen otherwise).MeetsAlike token token' := by
  intro state
  match state with
  | none =>
    simp only [Parser.branch]
    rw [same, alike chosen.start, otherwiseAlike otherwise.start]
    split <;> exact (Verdict.withFound_map _ _ _ _).symm
  | some (.inl state) =>
    simp only [Parser.branch]
    rw [alike state, Verdict.withFound_map]
  | some (.inr state) =>
    simp only [Parser.branch]
    rw [otherwiseAlike state, Verdict.withFound_map]

theorem meetsAlike_keyword {word : Token} (same : token' = some word ↔ token = some word)
    (what : Expectation) : (keyword word what).MeetsAlike token token' := by
  intro state
  cases state with
  | true => rfl
  | false =>
    simp only [keyword, same]
    split <;> rfl

/-- The item parser meets two tokens alike if its parts do, and if they are the same keyword or
none. -/
theorem meetsAlike_item {operators : Operators} (inPrototype : prototype.MeetsAlike token token')
    (inExpression : (expression operators).MeetsAlike token token')
    (defines : token' = some .define ↔ token = some .define)
    (declares : token' = some .declare ↔ token = some .declare) :
    (item operators).MeetsAlike token token' := by
  have definitions := (meetsAlike_keyword defines .defineWord).andThen
    (inPrototype.andThen inExpression)
  have declarations := (meetsAlike_keyword declares .declareWord).andThen inPrototype
  have sameBranch : (token' == some .define) = (token == some .define) := by
    rw [Bool.eq_iff_iff, beq_iff_eq, beq_iff_eq, defines]
  have sameInner : (token' == some .declare) = (token == some .declare) := by
    rw [Bool.eq_iff_iff, beq_iff_eq, beq_iff_eq, declares]
  exact ((definitions.map _).map _).branch
    (((declarations.map _).map _).branch (inExpression.map _) sameInner) sameBranch

end Combinators

/-! ## Errors name the token that was met -/

theorem meetsAlike_prototype_self (token : Option Token) : prototype.MeetsAlike token token := by
  intro state
  simp only [prototype]
  unfold PrototypeState.feed
  split <;> rfl

end Parser

namespace ExpressionState

theorem withFound_feedOperand (outer : List Level) (waiting : List Pending)
    (token : Option Token) :
    (feedOperand outer waiting token).withFound token = feedOperand outer waiting token := by
  unfold feedOperand
  split <;> rfl

theorem withFound_close (outer : List Level) (waiting : List Pending) (value : Expr)
    (token : Option Token) :
    (close outer waiting value token).withFound token = close outer waiting value token := by
  unfold close
  split
  · rfl
  · split <;> rfl
  · split
    · rfl
    · split <;> rfl

theorem withFound_feedBehind (operators : Operators) (least : Nat) (outer : List Level)
    (waiting : List Pending) (value : Expr) (token : Option Token) :
    (feedBehind operators least outer waiting value token).withFound token =
      feedBehind operators least outer waiting value token := by
  unfold feedBehind
  split
  · split
    · rfl
    · exact withFound_close outer waiting value token
  · exact withFound_close outer waiting value token

end ExpressionState

namespace Parser

theorem meetsAlike_expression_self (operators : Operators) (token : Option Token) :
    (expression operators).MeetsAlike token token := by
  intro state
  simp only [expression, expressionFrom, ExpressionState.feed]
  split
  · exact (ExpressionState.withFound_feedOperand _ _ _).symm
  · split
    · rfl
    · exact (ExpressionState.withFound_feedBehind _ _ _ _ _ _).symm
  · split
    · rfl
    · exact (ExpressionState.withFound_feedOperand _ _ _).symm
  · exact (ExpressionState.withFound_feedBehind _ _ _ _ _ _).symm

theorem meetsAlike_item_self (operators : Operators) (token : Option Token) :
    (item operators).MeetsAlike token token :=
  meetsAlike_item (meetsAlike_prototype_self token) (meetsAlike_expression_self operators token)
    .rfl .rfl

/-- A parser that meets every token like itself names the first of the tokens that it leaves. -/
theorem found_of_parse {parser : Parser Result}
    (itself : ∀ token, parser.MeetsAlike token token) {tokens rest : List Token}
    {error : SyntaxError} (failed : parser.parse tokens = (.error error, rest)) :
    error.found = rest.head? := by
  obtain ⟨taken, final, parts, walked, stopped⟩ := parser.exists_walk parser.start tokens
  rw [← Parser.parse, failed] at stopped
  have named := itself rest.head? final
  rw [stopped, Verdict.withFound_stop] at named
  have same : error = error.withFound rest.head? := Verdict.reject.inj named
  rw [same, SyntaxError.found_withFound]

/-! ## Separators -/

variable {operators : Operators}

/-- The separator between items is a barrier to prototypes. -/
theorem meetsAlike_prototype_separator : prototype.MeetsAlike none (some .itemSeparator) := by
  intro state
  cases state <;> rfl

/-- The separator between items is a barrier to expressions unless it is an operator. -/
theorem meetsAlike_expression_separator (leavesSeparator : operators.precedence? ';' = none) :
    (expression operators).MeetsAlike none (some .itemSeparator) := by
  have noOperator : operators.binary? (some .itemSeparator) = none :=
    Operators.binary?_symbol_of_none leavesSeparator
  have noneOperator : operators.binary? none = none := rfl
  have closes : ∀ outer waiting value, ExpressionState.close outer waiting value
      (some .itemSeparator) = (ExpressionState.close outer waiting value none).withFound
        (some .itemSeparator) := by
    intro outer waiting value
    unfold ExpressionState.close
    split <;> rfl
  intro state
  obtain ⟨outer, waiting, focus⟩ := state
  cases focus with
  | operand => rfl
  | name name =>
    simp only [expression, expressionFrom, ExpressionState.feed, ExpressionState.feedBehind,
      noOperator, noneOperator]
    exact closes _ _ _
  | firstArgument function => rfl
  | value value =>
    simp only [expression, expressionFrom, ExpressionState.feed, ExpressionState.feedBehind,
      noOperator, noneOperator]
    exact closes _ _ _

theorem meetsAlike_item_separator (leavesSeparator : operators.precedence? ';' = none) :
    (item operators).MeetsAlike none (some .itemSeparator) :=
  meetsAlike_item meetsAlike_prototype_separator (meetsAlike_expression_separator leavesSeparator)
    (by simp [Token.itemSeparator]) (by simp [Token.itemSeparator])

/-- A run over tokens with a barrier among them stops in front of the barrier at the latest. There
it gives what it gives at the end of the input, and further in front what it gives anyway. -/
theorem MeetsAlike.parseFrom_append {Result : Type} {parser : Parser Result} {barrier : Token}
    (alike : parser.MeetsAlike none (some barrier)) (state : parser.State)
    (front rest : List Token) :
    parser.parseFrom state (front ++ barrier :: rest) =
      ((if (parser.parseFrom state front).2 = [] then
          (parser.parseFrom state front).1.mapError (·.withFound (some barrier))
        else (parser.parseFrom state front).1),
        (parser.parseFrom state front).2 ++ barrier :: rest) := by
  rcases parser.parseFrom_cases state front with
    ⟨token, later, next, rfl, fed, run⟩ | ⟨result, stopped, run⟩
  · rw [List.cons_append, parser.parseFrom_of_shift _ fed, run,
      MeetsAlike.parseFrom_append alike next later rest]
  · rw [run]
    cases front with
    | nil =>
      have met := alike state
      rw [List.head?_nil] at stopped
      rw [stopped, Verdict.withFound_stop] at met
      rw [if_pos rfl]
      exact parser.parseFrom_of_stop met
    | cons token later =>
      rw [if_neg (by simp)]
      exact parser.parseFrom_of_stop stopped
termination_by front.length

end Parser

end ExprShell
