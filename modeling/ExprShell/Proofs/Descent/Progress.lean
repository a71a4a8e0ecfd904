import ExprShell.Proofs.Descent.Items
import ExprShell.Proofs.Parser.Constructs
/-!
# Progress of descents

Every reading function comes to an end over any tokens. It advances past the tokens that it takes,
one after the other, and never at the end of the input; and it takes a token before it succeeds. The
functions that go on behind a left operand are the only ones that may succeed on nothing: they do so
in front of a token that does not reach their threshold.
-/

namespace ExprShell

namespace Descent

variable {Result : Type} {descent : Descent Result} {operators : Operators} {limit : Int}
  {tokens taken rest : List Token} {result : Except SyntaxError Result}

/-- That a descent over tokens ends with a result, which tokens it takes and leaves, and that each
of its advances goes past one of the tokens that it takes. -/
structure Passes (descent : Descent Result) (tokens : List Token)
    (result : Except SyntaxError Result) (taken rest : List Token) : Prop where
  outcome : descent.outcome tokens = some (result, rest)
  passed : descent.passed tokens = taken.map some
  parts : tokens = taken ++ rest

theorem Ends.passes (ends : Ends limit descent tokens result rest) :
    ∃ taken, descent.Passes tokens result taken rest := by
  obtain ⟨more, taken, parts, run, _⟩ := ends [] []
  refine ⟨taken, ends.outcome_eq, ?_, parts⟩
  rw [Descent.passed, run]
  simp

/-- That a descent ends over any tokens, going past what it takes, and takes a token before it
succeeds. -/
def Progresses (descent : Descent Result) : Prop :=
  ∀ tokens, ∃ result taken rest, descent.Passes tokens result taken rest ∧
    ∀ value, result = .ok value → taken ≠ []

/-- A descent that leaves fewer tokens whenever it succeeds takes one. -/
theorem progresses_of_ends (limit : Int)
    (ends : ∀ tokens, ∃ result rest, Ends limit descent tokens result rest ∧
      ∀ value, result = .ok value → rest.length < tokens.length) : descent.Progresses := by
  intro tokens
  obtain ⟨result, rest, ends, shorter⟩ := ends tokens
  obtain ⟨taken, passes⟩ := ends.passes
  refine ⟨result, taken, rest, passes, ?_⟩
  rintro value succeeded rfl
  have less := shorter value succeeded
  rw [passes.parts, List.nil_append] at less
  omega

theorem progresses_operand (operators : Operators) : (operand operators).Progresses := by
  obtain ⟨limit, bounded⟩ := operators.exists_bounded
  refine progresses_of_ends limit fun tokens => ?_
  obtain ⟨result, rest, ends, takes, _⟩ := (agrees bounded tokens).operand
  exact ⟨result, rest, ends, takes⟩

theorem progresses_arguments (operators : Operators) : (arguments operators).Progresses := by
  obtain ⟨limit, bounded⟩ := operators.exists_bounded
  refine progresses_of_ends limit fun tokens => ?_
  obtain ⟨result, rest, ends, takes, _⟩ := (agrees bounded tokens).arguments
  exact ⟨result, rest, ends, takes⟩

/-- What goes on behind a left operand ends too. It succeeds on no tokens exactly in front of a
token that does not reach the threshold. -/
theorem passes_operatorTail (operators : Operators) (threshold : Nat) (left : Expr)
    (tokens : List Token) : ∃ result taken rest,
    (operatorTail operators threshold left).Passes tokens result taken rest ∧
      ∀ value, result = .ok value →
        (taken = [] ↔ operators.precedenceOf tokens.head? < threshold) := by
  obtain ⟨limit, bounded⟩ := operators.exists_bounded
  have wider := bounded.mono (Int.le_max_left limit threshold)
  have within : (threshold : Int) ≤ max limit threshold := Int.le_max_right limit threshold
  obtain ⟨result, rest, joins, stops, _⟩ := (agrees wider tokens).joined threshold left
  obtain ⟨taken, passes⟩ := (ends_operatorTail (Int.natCast_nonneg threshold) within joins).passes
  refine ⟨result, taken, rest, passes, fun value succeeded => ⟨?_, fun below => ?_⟩⟩
  · rintro rfl
    have same : tokens = rest := passes.parts
    rw [same]
    exact (stops value succeeded).2
  · have atOnce : Ends limit (joined operators threshold left) tokens (.ok left) tokens :=
      ends_joined_stop below
    obtain ⟨-, same⟩ := Prod.mk.inj
      (Option.some.inj (joins.outcome_eq.symm.trans atOnce.outcome_eq))
    simpa [same] using passes.parts

/-- Behind a number, in front of another number: what may follow an operand succeeds on nothing, so
it is not among the functions that take a token before they succeed. -/
theorem not_progresses_operatorTail :
    let one : Expr := .number (.ofBits 0x3FF0000000000000)
    let tokens : List Token := [.number (.ofBits 0x4000000000000000)]
    (operatorTail .standard 0 one).Passes tokens (.ok one) [] tokens ∧
      ¬ (operatorTail .standard 0 one).Progresses := by
  intro one tokens
  have below : Operators.standard.precedenceOf tokens.head? < 0 := by decide
  have ends : Ends 0 (operatorTail .standard 0 one) tokens (.ok one) tokens :=
    ends_operatorTail (Int.le_refl 0) (Int.le_refl 0) (ends_joined_stop below)
  obtain ⟨taken, passes⟩ := ends.passes
  have nothing : taken = [] := by simpa using passes.parts
  refine ⟨nothing ▸ passes, fun progresses => ?_⟩
  obtain ⟨result, taken, rest, other, takes⟩ := progresses tokens
  obtain ⟨rfl, rfl⟩ := Prod.mk.inj (Option.some.inj (other.outcome.symm.trans passes.outcome))
  exact takes one rfl (by simpa using other.parts)

end Descent

namespace Construct

/-- The function that reads a construct by descent. -/
def descent (operators : Operators) : (construct : Construct) -> Descent construct.Result
  | expression => Descent.expression operators
  | prototype => Descent.prototype
  | definition => Descent.definition operators
  | declaration => Descent.declaration
  | topLevel => Descent.topLevel operators
  | item => Descent.item operators

variable {operators : Operators} {limit : Int}

/-- Every construct is read by descent as it is by its parser. -/
theorem ends_descent (bounded : operators.Bounded limit) (construct : Construct)
    (tokens : List Token) :
    Descent.Ends limit (construct.descent operators) tokens
      ((construct.parser operators).parse tokens).1
      ((construct.parser operators).parse tokens).2 := by
  cases construct with
  | expression => exact Descent.ends_expression bounded tokens
  | prototype => exact Descent.ends_prototype tokens
  | definition => exact Descent.ends_definition bounded tokens
  | declaration => exact Descent.ends_declaration tokens
  | topLevel => exact Descent.ends_topLevel bounded tokens
  | item => exact Descent.ends_item bounded tokens

/-- No parser accepts before it has taken a token. -/
theorem productive (operators : Operators) (construct : Construct) :
    (construct.parser operators).Productive := by
  have keywords (word : Token) (what : Expectation) := Parser.productive_keyword word what
  cases construct with
  | expression => exact Parser.productive_expression operators
  | prototype =>
    intro token result accepted
    simp only [parser, Parser.prototype] at accepted
    unfold PrototypeState.feed at accepted
    split at accepted <;> simp_all
  | definition => exact ((keywords _ _).andThen _).map _
  | declaration => exact ((keywords _ _).andThen _).map _
  | topLevel => exact (Parser.productive_expression operators).map _
  | item => exact Parser.productive_item operators

theorem progresses_descent (operators : Operators) (construct : Construct) :
    (construct.descent operators).Progresses := by
  obtain ⟨limit, bounded⟩ := operators.exists_bounded
  refine Descent.progresses_of_ends limit fun tokens =>
    ⟨_, _, construct.ends_descent bounded tokens, fun value succeeded => ?_⟩
  exact (construct.productive operators).parse_length_lt (Prod.ext succeeded rfl)

/-- Over the tokens of a stream, a descent gives what the parser gives over the stream. -/
theorem outcome_descent (operators : Operators) (construct : Construct) (stream : TokenStream) :
    (construct.descent operators).outcome stream.tokens =
      some (((construct.parser operators).run stream).1,
        ((construct.parser operators).run stream).2.tokens) := by
  obtain ⟨limit, bounded⟩ := operators.exists_bounded
  rw [Parser.run_fst, Parser.tokens_run]
  exact (construct.ends_descent bounded stream.tokens).outcome_eq

end Construct

end ExprShell
