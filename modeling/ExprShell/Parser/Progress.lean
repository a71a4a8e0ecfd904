import ExprShell.Parser.Item
/-!
# Progress of parsers

A parser never leaves more tokens than it was given, and a productive one takes at least one token
before it accepts. Items are productive, so reading item after item comes to an end.
-/

namespace ExprShell.Parser

variable {Result First Second : Type}

/-- A run takes tokens from the front only. -/
theorem parseFrom_suffix (parser : Parser Result) (state : parser.State) (tokens : List Token) :
    (parser.parseFrom state tokens).2 <:+ tokens := by
  induction tokens generalizing state with
  | nil =>
    unfold parseFrom
    split
    · rename_i next stopped
      exact absurd stopped (parser.feed_end state next)
    · exact List.suffix_refl _
    · exact List.suffix_refl _
  | cons token rest inductionHypothesis =>
    unfold parseFrom
    split
    · exact (inductionHypothesis _).trans (List.suffix_cons token rest)
    · exact List.suffix_refl _
    · exact List.suffix_refl _

theorem parseFrom_length_le (parser : Parser Result) (state : parser.State)
    (tokens : List Token) : (parser.parseFrom state tokens).2.length ≤ tokens.length :=
  (parser.parseFrom_suffix state tokens).length_le

/-- What a run over a stream leaves is what the run over its tokens leaves. -/
theorem tokens_run (parser : Parser Result) (stream : TokenStream) :
    (parser.run stream).2.tokens = (parser.parse stream.tokens).2 :=
  congrArg Prod.snd (parser.runFrom_eq_parseFrom parser.start stream)

/-- A run over a stream gives what the run over its tokens gives. -/
theorem run_fst (parser : Parser Result) (stream : TokenStream) :
    (parser.run stream).1 = (parser.parse stream.tokens).1 :=
  congrArg Prod.fst (parser.runFrom_eq_parseFrom parser.start stream)

/-- A run over a stream stops at a token that has been looked at. -/
@[simp] theorem started_runFrom (parser : Parser Result) (state : parser.State)
    (stream : TokenStream) : (parser.runFrom state stream).2.started = true := by
  fun_induction runFrom parser state stream with
  | case1 _ _ _ _ inductionHypothesis => exact inductionHypothesis
  | case2 => rfl
  | case3 => rfl

@[simp] theorem started_run (parser : Parser Result) (stream : TokenStream) :
    (parser.run stream).2.started = true :=
  parser.started_runFrom parser.start stream

/-- A parser that does not accept before it has taken a token. -/
def Productive (parser : Parser Result) : Prop :=
  forall token result, parser.feed parser.start token ≠ .accept result

theorem Productive.map {parser : Parser First} (productive : parser.Productive)
    (change : First -> Second) : (parser.map change).Productive := by
  intro token result accepted
  cases fed : parser.feed parser.start token with
  | shift next => simp [Parser.map, fed, Verdict.map] at accepted
  | accept first => exact productive token first fed
  | reject error => simp [Parser.map, fed, Verdict.map] at accepted

theorem Productive.andThen {first : Parser First} (productive : first.Productive)
    (second : Parser Second) : (first.andThen second).Productive := by
  intro token result accepted
  cases fed : first.feed first.start token with
  | shift next => simp [Parser.andThen, fed] at accepted
  | accept value => exact productive token value fed
  | reject error => simp [Parser.andThen, fed] at accepted

theorem Productive.branch {chosen otherwise : Parser Result} (chosenProductive : chosen.Productive)
    (otherwiseProductive : otherwise.Productive) (chooses : Option Token -> Bool) :
    (Parser.branch chooses chosen otherwise).Productive := by
  intro token result accepted
  by_cases choice : chooses token = true
  · cases fed : chosen.feed chosen.start token with
    | shift next => simp [Parser.branch, choice, fed, Verdict.map] at accepted
    | accept value => exact chosenProductive token value fed
    | reject error => simp [Parser.branch, choice, fed, Verdict.map] at accepted
  · cases fed : otherwise.feed otherwise.start token with
    | shift next => simp [Parser.branch, choice, fed, Verdict.map] at accepted
    | accept value => exact otherwiseProductive token value fed
    | reject error => simp [Parser.branch, choice, fed, Verdict.map] at accepted

theorem productive_keyword (word : Token) (what : Expectation) :
    (keyword word what).Productive := by
  intro token result accepted
  simp only [keyword] at accepted
  split at accepted <;> simp at accepted

theorem productive_expression (operators : Operators) : (expression operators).Productive := by
  intro token result accepted
  simp only [expression, expressionFrom, ExpressionState.feed,
    ExpressionState.feedOperand] at accepted
  split at accepted <;> simp at accepted

theorem productive_item (operators : Operators) : (item operators).Productive := by
  unfold item definition declaration
  exact (((productive_keyword _ _).andThen _).map _ |>.map _).branch
    ((((productive_keyword _ _).andThen _).map _ |>.map _).branch
      ((productive_expression operators).map _) _) _

/-- A productive parser that accepts leaves fewer tokens than it was given. -/
theorem Productive.parse_length_lt {parser : Parser Result} (productive : parser.Productive)
    {tokens rest : List Token} {result : Result}
    (accepted : parser.parse tokens = (.ok result, rest)) : rest.length < tokens.length := by
  unfold parse at accepted
  cases tokens with
  | nil =>
    unfold parseFrom at accepted
    split at accepted
    · rename_i next stopped
      exact absurd stopped (parser.feed_end _ next)
    · rename_i value fed
      exact absurd fed (productive none value)
    · simp at accepted
  | cons token others =>
    unfold parseFrom at accepted
    split at accepted
    · rename_i next fed
      have bound := parser.parseFrom_length_le next others
      rw [accepted] at bound
      simp only [List.length_cons]
      simp only at bound
      omega
    · rename_i value fed
      exact absurd fed (productive (some token) value)
    · simp at accepted

/-- A productive parser that accepts leaves fewer tokens in a stream. -/
theorem Productive.run_length_lt {parser : Parser Result} (productive : parser.Productive)
    {stream : TokenStream} {result : Result}
    (accepted : (parser.run stream).1 = .ok result) :
    (parser.run stream).2.tokens.length < stream.tokens.length := by
  rw [run_fst] at accepted
  rw [tokens_run]
  exact productive.parse_length_lt (Prod.ext accepted rfl)

theorem run_length_le (parser : Parser Result) (stream : TokenStream) :
    (parser.run stream).2.tokens.length ≤ stream.tokens.length := by
  rw [tokens_run]
  exact parser.parseFrom_length_le _ _

end ExprShell.Parser
