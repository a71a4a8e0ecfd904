import ExprShell.Parser.Progress
/-!
# Runs of parsers

A run of a parser is a walk, on which it takes every token, and a stop in front of the token after
the walk. So what a run gives depends on the tokens it takes and on one more. The parsers that are
put together from others run as their parts do, one after the other.
-/

namespace ExprShell

/-- The answer of a parser that stops with a result or an error. -/
def Verdict.stop {State Result : Type} : Except SyntaxError Result -> Verdict State Result
  | .ok result => .accept result
  | .error error => .reject error

theorem Verdict.shift_or_stop {State Result : Type} (verdict : Verdict State Result) :
    (∃ next, verdict = .shift next) ∨ ∃ result, verdict = .stop result := by
  cases verdict with
  | shift next => exact .inl ⟨next, rfl⟩
  | accept result => exact .inr ⟨.ok result, rfl⟩
  | reject error => exact .inr ⟨.error error, rfl⟩

@[simp] theorem Verdict.map_stop {State State' Result Result' : Type} (onState : State -> State')
    (onResult : Result -> Result') (result : Except SyntaxError Result) :
    (Verdict.stop result).map onState onResult = .stop (result.map onResult) := by
  cases result <;> rfl

namespace Parser

variable {Result First Second : Type}

section Steps

variable (parser : Parser Result) {state next : parser.State}

theorem parseFrom_of_shift {token : Token} (rest : List Token)
    (taken : parser.feed state (some token) = .shift next) :
    parser.parseFrom state (token :: rest) = parser.parseFrom next rest := by
  simp [parseFrom, taken]

/-- A parser that stops leaves everything in front of which it stops. -/
theorem parseFrom_of_stop {tokens : List Token} {result : Except SyntaxError Result}
    (stopped : parser.feed state tokens.head? = .stop result) :
    parser.parseFrom state tokens = (result, tokens) := by
  cases tokens with
  | nil =>
    simp only [List.head?_nil] at stopped
    unfold parseFrom
    cases result <;> split <;> simp_all [Verdict.stop]
  | cons token rest =>
    simp only [List.head?_cons] at stopped
    cases result <;> simp [parseFrom, stopped, Verdict.stop]

/-- A run takes its first token and goes on, or it stops at once. -/
theorem parseFrom_cases (state : parser.State) (tokens : List Token) :
    (∃ token rest next, tokens = token :: rest ∧ parser.feed state (some token) = .shift next ∧
      parser.parseFrom state tokens = parser.parseFrom next rest) ∨
    ∃ result, parser.feed state tokens.head? = .stop result ∧
      parser.parseFrom state tokens = (result, tokens) := by
  rcases (parser.feed state tokens.head?).shift_or_stop with ⟨next, fed⟩ | ⟨result, stopped⟩
  · cases tokens with
    | nil => exact absurd fed (parser.feed_end state next)
    | cons token rest =>
      exact .inl ⟨token, rest, next, rfl, fed, parser.parseFrom_of_shift rest fed⟩
  · exact .inr ⟨result, stopped, parser.parseFrom_of_stop stopped⟩

/-- A run depends on its state only through the answer to the first token. -/
theorem parseFrom_congr {state' : parser.State} {tokens : List Token}
    (same : parser.feed state tokens.head? = parser.feed state' tokens.head?) :
    parser.parseFrom state tokens = parser.parseFrom state' tokens := by
  rcases parser.parseFrom_cases state tokens with
    ⟨token, rest, next, rfl, fed, run⟩ | ⟨result, stopped, run⟩
  · rw [run, parser.parseFrom_of_shift rest (same.symm.trans fed)]
  · rw [run, parser.parseFrom_of_stop (same.symm.trans stopped)]

/-- The state after a parser has taken some tokens, if it takes all of them. -/
def walk (parser : Parser Result) (state : parser.State) : List Token -> Option parser.State
  | [] => some state
  | token :: rest =>
    match parser.feed state (some token) with
    | .shift next => parser.walk next rest
    | _ => none

/-- A run goes on behind a walk. -/
theorem parseFrom_append {taken : List Token} (rest : List Token)
    (walked : parser.walk state taken = some next) :
    parser.parseFrom state (taken ++ rest) = parser.parseFrom next rest := by
  induction taken generalizing state with
  | nil =>
    obtain rfl := Option.some.inj walked
    rfl
  | cons token others inductionHypothesis =>
    simp only [walk] at walked
    split at walked
    · rename_i fed
      rw [List.cons_append, parser.parseFrom_of_shift _ fed, inductionHypothesis walked]
    · simp at walked

/-- A walk goes on behind a walk. -/
theorem walk_append {taken : List Token} (rest : List Token)
    (walked : parser.walk state taken = some next) :
    parser.walk state (taken ++ rest) = parser.walk next rest := by
  induction taken generalizing state with
  | nil =>
    obtain rfl := Option.some.inj walked
    rfl
  | cons token others inductionHypothesis =>
    simp only [List.cons_append, walk] at walked ⊢
    split at walked
    · exact inductionHypothesis walked
    · simp at walked

/-- A run does not depend on what comes behind the token at which it stops. -/
theorem parseFrom_of_head? {result : Except SyntaxError Result} {taken rest rest' : List Token}
    (run : parser.parseFrom state (taken ++ rest) = (result, rest))
    (sameHead : rest'.head? = rest.head?) :
    parser.parseFrom state (taken ++ rest') = (result, rest') := by
  induction taken generalizing state with
  | nil =>
    rw [List.nil_append] at run ⊢
    rcases parser.parseFrom_cases state rest with
      ⟨token, others, next, rfl, fed, further⟩ | ⟨stop, stopped, further⟩
    · have shorter := parser.parseFrom_length_le next others
      rw [← further, run, List.length_cons] at shorter
      omega
    · obtain ⟨rfl, _⟩ := Prod.mk.inj (further.symm.trans run)
      exact parser.parseFrom_of_stop (sameHead ▸ stopped)
  | cons token others inductionHypothesis =>
    rw [List.cons_append] at run ⊢
    rcases parser.parseFrom_cases state (token :: (others ++ rest)) with
      ⟨first, later, next, parts, fed, further⟩ | ⟨stop, stopped, further⟩
    · obtain ⟨rfl, rfl⟩ := List.cons.inj parts
      rw [parser.parseFrom_of_shift _ fed]
      exact inductionHypothesis (further.symm.trans run)
    · have same := congrArg List.length (Prod.mk.inj (further.symm.trans run)).2
      simp only [List.length_cons, List.length_append] at same
      omega

/-- Every run is a walk over the tokens it takes and a stop in front of what it leaves. -/
theorem exists_walk (state : parser.State) (tokens : List Token) :
    ∃ taken final, tokens = taken ++ (parser.parseFrom state tokens).2 ∧
      parser.walk state taken = some final ∧
      parser.feed final (parser.parseFrom state tokens).2.head? =
        .stop (parser.parseFrom state tokens).1 := by
  rcases parser.parseFrom_cases state tokens with
    ⟨token, rest, next, rfl, fed, run⟩ | ⟨result, stopped, run⟩
  · obtain ⟨taken, final, parts, walked, stopped⟩ := exists_walk next rest
    rw [run]
    refine ⟨token :: taken, final, congrArg (token :: ·) parts, ?_, stopped⟩
    simpa [walk, fed] using walked
  · rw [run]
    exact ⟨[], state, rfl, rfl, stopped⟩
termination_by tokens.length

end Steps

/-- A parser that answers as another one does, only from other states and with other results, runs
as the other one does. -/
theorem parseFrom_map_of_feed (first : Parser First) (second : Parser Second)
    (embed : first.State -> second.State) (change : First -> Second)
    (answers : ∀ state token, second.feed (embed state) token =
      (first.feed state token).map embed change)
    (state : first.State) (tokens : List Token) :
    second.parseFrom (embed state) tokens =
      ((first.parseFrom state tokens).1.map change, (first.parseFrom state tokens).2) := by
  have answer := answers state tokens.head?
  rcases first.parseFrom_cases state tokens with
    ⟨token, rest, next, rfl, fed, run⟩ | ⟨result, stopped, run⟩
  · rw [List.head?_cons, fed] at answer
    rw [run, second.parseFrom_of_shift rest answer,
      parseFrom_map_of_feed first second embed change answers next rest]
  · rw [stopped, Verdict.map_stop] at answer
    rw [run, second.parseFrom_of_stop answer]
termination_by tokens.length

/-- A run whose changed result is accepted has accepted the result that was changed. -/
theorem exists_ok_of_map {change : First -> Second} {run : Except SyntaxError First × List Token}
    {value : Second} {rest : List Token}
    (accepted : (run.1.map change, run.2) = (.ok value, rest)) :
    ∃ first, run = (.ok first, rest) ∧ change first = value := by
  obtain ⟨result, left⟩ := run
  obtain ⟨changed, rfl⟩ := Prod.mk.inj accepted
  cases result with
  | error error => simp [Except.map] at changed
  | ok first => exact ⟨first, rfl, Except.ok.inj changed⟩

/-- Changing the results of a parser changes only the results of its runs. -/
theorem parse_map (change : First -> Second) (parser : Parser First) (tokens : List Token) :
    (parser.map change).parse tokens =
      ((parser.parse tokens).1.map change, (parser.parse tokens).2) :=
  parseFrom_map_of_feed parser (parser.map change) id change (fun _ _ => rfl) parser.start tokens

/-- Once the first parser is done, the second runs and its result is paired with the first one. -/
theorem parseFrom_andThen_second (first : Parser First) (second : Parser Second) (value : First)
    (state : second.State) (tokens : List Token) :
    (first.andThen second).parseFrom (.inr (value, state)) tokens =
      ((second.parseFrom state tokens).1.map (value, ·), (second.parseFrom state tokens).2) :=
  parseFrom_map_of_feed second (first.andThen second) (fun next => .inr (value, next)) (value, ·)
    (fun _ _ => rfl) state tokens

theorem parseFrom_andThen (first : Parser First) (second : Parser Second) (state : first.State)
    (tokens : List Token) :
    (first.andThen second).parseFrom (.inl state) tokens =
      match first.parseFrom state tokens with
      | (.ok value, rest) => ((second.parse rest).1.map (value, ·), (second.parse rest).2)
      | (.error error, rest) => (.error error, rest) := by
  rcases first.parseFrom_cases state tokens with
    ⟨token, rest, next, rfl, fed, run⟩ | ⟨result, stopped, run⟩
  · have taken : (first.andThen second).feed (.inl state) (some token) = .shift (.inl next) := by
      simp [andThen, fed]
    rw [run, parseFrom_of_shift _ rest taken, parseFrom_andThen first second next rest]
  · rw [run]
    cases result with
    | error error =>
      have same : (first.andThen second).feed (.inl state) tokens.head? =
          .stop (.error error) := by
        simp [andThen, stopped, Verdict.stop]
      rw [parseFrom_of_stop _ same]
    | ok value =>
      -- The second parser starts at the very token at which the first one stops.
      have handed : (first.andThen second).feed (.inl state) tokens.head? =
          (first.andThen second).feed (.inr (value, second.start)) tokens.head? := by
        simp [andThen, stopped, Verdict.stop]
      rw [parseFrom_congr _ handed, parseFrom_andThen_second]
      rfl
termination_by tokens.length

/-- One parser after another: the second runs over what the first leaves, if the first accepts. -/
theorem parse_andThen (first : Parser First) (second : Parser Second) (tokens : List Token) :
    (first.andThen second).parse tokens =
      match first.parse tokens with
      | (.ok value, rest) => ((second.parse rest).1.map (value, ·), (second.parse rest).2)
      | (.error error, rest) => (.error error, rest) :=
  parseFrom_andThen first second first.start tokens

/-- One of two parsers runs, as the first token tells. -/
theorem parse_branch (chooses : Option Token -> Bool) (chosen otherwise : Parser Result)
    (tokens : List Token) :
    (branch chooses chosen otherwise).parse tokens =
      if chooses tokens.head? then chosen.parse tokens else otherwise.parse tokens := by
  have chosenRuns := parseFrom_map_of_feed chosen (branch chooses chosen otherwise)
    (fun next => some (.inl next)) id (fun _ _ => rfl) chosen.start tokens
  have otherwiseRuns := parseFrom_map_of_feed otherwise (branch chooses chosen otherwise)
    (fun next => some (.inr next)) id (fun _ _ => rfl) otherwise.start tokens
  by_cases choice : chooses tokens.head? = true
  · have handed : (branch chooses chosen otherwise).feed none tokens.head? =
        (branch chooses chosen otherwise).feed (some (.inl chosen.start)) tokens.head? := by
      simp [branch, choice]
    rw [if_pos choice, parse, parse]
    refine (parseFrom_congr _ handed).trans (chosenRuns.trans ?_)
    simp
  · have handed : (branch chooses chosen otherwise).feed none tokens.head? =
        (branch chooses chosen otherwise).feed (some (.inr otherwise.start)) tokens.head? := by
      simp [branch, choice]
    rw [if_neg choice, parse, parse]
    refine (parseFrom_congr _ handed).trans (otherwiseRuns.trans ?_)
    simp

/-- A keyword is taken where it stands. -/
theorem parse_keyword_cons (word : Token) (what : Expectation) (rest : List Token) :
    (keyword word what).parse (word :: rest) = (.ok (), rest) := by
  have taken : (keyword word what).feed false (some word) = .shift true := by simp [keyword]
  have stopped : (keyword word what).feed true rest.head? = .stop (.ok ()) := rfl
  rw [parse]
  exact (parseFrom_of_shift _ rest taken).trans (parseFrom_of_stop _ stopped)

end Parser

end ExprShell
