import ExprShell.Printer
import ExprShell.Proofs.Parser.Climbing
/-!
# Reading prototypes and items

The tokens of a prototype are read as that prototype whatever comes behind them, and nothing else is
read as a prototype. What an item parser gives for a definition, a declaration or an expression is
put together from what the prototype parser and the expression parser give.
-/

namespace ExprShell.Parser

variable {operators : Operators} {rest : List Token}

section Prototypes

variable {function : String} {latestFirst : List String}

/-- Parameters are read up to the closing bracket. -/
theorem parseFrom_parameters (names : List String) :
    prototype.parseFrom (.parameters function latestFirst)
        (names.map .name ++ ExpressionState.closing :: rest) =
      (.ok ⟨function, latestFirst.reverse ++ names⟩, rest) := by
  induction names generalizing latestFirst with
  | nil =>
    have taken : prototype.feed (.parameters function latestFirst) (some ExpressionState.closing) =
        .shift (.complete ⟨function, latestFirst.reverse⟩) := rfl
    have stopped : prototype.feed (.complete ⟨function, latestFirst.reverse⟩) rest.head? =
        .stop (.ok ⟨function, latestFirst.reverse⟩) := rfl
    rw [List.map_nil, List.nil_append, parseFrom_of_shift _ rest taken,
      parseFrom_of_stop _ stopped, List.append_nil]
  | cons name others inductionHypothesis =>
    have taken : prototype.feed (.parameters function latestFirst) (some (.name name)) =
        .shift (.parameters function (name :: latestFirst)) := rfl
    rw [List.map_cons, List.cons_append, parseFrom_of_shift _ _ taken, inductionHypothesis,
      List.reverse_cons, List.append_assoc, List.singleton_append]

/-- The tokens of a prototype are read as that prototype. -/
theorem parse_prototype (p : Prototype) (rest : List Token) :
    prototype.parse (p.tokens ++ rest) = (.ok p, rest) := by
  have named : prototype.feed prototype.start (some (.name p.name)) = .shift (.opening p.name) :=
    rfl
  have opened : prototype.feed (.opening p.name) (some ExpressionState.opening) =
      .shift (.parameters p.name []) := rfl
  have shape : p.tokens ++ rest = .name p.name :: ExpressionState.opening ::
      (p.parameters.map .name ++ ExpressionState.closing :: rest) := by
    simp [Prototype.tokens, bracketed]
  rw [shape, parse, parseFrom_of_shift _ _ named, parseFrom_of_shift _ _ opened]
  exact parseFrom_parameters p.parameters

/-- Anything but a closing bracket behind the parameters is an error. -/
theorem parse_parameters_of_head {tokens : List Token}
    (noName : ∀ name, tokens.head? ≠ some (.name name))
    (unclosed : tokens.head? ≠ some ExpressionState.closing) :
    prototype.parseFrom (.parameters function latestFirst) tokens =
      (.error (.expected .closingOfParameters tokens.head?), tokens) := by
  apply parseFrom_of_stop
  simp only [prototype]
  unfold PrototypeState.feed
  split <;> simp_all [ExpressionState.closing, Verdict.stop]

/-- Anything but an opening bracket behind the name of a function is an error. -/
theorem parse_opening_of_head {tokens : List Token}
    (unopened : tokens.head? ≠ some ExpressionState.opening) :
    prototype.parseFrom (.opening function) tokens =
      (.error (.expected .openingOfParameters tokens.head?), tokens) := by
  apply parseFrom_of_stop
  simp only [prototype]
  unfold PrototypeState.feed
  split <;> simp_all [ExpressionState.opening, Verdict.stop]

/-- Anything but a name where a prototype should start is an error. -/
theorem parse_prototype_of_head {tokens : List Token}
    (noName : ∀ name, tokens.head? ≠ some (.name name)) :
    prototype.parse tokens = (.error (.expected .functionName tokens.head?), tokens) := by
  apply parseFrom_of_stop
  simp only [prototype]
  unfold PrototypeState.feed
  split <;> simp_all [Verdict.stop]

/-- Tokens go on with parameters and a closing bracket, or no parameters are read. -/
theorem parameters_or_error (tokens : List Token) :
    (∃ (names : List String) (later : List Token), tokens = names.map .name ++
        ExpressionState.closing :: later) ∨
      ∀ function latestFirst, ∃ error later,
        prototype.parseFrom (.parameters function latestFirst) tokens = (.error error, later) := by
  induction tokens with
  | nil =>
    exact .inr fun _ _ => ⟨_, _, parse_parameters_of_head (by simp) (by simp)⟩
  | cons token rest inductionHypothesis =>
    by_cases named : ∃ name, token = .name name
    · obtain ⟨name, rfl⟩ := named
      rcases inductionHypothesis with ⟨names, later, rfl⟩ | failure
      · exact .inl ⟨name :: names, later, rfl⟩
      · right
        intro function latestFirst
        have taken : prototype.feed (.parameters function latestFirst) (some (.name name)) =
            .shift (.parameters function (name :: latestFirst)) := rfl
        rw [parseFrom_of_shift _ rest taken]
        exact failure function (name :: latestFirst)
    · by_cases closed : token = ExpressionState.closing
      · exact .inl ⟨[], rest, by rw [closed]; rfl⟩
      · right
        intro function latestFirst
        refine ⟨_, _, parse_parameters_of_head (fun name found => named ⟨name, ?_⟩) ?_⟩
        · exact Option.some.inj found
        · simpa using closed

/-- Tokens start with those of a prototype, or no prototype is read. -/
theorem prototype_or_error (tokens : List Token) :
    (∃ (p : Prototype) (later : List Token), tokens = p.tokens ++ later) ∨
      ∃ error later, prototype.parse tokens = (.error error, later) := by
  match tokens with
  | .name name :: rest =>
    have taken : prototype.feed prototype.start (some (.name name)) = .shift (.opening name) := rfl
    rw [parse, parseFrom_of_shift _ rest taken]
    by_cases opened : rest.head? = some ExpressionState.opening
    · obtain ⟨others, rfl⟩ := List.head?_eq_some_iff.mp opened
      have next : prototype.feed (.opening name) (some ExpressionState.opening) =
          .shift (.parameters name []) := rfl
      rcases parameters_or_error others with ⟨names, later, rfl⟩ | failure
      · exact .inl ⟨⟨name, names⟩, later, by simp [Prototype.tokens, bracketed]⟩
      · right
        rw [parseFrom_of_shift _ others next]
        exact failure name []
    · exact .inr ⟨_, _, parse_opening_of_head opened⟩
  | [] | .define :: _ | .declare :: _ | .number _ :: _ | .symbol _ :: _ =>
    exact .inr ⟨_, _, parse_prototype_of_head (by simp)⟩

/-- A prototype is read exactly where its tokens stand. -/
theorem parse_prototype_eq_ok_iff {tokens : List Token} {p : Prototype} :
    prototype.parse tokens = (.ok p, rest) ↔ tokens = p.tokens ++ rest := by
  constructor
  · intro read
    rcases prototype_or_error tokens with ⟨other, later, rfl⟩ | ⟨error, later, failed⟩
    · rw [parse_prototype] at read
      obtain ⟨same, rfl⟩ := Prod.mk.inj read
      obtain rfl := Except.ok.inj same
      rfl
    · rw [failed] at read
      simp at read
  · rintro rfl
    exact parse_prototype p rest

end Prototypes

/-! ## Items -/

theorem parse_item_declare (rest : List Token) :
    (item operators).parse (.declare :: rest) =
      ((prototype.parse rest).1.map .declaration, (prototype.parse rest).2) := by
  rw [item, parse_branch, parse_branch, if_neg (by simp), if_pos (by simp), parse_map, declaration,
    parse_map, parse_andThen, parse_keyword_cons]
  dsimp only
  rcases prototype.parse rest with ⟨result, later⟩
  cases result <;> rfl

theorem parse_item_define (rest : List Token) :
    (item operators).parse (.define :: rest) =
      match prototype.parse rest with
      | (.ok p, later) =>
        (((expression operators).parse later).1.map fun body => .definition ⟨p, body⟩,
          ((expression operators).parse later).2)
      | (.error error, later) => (.error error, later) := by
  rw [item, parse_branch, if_pos (by simp), parse_map, definition, parse_map, parse_andThen,
    parse_keyword_cons]
  simp only [parse_andThen]
  rcases prototype.parse rest with ⟨result, later⟩
  cases result with
  | error error => rfl
  | ok p =>
    dsimp only
    rcases (expression operators).parse later with ⟨body, last⟩
    cases body <;> rfl

/-- Whatever starts with neither keyword is read as an expression. -/
theorem parse_item_expression {tokens : List Token} (noDefine : tokens.head? ≠ some .define)
    (noDeclare : tokens.head? ≠ some .declare) :
    (item operators).parse tokens =
      (((expression operators).parse tokens).1.map .expression,
        ((expression operators).parse tokens).2) := by
  rw [item, parse_branch, parse_branch, if_neg (by simpa using noDefine),
    if_neg (by simpa using noDeclare), parse_map]

end ExprShell.Parser
