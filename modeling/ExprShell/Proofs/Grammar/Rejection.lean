import ExprShell.Proofs.Grammar.Exactness
import ExprShell.Proofs.Parser.Constructs
/-!
# Errors are found at the first token that no sentence goes on with

Whatever a parser has taken can be completed: names that are open may be called without arguments,
operators get an operand, and brackets are closed. So what an item parser takes before it fails is
the beginning of a sentence. The token at which it fails is one that no sentence goes on with there,
since a sentence is read to its end.
-/

namespace ExprShell

variable {operators : Operators}

/-! ## Prototypes -/

namespace PrototypeState

/-- The tokens that lead to a state. -/
def read : PrototypeState -> List Token
  | name => []
  | opening function => [.name function]
  | parameters function latestFirst =>
    .name function :: ExpressionState.opening :: latestFirst.reverse.map .name
  | complete prototype => prototype.tokens

theorem read_of_shift {state next : PrototypeState} {token : Token}
    (taken : state.feed (some token) = .shift next) : next.read = state.read ++ [token] := by
  unfold feed at taken
  split at taken <;> simp_all only [Option.some.injEq, Verdict.shift.injEq, reduceCtorEq]
  case h_1 => simp [← taken, read]
  case h_3 => simp [← taken, read, ExpressionState.opening]
  case h_5 => simp [← taken, read]
  case h_6 => simp [← taken, read, Prototype.tokens, bracketed, ExpressionState.closing]

theorem read_of_walk {state final : PrototypeState} {taken : List Token}
    (walked : Parser.prototype.walk state taken = some final) :
    final.read = state.read ++ taken := by
  induction taken generalizing state with
  | nil =>
    obtain rfl := Option.some.inj walked
    exact (List.append_nil _).symm
  | cons token rest inductionHypothesis =>
    simp only [Parser.walk] at walked
    split at walked
    · rename_i next fed
      rw [inductionHypothesis walked, read_of_shift fed, List.append_assoc,
        List.singleton_append]
    · simp at walked

/-- What leads to a state is the beginning of a prototype. -/
theorem exists_prototype (state : PrototypeState) :
    ∃ prototype : Prototype, state.read <+: prototype.tokens := by
  cases state with
  | name => exact ⟨⟨"", []⟩, List.nil_prefix⟩
  | opening function => exact ⟨⟨function, []⟩, _, rfl⟩
  | parameters function latestFirst =>
    exact ⟨⟨function, latestFirst.reverse⟩, [ExpressionState.closing], by
      simp [read, Prototype.tokens, bracketed]⟩
  | complete prototype => exact ⟨prototype, List.prefix_rfl⟩

end PrototypeState

/-- What a prototype parser takes is the beginning of a prototype. -/
theorem exists_prototype_prefix (tokens : List Token) :
    ∃ (taken : List Token) (prototype : Prototype),
      tokens = taken ++ (Parser.prototype.parse tokens).2 ∧ taken <+: prototype.tokens := by
  obtain ⟨taken, final, parts, walked, _⟩ :=
    Parser.prototype.exists_walk Parser.prototype.start tokens
  obtain ⟨prototype, begins⟩ := PrototypeState.exists_prototype final
  rw [PrototypeState.read_of_walk walked] at begins
  exact ⟨taken, prototype, parts, begins⟩

/-! ## Expressions -/

/-- With a phrase inside, open brackets are the beginning of a phrase. -/
theorem Level.Covers.exists_phrase {outer : List Level} {tokens : List Token}
    (covers : Level.Covers operators outer tokens) (inner : Phrase operators) :
    ∃ phrase : Phrase operators, tokens ++ inner.tokens <+: phrase.tokens := by
  induction covers generalizing inner with
  | nil => exact ⟨inner, List.prefix_rfl⟩
  | cons levels pending opened inductionHypothesis =>
    rename_i tokens inBracket before
    -- The bracket with the phrase inside is an operand, behind those that wait in front of it.
    suffices closed : ∃ operand : Operand operators,
        inBracket ++ inner.tokens <+: operand.tokens by
      obtain ⟨operand, inOperand⟩ := closed
      obtain ⟨phrase, inPhrase⟩ := inductionHypothesis ((Phrase.operand operand).behind before)
      rw [Phrase.tokens_behind, Phrase.tokens] at inPhrase
      refine ⟨phrase, List.IsPrefix.trans ?_ inPhrase⟩
      rw [List.append_assoc, List.append_assoc, List.prefix_append_right_inj,
        List.prefix_append_right_inj]
      exact inOperand
    cases opened with
    | group =>
      exact ⟨.group inner, [ExpressionState.closing], by simp [Operand.tokens, bracketed]⟩
    | call function each =>
      rename_i phrases arguments
      refine ⟨.call function (phrases ++ [inner]), [ExpressionState.closing], ?_⟩
      simp [Operand.tokens, bracketed, Phrase.argumentTokens_append_singleton]

/-- The tokens that led to a state are the beginning of a phrase. -/
theorem ExpressionState.Covers.exists_phrase {state : ExpressionState} {tokens : List Token}
    (covers : state.Covers operators tokens) :
    ∃ phrase : Phrase operators, tokens <+: phrase.tokens := by
  cases covers with
  | intro levels pending current =>
    rename_i outerTokens focusTokens before
    suffices completed : ∃ operand : Operand operators, focusTokens <+: operand.tokens by
      obtain ⟨operand, inOperand⟩ := completed
      obtain ⟨phrase, inPhrase⟩ := levels.exists_phrase ((Phrase.operand operand).behind before)
      rw [Phrase.tokens_behind, Phrase.tokens] at inPhrase
      refine ⟨phrase, List.IsPrefix.trans ?_ inPhrase⟩
      rw [List.prefix_append_right_inj, List.prefix_append_right_inj]
      exact inOperand
    cases current with
    | operand => exact ⟨.reference "", List.nil_prefix⟩
    | name name => exact ⟨.reference name, List.prefix_rfl⟩
    | firstArgument function => exact ⟨.call function [], [ExpressionState.closing], rfl⟩
    | value writes noName => exact ⟨_, List.prefix_rfl⟩

/-- What an expression parser takes is the beginning of a phrase. -/
theorem exists_phrase_prefix (operators : Operators) (tokens : List Token) :
    ∃ (taken : List Token) (phrase : Phrase operators),
      tokens = taken ++ ((Parser.expression operators).parse tokens).2 ∧
        taken <+: phrase.tokens := by
  obtain ⟨taken, final, parts, walked, _⟩ :=
    (Parser.expression operators).exists_walk (Parser.expression operators).start tokens
  have start : (⟨[], [], .operand⟩ : ExpressionState).Covers operators [] :=
    .intro .nil .nil .operand
  obtain ⟨phrase, begins⟩ := (ExpressionState.covers_walk start walked).exists_phrase
  exact ⟨taken, phrase, parts, begins⟩

/-! ## Items -/

/-- What an item parser takes is the beginning of a sentence. -/
theorem exists_sentence_prefix (operators : Operators) (tokens : List Token) :
    ∃ (taken : List Token) (sentence : Sentence operators),
      tokens = taken ++ ((Parser.item operators).parse tokens).2 ∧
        taken <+: sentence.tokens := by
  by_cases defines : tokens.head? = some .define
  · obtain ⟨others, rfl⟩ := List.head?_eq_some_iff.mp defines
    obtain ⟨taken, prototype, parts, begins⟩ := exists_prototype_prefix others
    rw [Parser.parse_item_define]
    rcases read : Parser.prototype.parse others with ⟨result, later⟩
    rw [read] at parts
    cases result with
    | error error =>
      refine ⟨.define :: taken, .definition prototype (.operand (.reference "")),
        congrArg (.define :: ·) parts, ?_⟩
      exact List.cons_prefix_cons.mpr ⟨rfl, begins.trans (List.prefix_append _ _)⟩
    | ok complete =>
      obtain rfl := Parser.parse_prototype_eq_ok_iff.mp read
      obtain ⟨inBody, phrase, bodyParts, bodyBegins⟩ := exists_phrase_prefix operators later
      refine ⟨.define :: complete.tokens ++ inBody, .definition complete phrase, ?_, ?_⟩
      · rw [List.cons_append, List.cons_append, List.append_assoc, ← bodyParts]
      · exact (List.prefix_append_right_inj _).mpr bodyBegins
  · by_cases declares : tokens.head? = some .declare
    · obtain ⟨others, rfl⟩ := List.head?_eq_some_iff.mp declares
      obtain ⟨taken, prototype, parts, begins⟩ := exists_prototype_prefix others
      rw [Parser.parse_item_declare]
      exact ⟨.declare :: taken, .declaration prototype, congrArg (.declare :: ·) parts,
        List.cons_prefix_cons.mpr ⟨rfl, begins⟩⟩
    · rw [Parser.parse_item_expression defines declares]
      obtain ⟨taken, phrase, parts, begins⟩ := exists_phrase_prefix operators tokens
      exact ⟨taken, .expression phrase, parts, begins⟩

/-- Every sentence ends at the end of the tokens. -/
theorem Sentence.endsBefore_nil (sentence : Sentence operators) : sentence.EndsBefore [] := by
  cases sentence with
  | declaration prototype => trivial
  | definition prototype body => exact ⟨rfl, by simp⟩
  | expression body => exact ⟨rfl, by simp⟩

/-- Behind what an item parser takes before it fails, no sentence goes on with the token at which
it fails. At the end of the tokens no sentence ends. -/
theorem head?_ne_of_failure (leaves : operators.LeavesSigns) {taken rest : List Token}
    {error : SyntaxError}
    (failed : (Parser.item operators).parse (taken ++ rest) = (.error error, rest))
    (sentence : Sentence operators) {later : List Token}
    (begins : sentence.tokens = taken ++ later) : later.head? ≠ rest.head? := by
  intro sameHead
  have fails := (Parser.item operators).parseFrom_of_head? failed sameHead
  have reads := sentence.parse_tokens leaves sentence.endsBefore_nil
  rw [List.append_nil, begins, Parser.parse, fails] at reads
  simp at reads

/-- An error is found as early as it can be. Whatever is read, the error names the current token of
the stream. When an item cannot be read, the tokens that were taken are the beginning of a sentence,
the stream has gone no further than to the token behind them, and no sentence that begins with them
goes on with that token; at the end of the input, they are no sentence. -/
theorem run_item_fails_at_first_misfit (operators : Operators) :
    (∀ construct : Construct, (construct.parser operators).NamesCurrent) ∧
    (operators.LeavesSigns → ∀ (stream : TokenStream) (error : SyntaxError),
      let run := (Parser.item operators).run stream
      run.1 = .error error →
        ∃ taken, stream.tokens = taken ++ run.2.tokens ∧ run.2 = stream.past taken.length ∧
          error.found = run.2.head? ∧
          (∃ sentence : Sentence operators, taken <+: sentence.tokens) ∧
          (∀ token, run.2.head? = some token →
            ∀ sentence : Sentence operators, ¬ taken ++ [token] <+: sentence.tokens) ∧
          (run.2.head? = none → ∀ sentence : Sentence operators, sentence.tokens ≠ taken)) := by
  refine ⟨Construct.namesCurrent operators, ?_⟩
  intro leaves stream error run failed
  obtain ⟨taken, sentence, parts, begins⟩ := exists_sentence_prefix operators stream.tokens
  have named : error.found = run.2.head? :=
    Construct.namesCurrent operators .item stream error failed
  have sameHead : run.2.head? = run.2.tokens.head? := Parser.head?_run _ stream
  have parsed : (Parser.item operators).parse stream.tokens = (.error error, run.2.tokens) :=
    Prod.ext ((Parser.run_fst _ stream).symm.trans failed) (Parser.tokens_run _ stream).symm
  rw [parsed] at parts
  have passed : run.2 = stream.past taken.length :=
    congrArg Prod.snd (Parser.run_of_parse _ parts parsed)
  rw [parts] at parsed
  refine ⟨taken, parts, passed, named, ⟨sentence, begins⟩, ?_, ?_⟩
  · rintro token current other ⟨later, goesOn⟩
    rw [List.append_assoc, List.singleton_append] at goesOn
    refine head?_ne_of_failure leaves parsed other goesOn.symm ?_
    rw [← sameHead, current, List.head?_cons]
  · rintro atEnd other whole
    refine head?_ne_of_failure leaves parsed other (whole.trans (List.append_nil taken).symm) ?_
    rw [← sameHead, atEnd, List.head?_nil]

/-- A separator among the parameters of a definition. The tokens in front of it begin a sentence,
and no sentence has a separator there. -/
theorem run_item_fails_at_separator_among_parameters :
    let tokens : List Token :=
      [.define, .name "f", .symbol '(', .name "x", .itemSeparator, .symbol ')']
    let stream : TokenStream := ⟨[], tokens, some .endOfInput, false, 0⟩
    let run := (Parser.item .standard).run stream
    Operators.standard.LeavesSigns ∧
      run.1 = .error (.expected .closingOfParameters (some .itemSeparator)) ∧
      ∃ taken, stream.tokens = taken ++ run.2.tokens ∧ run.2 = stream.past taken.length ∧
        (∃ sentence : Sentence .standard, taken <+: sentence.tokens) ∧
        ∀ sentence : Sentence .standard, ¬ taken ++ [.itemSeparator] <+: sentence.tokens := by
  intro tokens stream run
  have leaves : Operators.standard.LeavesSigns := ⟨by decide, by decide, by decide⟩
  have failed : run.1 = .error (.expected .closingOfParameters (some .itemSeparator)) := by
    rw [Parser.run_fst]
    rfl
  obtain ⟨taken, parts, passed, named, begins, noSentence, _⟩ :=
    (run_item_fails_at_first_misfit .standard).2 leaves stream _ failed
  exact ⟨leaves, failed, taken, parts, passed, begins, noSentence _ named.symm⟩

end ExprShell
