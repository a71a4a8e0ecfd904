import ExprShell.Proofs.Grammar.Coverage
/-!
# Exactly the sentences are accepted

What the item parser accepts is a sentence of the grammar that ends where the parser stops, and
every sentence that ends there is accepted. So the parser finds the only sentence there is.
-/

namespace ExprShell

variable {operators : Operators}

/-- What is read as an expression is a phrase. -/
theorem exists_phrase_of_parse {tokens rest : List Token} {expr : Expr}
    (accepted : (Parser.expression operators).parse tokens = (.ok expr, rest)) :
    ∃ phrase : Phrase operators, tokens = phrase.tokens ++ rest ∧ phrase.Writes expr ∧
      phrase.EndsBefore rest := by
  obtain ⟨taken, final, parts, walked, stopped⟩ :=
    (Parser.expression operators).exists_walk (Parser.expression operators).start tokens
  rw [← Parser.parse, accepted] at parts stopped
  have start : (⟨[], [], .operand⟩ : ExpressionState).Covers operators [] :=
    .intro .nil .nil .operand
  obtain ⟨phrase, same, writes, ends⟩ :=
    ExpressionState.exists_phrase_of_accept (ExpressionState.covers_walk start walked) stopped
  exact ⟨phrase, by rw [same, List.nil_append, parts], writes, ends⟩

/-- What is read as an item is a sentence. -/
theorem exists_sentence_of_parse {tokens rest : List Token} {item : Item}
    (accepted : (Parser.item operators).parse tokens = (.ok item, rest)) :
    ∃ sentence : Sentence operators, sentence.Stands tokens rest ∧ sentence.Writes item := by
  by_cases defines : tokens.head? = some .define
  · obtain ⟨others, rfl⟩ := List.head?_eq_some_iff.mp defines
    rw [Parser.parse_item_define] at accepted
    rcases read : Parser.prototype.parse others with ⟨result, later⟩
    rw [read] at accepted
    cases result with
    | error error => simp at accepted
    | ok prototype =>
      obtain rfl := Parser.parse_prototype_eq_ok_iff.mp read
      obtain ⟨expr, readBody, rfl⟩ := Parser.exists_ok_of_map accepted
      obtain ⟨phrase, rfl, writes, ends⟩ := exists_phrase_of_parse readBody
      exact ⟨.definition prototype phrase, ⟨by simp [Sentence.tokens], ends⟩,
        .definition prototype writes⟩
  · by_cases declares : tokens.head? = some .declare
    · obtain ⟨others, rfl⟩ := List.head?_eq_some_iff.mp declares
      rw [Parser.parse_item_declare] at accepted
      obtain ⟨prototype, read, rfl⟩ := Parser.exists_ok_of_map accepted
      obtain rfl := Parser.parse_prototype_eq_ok_iff.mp read
      exact ⟨.declaration prototype, ⟨by simp [Sentence.tokens], trivial⟩, .declaration prototype⟩
    · rw [Parser.parse_item_expression defines declares] at accepted
      obtain ⟨expr, readBody, rfl⟩ := Parser.exists_ok_of_map accepted
      obtain ⟨phrase, rfl, writes, ends⟩ := exists_phrase_of_parse readBody
      exact ⟨.expression phrase, ⟨rfl, ends⟩, .expression writes⟩

/-- Where a sentence stands, a run over a stream reads it and leaves what is behind it. -/
theorem Sentence.Stands.run_item (leaves : operators.LeavesSigns) {stream : TokenStream}
    {sentence : Sentence operators} {rest : List Token}
    (stands : sentence.Stands stream.tokens rest) :
    ((Parser.item operators).run stream).1 = .ok sentence.item ∧
      ((Parser.item operators).run stream).2.tokens = rest := by
  rw [Parser.run_fst, Parser.tokens_run, stands.tokens_eq,
    sentence.parse_tokens leaves stands.ends]
  exact ⟨rfl, rfl⟩

/-- The item parser accepts a stream and leaves some tokens exactly where a sentence stands in front
of them. Whatever sentence stands there, its tokens are the only ones, and the item is one that the
sentence writes. -/
theorem run_item_ok_iff_sentence (operators : Operators) (leaves : operators.LeavesSigns)
    (stream : TokenStream) :
    let run := (Parser.item operators).run stream
    (∀ rest, ((∃ item, run.1 = .ok item) ∧ run.2.tokens = rest) ↔
      ∃ sentence : Sentence operators, sentence.Stands stream.tokens rest) ∧
    ∀ (sentence : Sentence operators) rest, sentence.Stands stream.tokens rest →
      (∃ item, run.1 = .ok item ∧ sentence.Writes item) ∧
      ∀ (other : Sentence operators) rest', other.Stands stream.tokens rest' →
        other.tokens = sentence.tokens := by
  intro run
  refine ⟨fun rest => ⟨?_, ?_⟩, ?_⟩
  · rintro ⟨⟨item, accepted⟩, rfl⟩
    have parsed : (Parser.item operators).parse stream.tokens = (.ok item, run.2.tokens) := by
      rw [← accepted]
      exact ((Parser.item operators).runFrom_eq_parseFrom _ stream).symm
    obtain ⟨sentence, stands, _⟩ := exists_sentence_of_parse parsed
    exact ⟨sentence, stands⟩
  · rintro ⟨sentence, stands⟩
    have accepted := stands.run_item leaves
    exact ⟨⟨sentence.item, accepted.1⟩, accepted.2⟩
  · intro sentence rest stands
    have accepted := stands.run_item leaves
    refine ⟨⟨sentence.item, accepted.1, sentence.writes_item⟩, ?_⟩
    intro other rest' otherStands
    -- One run leaves one rest, so two sentences that stand there have the same tokens.
    obtain rfl : rest' = rest := (otherStands.run_item leaves).2.symm.trans accepted.2
    exact List.append_cancel_right (otherStands.tokens_eq.symm.trans stands.tokens_eq)

/-- A definition ends where the next item starts. Its body calls a function with two arguments, one
of them a call without any. -/
theorem run_item_definition_before_declaration :
    let x : Phrase .standard := .operand (.reference "x")
    let body : Phrase .standard :=
      .chain (.call "g" [x, .operand (.call "h" [])]) '*' rfl (.operand (.group x))
    let sentence : Sentence .standard := .definition ⟨"f", ["x"]⟩ body
    let rest : List Token := [.declare, .name "k", .symbol '(', .symbol ')']
    let stream : TokenStream := ⟨[], sentence.tokens ++ rest, some .endOfInput, false, 0⟩
    let run := (Parser.item .standard).run stream
    Operators.standard.LeavesSigns ∧ sentence.Stands stream.tokens rest ∧ run.2.tokens = rest ∧
      ∃ item, run.1 = .ok item ∧ sentence.Writes item := by
  intro x body sentence rest stream run
  have leaves : Operators.standard.LeavesSigns := ⟨by decide, by decide, by decide⟩
  have stands : sentence.Stands stream.tokens rest :=
    ⟨by simp [stream, TokenStream.tokens], rfl, fun _ _ => by decide⟩
  obtain ⟨exactly, unique⟩ := run_item_ok_iff_sentence .standard leaves stream
  exact ⟨leaves, stands, ((exactly rest).mpr ⟨sentence, stands⟩).2,
    (unique sentence rest stands).1⟩

end ExprShell
