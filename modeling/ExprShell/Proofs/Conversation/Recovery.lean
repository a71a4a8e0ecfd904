import ExprShell.Proofs.Conversation.Accounting
import ExprShell.Proofs.Parser.Barriers
import ExprShell.Proofs.Source.Delivery
import ExprShell.Proofs.Token.Adjacency
import Mathlib.Data.List.Basic
/-!
# Recovery at separators

A syntax error does not reach past the next separator. So a shell reports two texts with a separator
between them as it reports one after the other, except that an item that the end of the first text
would cut off is cut off by the separator.
-/

namespace ExprShell

variable {operators : Operators}

/-- The item parser in front of a separator: an error at the end of the tokens names the separator,
and all else is as without it. -/
theorem parse_item_append (leavesSeparator : operators.precedence? ';' = none)
    (tokens later : List Token) :
    (Parser.item operators).parse (tokens ++ .itemSeparator :: later) =
      ((if ((Parser.item operators).parse tokens).2 = [] then
          ((Parser.item operators).parse tokens).1.mapError (·.withFound (some .itemSeparator))
        else ((Parser.item operators).parse tokens).1),
        ((Parser.item operators).parse tokens).2 ++ .itemSeparator :: later) :=
  (Parser.meetsAlike_item_separator leavesSeparator).parseFrom_append _ tokens later

/-- A segment stays as it is when a separator and more tokens follow, except for an item that the
end of the input would cut off: it is cut off by the separator. -/
theorem Segment.Cuts.append_separator (leavesSeparator : operators.precedence? ';' = none)
    {segment : Segment} {tokens left : List Token} (cuts : segment.Cuts operators tokens left)
    (later : List Token) :
    (segment.isCutOff = false ∧
      segment.Cuts operators (tokens ++ .itemSeparator :: later)
        (left ++ .itemSeparator :: later)) ∨
    ∃ taken error, segment = .rejected taken none error ∧ error.found = none ∧ left = [] ∧
      Segment.Cuts operators (.rejected taken (some .itemSeparator)
        (error.withFound (some .itemSeparator))) (tokens ++ .itemSeparator :: later) later := by
  have nonempty := cuts.ne_nil
  have run := parse_item_append leavesSeparator tokens later
  have sameHead : (tokens ++ .itemSeparator :: later).head? = tokens.head? :=
    List.head?_append_of_ne_nil tokens nonempty
  cases cuts with
  | separator rest => exact .inl ⟨rfl, .separator _⟩
  | accepted unseparated read =>
    rw [← sameHead] at unseparated
    simp only [read, Except.mapError, ite_self] at run
    rw [List.append_assoc] at run unseparated ⊢
    exact .inl ⟨rfl, .accepted unseparated run⟩
  | rejected _ unseparated failed =>
    rename_i taken rest error _
    rw [← sameHead] at unseparated
    cases rest with
    | nil =>
      simp only [failed, if_true, Except.mapError] at run
      have found := Parser.found_of_parse (Parser.meetsAlike_item_self operators) failed
      rw [List.append_nil] at run unseparated ⊢
      exact .inr ⟨taken, error, rfl, found, rfl, .rejected (by simp) unseparated run⟩
    | cons token rest =>
      simp only [failed, List.cons_ne_nil, if_false] at run
      rw [List.append_assoc] at run unseparated ⊢
      exact .inl ⟨rfl, .rejected (by simp) unseparated run⟩

/-- Segments stay as they are when a separator and more segments follow, except that one that the
end of the input would cut off is cut off by the separator. -/
theorem Segmentation.append_separator (leavesSeparator : operators.precedence? ';' = none)
    {tokens later : List Token} {segments others : List Segment}
    (front : Segmentation operators tokens segments) (back : Segmentation operators later others) :
    ((∀ segment ∈ segments, segment.isCutOff = false) ∧
      Segmentation operators (tokens ++ .itemSeparator :: later)
        (segments ++ .separator :: others)) ∨
    ∃ before taken error, segments = before ++ [.rejected taken none error] ∧
      error.found = none ∧
      Segmentation operators (tokens ++ .itemSeparator :: later)
        (before ++ .rejected taken (some .itemSeparator)
          (error.withFound (some .itemSeparator)) :: others) := by
  induction front with
  | done => exact .inl ⟨by simp, .cut (.separator later) back⟩
  | cut cuts rest inductionHypothesis =>
    rename_i segment segments tokens left
    rcases cuts.append_separator leavesSeparator later with
      ⟨whole, longer⟩ | ⟨taken, error, rfl, found, rfl, longer⟩
    · rcases inductionHypothesis with ⟨allWhole, further⟩ |
        ⟨before, taken, error, rfl, found, further⟩
      · exact .inl ⟨List.forall_mem_cons.mpr ⟨whole, allWhole⟩, .cut longer further⟩
      · exact .inr ⟨segment :: before, taken, error, rfl, found, .cut longer further⟩
    · cases rest with
      | done => exact .inr ⟨[], taken, error, rfl, found, .cut longer back⟩
      | cut cutsNothing => exact absurd rfl cutsNothing.ne_nil

/-- A segment without an offending token is cut off by the end of the tokens, which its error
names. -/
theorem Segment.Cuts.of_cutOff {taken tokens rest : List Token} {error : SyntaxError}
    (cuts : (Segment.rejected taken none error).Cuts operators tokens rest) :
    rest = [] ∧ error.found = none := by
  generalize whole : Segment.rejected taken none error = segment at cuts
  cases cuts with
  | separator => simp at whole
  | accepted => simp at whole
  | rejected nonempty unseparated failed =>
    rename_i read left misfit
    obtain ⟨rfl, offending, rfl⟩ : taken = read ∧ none = left.head? ∧ error = misfit := by
      simpa using whole
    have found := Parser.found_of_parse (Parser.meetsAlike_item_self operators) failed
    obtain rfl := List.head?_eq_none_iff.mp offending.symm
    exact ⟨rfl, found⟩

/-- So it is the last one of all. -/
theorem Segmentation.of_cutOff {tokens taken : List Token} {before after : List Segment}
    {error : SyntaxError}
    (segmentation : Segmentation operators tokens (before ++ .rejected taken none error :: after)) :
    after = [] ∧ error.found = none := by
  induction before generalizing tokens with
  | nil =>
    cases segmentation with
    | cut cuts later =>
      obtain ⟨rfl, found⟩ := cuts.of_cutOff
      cases later with
      | done => exact ⟨rfl, found⟩
      | cut cutsNothing => exact absurd rfl cutsNothing.ne_nil
  | cons segment others inductionHypothesis =>
    cases segmentation with
    | cut cuts later => exact inductionHypothesis later

/-- The message about an item that is cut off, by the end of the input and by something else. -/
theorem Segment.exists_written_cutOff (taken : List Token) {error : SyntaxError}
    (cutOff : error.found = none) (offending : Option Token) :
    ∃ start finish, written .diagnostics [.rejected taken none error] =
        Utf8.encode (start ++ Token.describe none ++ finish) ∧
      written .diagnostics [.rejected taken offending (error.withFound offending)] =
        Utf8.encode (start ++ Token.describe offending ++ finish) := by
  obtain ⟨before, after, message⟩ := error.exists_message_withFound
  have atEnd := message none
  rw [SyntaxError.withFound_of_found cutOff] at atEnd
  refine ⟨"Error: " ++ before, after ++ "\n", ?_, ?_⟩
  · simp [written, line?, atEnd, String.append_assoc]
  · simp [written, line?, message, String.append_assoc]

/-- What is written about segments with a separator between them, beside what is written about those
in front of it and those behind it. -/
structure Separates (segments others joined : List Segment) : Prop where
  results : Segment.written .results joined =
    Segment.written .results segments ++ Segment.written .results others
  rejected : joined.countP Segment.isRejected =
    segments.countP Segment.isRejected + others.countP Segment.isRejected
  complete : (∀ segment ∈ segments, segment.isCutOff = false) →
    Segment.written .diagnostics joined =
      Segment.written .diagnostics segments ++ Segment.written .diagnostics others
  cutOff : (∃ segment ∈ segments, segment.isCutOff = true) →
    ∃ (lines : List UInt8) (start finish : String),
      Segment.written .diagnostics segments =
          lines ++ Utf8.encode (start ++ Token.describe none ++ finish) ∧
        Segment.written .diagnostics joined =
          lines ++ Utf8.encode (start ++ Token.describe (some .itemSeparator) ++ finish) ++
            Segment.written .diagnostics others

/-- Tokens with a separator between them are cut into segments that are reported as those in front
of it and those behind it. -/
theorem Segmentation.exists_separates (leavesSeparator : operators.precedence? ';' = none)
    {tokens later : List Token} {segments others : List Segment}
    (front : Segmentation operators tokens segments) (back : Segmentation operators later others) :
    ∃ joined, Segmentation operators (tokens ++ .itemSeparator :: later) joined ∧
      Separates segments others joined := by
  rcases front.append_separator leavesSeparator back with
    ⟨complete, joined⟩ | ⟨before, taken, error, rfl, found, joined⟩
  · have appends : ∀ channel, Segment.written channel (segments ++ .separator :: others) =
        Segment.written channel segments ++ Segment.written channel others :=
      fun channel => Segment.written_append channel segments _
    refine ⟨_, joined, appends .results, ?_, fun _ => appends .diagnostics, ?_⟩
    · simp [Segment.isRejected]
    · rintro ⟨segment, member, cutOff⟩
      simp [complete segment member] at cutOff
  · obtain ⟨start, finish, atEnd, atSeparator⟩ :=
      Segment.exists_written_cutOff taken found (some .itemSeparator)
    refine ⟨_, joined, ?_, ?_, ?_, fun _ => ?_⟩
    · rw [Segment.written_append, Segment.written_append]
      simp [Segment.written, Segment.line?]
    · simp [List.countP_cons, Segment.isRejected, Nat.add_comm, Nat.add_left_comm]
    · intro complete
      have whole := complete (.rejected taken none error) (by simp)
      simp [Segment.isCutOff] at whole
    · refine ⟨Segment.written .diagnostics before, start, finish, ?_, ?_⟩
      · rw [Segment.written_append, atEnd]
      · rw [← List.singleton_append, Segment.written_append, Segment.written_append, atSeparator,
          List.append_assoc]

/-- The tokens of two texts with a separator on a line of its own between them. -/
theorem Source.tokens_of_delivers_separated {first second joined : Source} {a b : List Char}
    (deliversFirst : first.Delivers (Utf8.encodeChars a))
    (deliversSecond : second.Delivers (Utf8.encodeChars b))
    (deliversJoined : joined.Delivers (Utf8.encodeChars (a ++ ['\n', ';', '\n'] ++ b))) :
    joined.tokens = first.tokens ++ .itemSeparator :: second.tokens := by
  have line : Token.ofText [';'] = [.itemSeparator] :=
    Token.ofText_spaced (by decide : ∀ token ∈ [Token.itemSeparator], token.isSpellable = true)
  have alone : [';'].splitOn '\n' = [[';']] := List.splitOn_eq_singleton (by decide)
  have shape : a ++ ['\n', ';', '\n'] ++ b = a ++ '\n' :: ([';'] ++ '\n' :: b) := by simp
  rw [tokens_of_delivers deliversJoined, tokens_of_delivers deliversFirst,
    tokens_of_delivers deliversSecond, shape, List.splitOn_append_cons_self,
    List.splitOn_append_cons_self, alone, List.flatMap_append, List.flatMap_append,
    List.flatMap_singleton, line]
  rfl

/-- A syntax error does not reach past a separator. A shell in parse mode that does not prompt
writes the same lines and counts the same errors for two texts with a separator between them as for
one after the other, and what it writes for the second is what it writes for that text alone. Only
where the end of the first text cuts an item off, the message about that item names the separator
instead of the end of the input. -/
theorem Shell.run_separated (shell : Shell) (parsing : shell.session.config.mode = .parse)
    (quiet : shell.interactive = false) (unlimited : shell.console = .unlimited)
    (leavesSeparator : shell.operators.precedence? ';' = none) (a b : List Char)
    (first second joined : Source) (deliversFirst : first.Delivers (Utf8.encodeChars a))
    (deliversSecond : second.Delivers (Utf8.encodeChars b))
    (deliversJoined : joined.Delivers (Utf8.encodeChars (a ++ ['\n', ';', '\n'] ++ b))) :
    let earlier := shell.run (.ofSource first)
    let later := (shell.after earlier).run (.ofSource second)
    let whole := shell.run (.ofSource joined)
    Event.output .results whole.events =
        Event.output .results earlier.events ++ Event.output .results later.events ∧
      whole.errors = later.errors ∧
      (∀ channel, Event.output channel later.events =
        Event.output channel (shell.run (.ofSource second)).events) ∧
      ∃ segments, Segmentation shell.operators first.tokens segments ∧
        ((∀ segment ∈ segments, segment.isCutOff = false) →
          Event.output .diagnostics whole.events =
            Event.output .diagnostics earlier.events ++ Event.output .diagnostics later.events) ∧
        ((∃ segment ∈ segments, segment.isCutOff = true) →
          ∃ (lines : List UInt8) (start finish : String),
            Event.output .diagnostics earlier.events =
                lines ++ Utf8.encode (start ++ "end of input" ++ finish) ∧
              Event.output .diagnostics whole.events =
                lines ++ Utf8.encode (start ++ "';'" ++ finish) ++
                  Event.output .diagnostics later.events) := by
  intro earlier later whole
  obtain ⟨segments, segmentation⟩ := exists_segmentation shell.operators first.tokens
  obtain ⟨others, back⟩ := exists_segmentation shell.operators second.tokens
  obtain ⟨joinedSegments, further, separates⟩ := segmentation.exists_separates leavesSeparator back
  rw [← Source.tokens_of_delivers_separated deliversFirst deliversSecond deliversJoined] at further
  have front := segmentation
  rw [← TokenStream.tokens_ofSource] at front back further
  have earlierWrites := shell.output_run parsing unlimited front quiet
  have wholeWrites := shell.output_run parsing unlimited further quiet
  have aloneWrites := shell.output_run parsing unlimited back quiet
  -- The session and the console are as before, so the second run meets what the first one met.
  have stillParsing : (shell.after earlier).session.config.mode = .parse :=
    (congrArg (·.config.mode) (shell.session_run parsing unlimited front)).trans parsing
  have stillUnlimited := shell.console_run parsing unlimited front
  have laterWrites := (shell.after earlier).output_run stillParsing stillUnlimited back quiet
  refine ⟨?_, ?_, fun channel => (laterWrites channel).trans (aloneWrites channel).symm, segments,
    segmentation, fun complete => ?_, fun cutOff => ?_⟩
  · rw [wholeWrites, earlierWrites, laterWrites, separates.results]
  · have earlierCounts := shell.errors_run parsing unlimited front
    have laterCounts := (shell.after earlier).errors_run stillParsing stillUnlimited back
    have wholeCounts := shell.errors_run parsing unlimited further
    have start : (shell.after earlier).errors = earlier.errors := rfl
    rw [wholeCounts, laterCounts, start, earlierCounts, separates.rejected, Nat.add_assoc]
  · rw [wholeWrites, earlierWrites, laterWrites, separates.complete complete]
  · rw [wholeWrites, earlierWrites, laterWrites]
    exact separates.cutOff cutOff

/-- A call that the first text leaves open is cut off by the separator, which the message names in
place of the end of the input, and the second text is read on its own. -/
theorem Shell.run_separated_open_call :
    let shell : Shell := .start .standard .parsing false .unlimited
    let a := ['f', '(']
    let b := ['x']
    let source (text : List Char) : Source := [.data (Utf8.encodeChars text)]
    let earlier := shell.run (.ofSource (source a))
    let later := (shell.after earlier).run (.ofSource (source b))
    let whole := shell.run (.ofSource (source (a ++ ['\n', ';', '\n'] ++ b)))
    let message (found : String) :=
      Utf8.encode ("Error: unknown token " ++ found ++ " when expecting an expression\n")
    shell.session.config.mode = .parse ∧ shell.interactive = false ∧
      shell.console = .unlimited ∧ shell.operators.precedence? ';' = none ∧
      (∀ text, (source text).Delivers (Utf8.encodeChars text)) ∧
      Event.output .results whole.events =
        Event.output .results earlier.events ++ Event.output .results later.events ∧
      whole.errors = later.errors ∧
      Event.output .diagnostics earlier.events = message "end of input" ∧
      Event.output .diagnostics later.events = [] ∧
      Event.output .diagnostics whole.events = message "';'" := by
  intro shell a b source earlier later whole message
  have leavesSeparator : shell.operators.precedence? ';' = none := by decide
  have delivers : ∀ text, (source text).Delivers (Utf8.encodeChars text) :=
    fun text => Source.Delivers.single (Utf8.encodeChars text)
  obtain ⟨results, errors, _⟩ := Shell.run_separated shell rfl rfl rfl leavesSeparator a b
    (source a) (source b) _ (delivers a) (delivers b) (delivers _)
  exact ⟨rfl, rfl, rfl, leavesSeparator, delivers, results, errors, by decide +kernel,
    by decide +kernel, by decide +kernel⟩

end ExprShell
