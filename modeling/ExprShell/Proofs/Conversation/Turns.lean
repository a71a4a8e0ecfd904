import ExprShell.Proofs.Conversation.Segments
import ExprShell.Proofs.Conversation.Steps
/-!
# Turns of a conversation

From one prompt to the next, a conversation takes one segment of the tokens to come and reports what
it found. So a conversation in parse mode takes every token exactly once, and what it shows is told
by the segments of its tokens.
-/

namespace ExprShell

namespace Segment

/-- Whether a segment is no item. -/
def isRejected : Segment -> Bool
  | rejected _ _ _ => true
  | _ => false

/-- Whether a segment is an item that the end of the input cuts off. -/
def isCutOff : Segment -> Bool
  | rejected _ none _ => true
  | _ => false

/-- The line that is written to an output about a segment, if there is one. -/
def line? (channel : Channel) : Segment -> Option String
  | accepted _ item =>
    if channel = .results then some ("Parsed " ++ item.describe ++ ".\n") else none
  | rejected _ _ error =>
    if channel = .diagnostics then some ("Error: " ++ error.message ++ "\n") else none
  | separator => none

/-- What is shown about a segment. -/
def report : Segment -> List Event
  | accepted _ item => [.wrote .results (Utf8.encode ("Parsed " ++ item.describe ++ ".\n"))]
  | rejected _ _ error => [.wrote .diagnostics (Utf8.encode ("Error: " ++ error.message ++ "\n"))]
  | separator => []

end Segment

/-- What is shown in front of each segment and in front of the end. -/
def promptEvents (interactive : Bool) : List Event :=
  if interactive then [.wrote .diagnostics (Utf8.encode promptText), .flushed .diagnostics] else []

/-- What is shown about some segments. -/
def reports (interactive : Bool) (segments : List Segment) : List Event :=
  segments.flatMap fun segment => promptEvents interactive ++ segment.report

theorem reports_concat (interactive : Bool) (before : List Segment) (segment : Segment) :
    reports interactive (before ++ [segment]) =
      reports interactive before ++ promptEvents interactive ++ segment.report := by
  simp [reports]

/-- What is shown of a whole conversation. -/
def transcript (interactive : Bool) (segments : List Segment) : List Event :=
  segments.flatMap (fun segment => promptEvents interactive ++ segment.report) ++
    (promptEvents interactive ++ [.flushed .results])

/-- At the end of its tokens, looking at a stream finds what ended it. -/
theorem TokenStream.ending_look_of_end {stream : TokenStream} (exhausted : stream.tokens = []) :
    stream.look.ending.isSome = true := by
  have filled : stream.fill.ending.isSome = true := by
    fun_induction TokenStream.fill stream with
    | case1 stream starved inductionHypothesis =>
      exact inductionHypothesis ((TokenStream.tokens_readLine starved.2).trans exhausted)
    | case2 stream settled =>
      have empty : stream.buffer = [] := (List.append_eq_nil_iff.mp exhausted).1
      simpa [empty, Option.isSome_iff_ne_none] using settled
  exact filled

namespace Conversation

variable {operators : Operators} {conversation next last : Conversation operators}

/-- An interactive conversation prompts before it looks at a token. -/
theorem leads_opening (unlimited : conversation.console = .unlimited)
    (phase : conversation.phase = .opening) :
    ∃ next, conversation.Leads next (promptEvents conversation.interactive) 0 ∧
      next.phase = .choosing ∧ next.stream = conversation.stream := by
  cases interactive : conversation.interactive with
  | false =>
    have opens := step_of_opening phase interactive
    exact ⟨_, ⟨.single opens, rfl, rfl, rfl, rfl, (List.append_nil _).symm⟩, rfl, rfl⟩
  | true =>
    have wrote := leads_write unlimited (step_of_prompting phase interactive)
    have prompted : (conversation.write .diagnostics promptText .prompted).phase = .prompted := by
      rw [write_of_unlimited unlimited]
    exact ⟨_, wrote.trans (leads_flush (step_of_prompted prompted)), rfl, rfl⟩

/-- The report of an item opens the next turn. -/
theorem leads_answering (parsing : conversation.session.config.mode = .parse)
    (unlimited : conversation.console = .unlimited) {item : Item}
    (phase : conversation.phase = .answering item) :
    ∃ next, conversation.Leads next
        [.wrote .results (Utf8.encode ("Parsed " ++ item.describe ++ ".\n"))] 0 ∧
      next.phase = .opening ∧ next.tokens = conversation.tokens := by
  refine ⟨_, leads_write unlimited (step_of_answering parsing phase), ?_, rfl⟩
  rw [write_of_unlimited unlimited]

/-- Skipping a token shows nothing and opens the next turn. -/
theorem leads_skipping (phase : conversation.phase = .skipping) :
    ∃ next, conversation.Leads next [] 0 ∧ next.phase = .opening ∧
      next.tokens = conversation.tokens.tail :=
  leads_advance (step_of_skipping phase)

/-- After the report of a syntax error the offending token is skipped. -/
theorem leads_complaining (unlimited : conversation.console = .unlimited) {error : SyntaxError}
    (phase : conversation.phase = .complaining (.unreadable error)) :
    ∃ next, conversation.Leads next
        [.wrote .diagnostics (Utf8.encode ("Error: " ++ error.message ++ "\n"))] 0 ∧
      next.phase = .opening ∧ next.tokens = conversation.tokens.tail := by
  have wrote := leads_write unlimited (step_of_complaining phase)
  have skips : (conversation.write .diagnostics ("Error: " ++ error.message ++ "\n")
      .skipping).phase = .skipping := by
    rw [write_of_unlimited unlimited]
  obtain ⟨next, leads, nextPhase, nextTokens⟩ := leads_skipping skips
  exact ⟨next, wrote.trans leads, nextPhase, nextTokens⟩

/-- A turn takes a segment, reports it, and leaves what is behind it. -/
theorem leads_turn (parsing : conversation.session.config.mode = .parse)
    (unlimited : conversation.console = .unlimited) (phase : conversation.phase = .opening)
    {segment : Segment} {rest : List Token}
    (cuts : segment.Cuts operators conversation.tokens rest) :
    ∃ next, conversation.Leads next (promptEvents conversation.interactive ++ segment.report)
        (if segment.isRejected then 1 else 0) ∧
      next.phase = .opening ∧ next.tokens = rest := by
  obtain ⟨front, prompted, frontPhase, frontStream⟩ := leads_opening unlimited phase
  have frontTokens : front.tokens = conversation.tokens := congrArg TokenStream.tokens frontStream
  rw [← frontTokens] at cuts
  have nonempty := cuts.ne_nil
  generalize coming : front.tokens = tokens at cuts
  cases cuts with
  | separator =>
    obtain ⟨skipping, looked, skippingPhase, skippingTokens, _⟩ :=
      leads_look (step_of_choosing frontPhase)
    rw [coming, List.head?_cons, choose, if_pos rfl] at looked skippingPhase
    obtain ⟨last, skipped, lastPhase, lastTokens⟩ := leads_skipping skippingPhase
    refine ⟨last, ?_, lastPhase, ?_⟩
    · simpa [Segment.report, Segment.isRejected, failuresOf] using
        (prompted.trans looked).trans skipped
    · rw [lastTokens, skippingTokens, coming, List.tail_cons]
  | accepted unseparated read =>
    rw [← coming] at read unseparated
    obtain ⟨answering, reading, answeringPhase, answeringTokens⟩ :=
      readsTo_of_choosing frontPhase nonempty unseparated
    rw [read] at reading answeringPhase answeringTokens
    have before := prompted.trans reading
    obtain ⟨last, answered, lastPhase, lastTokens⟩ :=
      leads_answering (by rw [before.session, parsing]) (by rw [before.console, unlimited])
        answeringPhase
    refine ⟨last, ?_, lastPhase, lastTokens.trans answeringTokens⟩
    simpa [Segment.report, Segment.isRejected, failuresOf, phaseOf] using before.trans answered
  | rejected _ unseparated failed =>
    rw [← coming] at failed unseparated
    obtain ⟨complaining, reading, complainingPhase, complainingTokens⟩ :=
      readsTo_of_choosing frontPhase nonempty unseparated
    rw [failed] at reading complainingPhase complainingTokens
    have before := prompted.trans reading
    obtain ⟨last, complained, lastPhase, lastTokens⟩ :=
      leads_complaining (by rw [before.console, unlimited]) complainingPhase
    refine ⟨last, ?_, lastPhase, by rw [lastTokens, complainingTokens]⟩
    simpa [Segment.report, Segment.isRejected, failuresOf, phaseOf] using before.trans complained

/-- A conversation at the end of its input, with nothing left to do. The flush of the results was
the last thing that it did. -/
structure IsOver (conversation : Conversation operators) : Prop where
  phase : conversation.phase = .closed
  tokens : conversation.tokens = []
  ended : conversation.stream.ending.isSome = true
  flushed : conversation.events.getLast? = some (.flushed .results)

/-- Without a token to come, a conversation flushes its results and is over. -/
theorem leads_closing (parsing : conversation.session.config.mode = .parse)
    (unlimited : conversation.console = .unlimited)
    (phase : conversation.phase = .opening) (exhausted : conversation.tokens = []) :
    ∃ last, conversation.Leads last
        (promptEvents conversation.interactive ++ [.flushed .results]) 0 ∧ last.IsOver := by
  obtain ⟨front, prompted, frontPhase, frontStream⟩ := leads_opening unlimited phase
  have frontTokens : front.tokens = conversation.tokens := congrArg TokenStream.tokens frontStream
  rw [exhausted] at frontTokens
  obtain ⟨closing, looked, closingPhase, closingTokens, closingStream⟩ :=
    leads_look (step_of_choosing frontPhase)
  rw [frontTokens, List.head?_nil, choose] at looked closingPhase
  have reached := prompted.trans looked
  have undumped : closing.session.config.mode ≠ .ir := by simp [reached.session, parsing]
  have whole := reached.trans (leads_flush (step_of_closing closingPhase undumped))
  rw [List.append_nil] at whole
  refine ⟨closing.flush .results .closed, whole, rfl, ?_, ?_, ?_⟩
  · exact closingTokens.trans frontTokens
  · rw [flush, closingStream]
    exact TokenStream.ending_look_of_end frontTokens
  · simp [events, flush]

/-- A conversation that opens again behind each of some segments, up to the end of its tokens. -/
inductive Turns : Conversation operators -> List Segment -> Prop
  | done {conversation : Conversation operators} (opens : conversation.phase = .opening)
      (exhausted : conversation.tokens = []) : Turns conversation []
  | turn {conversation next : Conversation operators} {segment : Segment}
      {segments : List Segment} (opens : conversation.phase = .opening)
      (steps : conversation.Steps next)
      (cuts : segment.Cuts operators conversation.tokens next.tokens)
      (later : Turns next segments) : Turns conversation (segment :: segments)

/-- A whole conversation takes a turn for each segment of its tokens and then closes. -/
theorem run_of_segmentation (parsing : conversation.session.config.mode = .parse)
    (unlimited : conversation.console = .unlimited) (phase : conversation.phase = .opening)
    {segments : List Segment} (segmentation : Segmentation operators conversation.tokens segments) :
    conversation.Turns segments ∧
      conversation.Leads conversation.run (transcript conversation.interactive segments)
        (segments.countP Segment.isRejected) ∧
      conversation.run.IsOver := by
  generalize coming : conversation.tokens = tokens at segmentation
  induction segmentation generalizing conversation with
  | done =>
    obtain ⟨last, leads, isOver⟩ := leads_closing parsing unlimited phase coming
    have ends : conversation.run = last :=
      leads.steps.run_eq.trans (run_of_step_eq_none (step_of_closed isOver.phase))
    rw [ends]
    exact ⟨.done phase coming, leads, isOver⟩
  | cut cuts later inductionHypothesis =>
    rename_i segment segments tokens rest
    rw [← coming] at cuts
    obtain ⟨next, leads, nextPhase, nextTokens⟩ := leads_turn parsing unlimited phase cuts
    obtain ⟨turns, further, isOver⟩ := inductionHypothesis (by rw [leads.session, parsing])
      (by rw [leads.console, unlimited]) nextPhase nextTokens
    rw [← nextTokens] at cuts
    rw [leads.steps.run_eq]
    refine ⟨.turn phase leads.steps cuts turns, ?_, isOver⟩
    have whole := leads.trans further
    rw [leads.interactive] at whole
    simpa [transcript, List.countP_cons, Nat.add_comm] using whole

end Conversation

end ExprShell
