import ExprShell.Proofs.Conversation.Turns
/-!
# Accounting for every token

What a shell in parse mode writes about a stream is told by the segments of its tokens: a line for
each item on one output, a line for each syntax error on the other, and nothing else unless it
prompts. At the end every token has been taken, and the results have been flushed once.
-/

namespace ExprShell

namespace Event

theorem output_append (channel : Channel) (before after : List Event) :
    output channel (before ++ after) = output channel before ++ output channel after :=
  List.flatMap_append

theorem flushes_append (channel : Channel) (before after : List Event) :
    flushes channel (before ++ after) = flushes channel before + flushes channel after :=
  List.count_append

/-- What cannot be seen writes nothing. -/
theorem output_filter_isShown (channel : Channel) (events : List Event) :
    output channel (events.filter isShown) = output channel events := by
  induction events with
  | nil => rfl
  | cons event others inductionHypothesis =>
    have single : output channel ([event].filter isShown) = output channel [event] := by
      cases event <;> rfl
    rw [← List.singleton_append, List.filter_append, output_append, output_append,
      inductionHypothesis, single]

/-- What cannot be seen flushes nothing. -/
theorem flushes_filter_isShown (channel : Channel) (events : List Event) :
    flushes channel (events.filter isShown) = flushes channel events :=
  List.count_filter rfl

end Event

namespace Segment

/-- The lines that are written to an output about some segments. -/
def written (channel : Channel) (segments : List Segment) : List UInt8 :=
  (segments.filterMap (line? channel)).flatMap Utf8.encode

theorem written_append (channel : Channel) (before after : List Segment) :
    written channel (before ++ after) = written channel before ++ written channel after := by
  rw [written, List.filterMap_append, List.flatMap_append]
  rfl

theorem written_singleton (channel : Channel) (segment : Segment) :
    written channel [segment] = (segment.line? channel).toList.flatMap Utf8.encode := by
  cases written : segment.line? channel <;> simp [Segment.written, written]

theorem written_eq_flatMap (channel : Channel) (segments : List Segment) :
    written channel segments = segments.flatMap fun segment => written channel [segment] := by
  induction segments with
  | nil => rfl
  | cons segment others inductionHypothesis =>
    rw [List.flatMap_cons, ← inductionHypothesis, ← written_append, List.singleton_append]

end Segment

/-- Without prompts, the report of a segment is its line. -/
theorem Segment.output_report (channel : Channel) (segment : Segment) :
    Event.output channel segment.report = written channel [segment] := by
  rw [written_singleton]
  cases segment <;> cases channel <;> simp [report, line?, Event.output]

theorem Segment.flushes_report (channel : Channel) (segment : Segment) :
    Event.flushes channel segment.report = 0 := by
  cases segment <;> simp [report, Event.flushes]

theorem output_results_promptEvents (interactive : Bool) :
    Event.output .results (promptEvents interactive) = [] := by
  cases interactive <;> rfl

/-- What an output gets in front of each segment, about each segment, and at the end. -/
theorem output_transcript (channel : Channel) (interactive : Bool) (segments : List Segment) :
    Event.output channel (transcript interactive segments) =
      segments.flatMap (fun segment => Event.output channel (promptEvents interactive) ++
        Segment.written channel [segment]) ++ Event.output channel (promptEvents interactive) := by
  have closing : Event.output channel [.flushed .results] = [] := rfl
  rw [transcript, Event.output_append, Event.output_append, closing, List.append_nil]
  congr 1
  induction segments with
  | nil => rfl
  | cons segment others inductionHypothesis =>
    rw [List.flatMap_cons, Event.output_append, inductionHypothesis, Event.output_append,
      segment.output_report, List.flatMap_cons]

/-- Without prompts, what is written about some segments is their lines. -/
theorem output_transcript_quiet (channel : Channel) (segments : List Segment) :
    Event.output channel (transcript false segments) = Segment.written channel segments := by
  have noPrompt : Event.output channel (promptEvents false) = [] := rfl
  rw [output_transcript, noPrompt, List.append_nil, Segment.written_eq_flatMap]
  rfl

theorem flushes_promptEvents (interactive : Bool) :
    Event.flushes .results (promptEvents interactive) = 0 := by
  cases interactive <;> rfl

/-- Reporting segments does not flush the results. -/
theorem flushes_reports (interactive : Bool) (segments : List Segment) :
    Event.flushes .results (reports interactive segments) = 0 := by
  induction segments with
  | nil => rfl
  | cons segment others inductionHypothesis =>
    rw [reports, List.flatMap_cons, ← reports, Event.flushes_append, Event.flushes_append,
      flushes_promptEvents, segment.flushes_report, inductionHypothesis]

/-- The results are flushed at the end only. -/
theorem flushes_transcript (interactive : Bool) (segments : List Segment) :
    Event.flushes .results (transcript interactive segments) = 1 := by
  have closing : Event.flushes .results [.flushed .results] = 1 := rfl
  rw [transcript, ← reports, Event.flushes_append, Event.flushes_append, flushes_reports,
    flushes_promptEvents, closing]

namespace Shell

section Runs

variable (shell : Shell) {stream : TokenStream} {segments : List Segment}
  (parsing : shell.session.config.mode = .parse) (unlimited : shell.console = .unlimited)
  (segmentation : Segmentation shell.operators stream.tokens segments)

include parsing unlimited segmentation

/-- A shell takes a turn for each segment of the tokens of a stream, and shows what they tell. -/
theorem run_of_segmentation :
    (shell.greet stream).Turns segments ∧
      (shell.greet stream).Leads (shell.run stream) (transcript shell.interactive segments)
        (segments.countP Segment.isRejected) ∧
      (shell.run stream).IsOver :=
  Conversation.run_of_segmentation parsing unlimited rfl segmentation

/-- A shell counts the segments that are no items. -/
theorem errors_run :
    (shell.run stream).errors = shell.errors + segments.countP Segment.isRejected :=
  (shell.run_of_segmentation parsing unlimited segmentation).2.1.errors

theorem console_run : (shell.run stream).console = .unlimited :=
  (shell.run_of_segmentation parsing unlimited segmentation).2.1.console.trans unlimited

theorem session_run : (shell.run stream).session = shell.session :=
  (shell.run_of_segmentation parsing unlimited segmentation).2.1.session

theorem shown_run : (shell.run stream).shown = transcript shell.interactive segments :=
  (shell.run_of_segmentation parsing unlimited segmentation).2.1.shown

theorem flushes_run : Event.flushes .results (shell.run stream).events = 1 := by
  rw [← Event.flushes_filter_isShown, ← Conversation.shown,
    shell.shown_run parsing unlimited segmentation, flushes_transcript]

/-- A shell that does not prompt writes the lines of the segments and nothing else. -/
theorem output_run (quiet : shell.interactive = false) (channel : Channel) :
    Event.output channel (shell.run stream).events = Segment.written channel segments := by
  rw [← Event.output_filter_isShown, ← Conversation.shown,
    shell.shown_run parsing unlimited segmentation, quiet, output_transcript_quiet]

end Runs

/-- A shell in parse mode that does not prompt cuts the tokens of a stream into segments and takes
them turn by turn. It ends at the end of the input with its results flushed once, and it has written
a line for each item, in order, to one output and a line for each syntax error, in order, to the
other. -/
theorem run_accounts_for_every_token (shell : Shell)
    (parsing : shell.session.config.mode = .parse) (quiet : shell.interactive = false)
    (unlimited : shell.console = .unlimited) (stream : TokenStream) :
    ∃ segments,
      (shell.greet stream).Turns segments ∧
      segments.flatMap Segment.tokens = stream.tokens ∧
      (∀ segment ∈ segments, segment.tokens ≠ []) ∧
      (shell.run stream).IsOver ∧
      (∀ channel, Event.output channel (shell.run stream).events =
        (segments.filterMap (Segment.line? channel)).flatMap Utf8.encode) ∧
      (shell.run stream).errors = shell.errors + segments.countP Segment.isRejected ∧
      Event.flushes .results (shell.run stream).events = 1 := by
  obtain ⟨segments, segmentation⟩ := exists_segmentation shell.operators stream.tokens
  obtain ⟨turns, _, isOver⟩ := shell.run_of_segmentation parsing unlimited segmentation
  exact ⟨segments, turns, segmentation.flatMap_tokens, segmentation.tokens_ne_nil, isOver,
    shell.output_run parsing unlimited segmentation quiet,
    shell.errors_run parsing unlimited segmentation,
    shell.flushes_run parsing unlimited segmentation⟩

/-- A stray bracket in front of an expression, a separator, and a definition that the end of the
input cuts off. -/
theorem run_accounts_for_stray_bracket :
    let shell : Shell := .start .standard .parsing false .unlimited
    let tokens : List Token := [.symbol ')', .name "x", .itemSeparator, .define, .name "f"]
    let stream : TokenStream := ⟨[], tokens, some .endOfInput, false, 0⟩
    shell.session.config.mode = .parse ∧ shell.interactive = false ∧
      shell.console = .unlimited ∧
      ∃ segments, (shell.greet stream).Turns segments ∧
        segments.flatMap Segment.tokens = tokens ∧ (shell.run stream).IsOver ∧
        (shell.run stream).errors = segments.countP Segment.isRejected ∧
        ∀ channel, Event.output channel (shell.run stream).events =
          (segments.filterMap (Segment.line? channel)).flatMap Utf8.encode := by
  intro shell tokens stream
  obtain ⟨segments, turns, all, _, isOver, output, errors, _⟩ :=
    run_accounts_for_every_token shell rfl rfl rfl stream
  exact ⟨rfl, rfl, rfl, segments, turns, all, isOver, errors.trans (Nat.zero_add _), output⟩

end Shell

end ExprShell
