import ExprShell.Proofs.Conversation.Limits
import ExprShell.Proofs.Conversation.Places
/-!
# Refused writes

Where an output refuses a write, a conversation stops with what it has done so far: it is the
conversation on a console that takes everything, cut at the first byte that is refused. Nothing is
written, flushed or taken any more, and the segments of the tokens tell which errors have been
counted and which token is the current one.
-/

namespace ExprShell

/-- What a conversation is about to write, told by the segments of its tokens: the phase, the output
and the text, what has been shown before, how many errors have been counted, and which tokens are
still to come. -/
inductive Utterance (shell : Shell) (tokens : List Token) :
    Phase shell.operators -> Channel -> String -> List Event -> Nat -> List Token -> Prop
  /-- The prompt with which a turn begins. All tokens of the turn are still to come. -/
  | prompt {before after : List Segment} (asks : shell.interactive = true)
      (segmentation : Segmentation shell.operators tokens (before ++ after)) :
      Utterance shell tokens .opening .diagnostics promptText (reports shell.interactive before)
        (shell.errors + before.countP Segment.isRejected) (after.flatMap Segment.tokens)
  /-- The result of an item. The current token is the one behind the item. -/
  | result {before after : List Segment} {taken : List Token} {item : Item}
      (segmentation : Segmentation shell.operators tokens
        (before ++ .accepted taken item :: after)) :
      Utterance shell tokens (.answering item) .results ("Parsed " ++ item.describe ++ ".\n")
        (reports shell.interactive before ++ promptEvents shell.interactive)
        (shell.errors + before.countP Segment.isRejected) (after.flatMap Segment.tokens)
  /-- The report of an error, which is counted already. The current token is the offending one. -/
  | report {before after : List Segment} {taken left : List Token} {error : SyntaxError}
      (segmentation : Segmentation shell.operators tokens
        (before ++ .rejected taken left.head? error :: after))
      (behind : left.tail = after.flatMap Segment.tokens) :
      Utterance shell tokens (.complaining (.unreadable error)) .diagnostics
        ("Error: " ++ error.message ++ "\n")
        (reports shell.interactive before ++ promptEvents shell.interactive)
        (shell.errors + before.countP Segment.isRejected + 1) left

/-- Before the end, the results are not flushed. -/
theorem Utterance.flushes_shown {shell : Shell} {tokens left : List Token}
    {phase : Phase shell.operators} {channel : Channel} {text : String} {shown : List Event}
    {errors : Nat} (utterance : Utterance shell tokens phase channel text shown errors left) :
    Event.flushes .results shown = 0 := by
  cases utterance with
  | prompt => exact flushes_reports _ _
  | result => rw [Event.flushes_append, flushes_reports, flushes_promptEvents]
  | report => rw [Event.flushes_append, flushes_reports, flushes_promptEvents]

/-- A place tells what is about to be written there. -/
theorem Conversation.Stands.utterance {shell : Shell} {tokens : List Token}
    {conversation : Conversation shell.operators} (stands : conversation.Stands shell tokens)
    {channel : Channel} {text : String} {after : Phase shell.operators}
    (uttered : conversation.utters = some (channel, text, after)) :
    Utterance shell tokens conversation.phase channel text conversation.shown conversation.errors
      conversation.tokens := by
  have place := stands.place
  rw [utters] at uttered
  generalize phase : conversation.phase = current at place uttered
  generalize conversation.shown = events at place
  generalize conversation.errors = errors at place
  generalize conversation.tokens = left at place
  cases place with
  | opening begins =>
    rw [stands.interactive] at uttered
    obtain ⟨asks, rfl, rfl, rfl⟩ : shell.interactive = true ∧ .diagnostics = channel ∧
        promptText = text ∧ .prompted = after := by simpa using uttered
    obtain ⟨segments, segmentation⟩ := exists_segmentation shell.operators left
    rw [← segmentation.flatMap_tokens]
    exact .prompt asks (begins.append segmentation)
  | answering begins cuts =>
    rename_i taken middle item
    obtain ⟨rfl, rfl, rfl⟩ : .results = channel ∧ "Parsed " ++ item.describe ++ ".\n" = text ∧
        .opening = after := by
      simpa [Session.reply_of_parsing stands.parsing] using uttered
    obtain ⟨segments, segmentation⟩ := exists_segmentation shell.operators left
    rw [← segmentation.flatMap_tokens]
    exact .result (begins.append (.cut cuts segmentation))
  | complaining begins cuts =>
    rename_i taken middle error
    obtain ⟨rfl, rfl, rfl⟩ : .diagnostics = channel ∧ "Error: " ++ error.message ++ "\n" = text ∧
        .skipping = after := by
      simpa [Complaint.report] using uttered
    obtain ⟨segments, segmentation⟩ := exists_segmentation shell.operators left.tail
    exact .report (begins.append (.cut cuts segmentation)) segmentation.flatMap_tokens.symm
  | prompted => simp at uttered
  | choosing => simp at uttered
  | reading => simp at uttered
  | skipping => simp at uttered
  | closing => simp [stands.parsing] at uttered
  | closed => simp at uttered

namespace Shell

variable (shell : Shell)

/-- On a console that takes everything, a conversation begins in front of the first segment. -/
theorem stands_greet (parsing : shell.session.config.mode = .parse) (stream : TokenStream) :
    ((shell.greet stream).on .unlimited).Stands shell stream.tokens :=
  ⟨parsing, rfl, rfl, .opening .start⟩

/-- On a console that takes everything, a conversation in parse mode comes to its end. -/
theorem steps_whole (parsing : shell.session.config.mode = .parse) (stream : TokenStream) :
    ((shell.greet stream).on .unlimited).Steps ((shell.greet stream).on .unlimited).run ∧
      ((shell.greet stream).on .unlimited).run.IsOver := by
  obtain ⟨segments, segmentation⟩ := exists_segmentation shell.operators stream.tokens
  have begins : ((shell.greet stream).on .unlimited).tokens = stream.tokens := rfl
  rw [← begins] at segmentation
  obtain ⟨_, leads, isOver⟩ := Conversation.run_of_segmentation parsing rfl rfl segmentation
  exact ⟨leads.steps, isOver⟩

/-- A console on which all fits is as good as one that takes everything. -/
theorem run_of_fits (parsing : shell.session.config.mode = .parse) {stream : TokenStream}
    (fits : shell.console.Fits ((shell.greet stream).on .unlimited).run.events) :
    shell.run stream = ((shell.greet stream).on .unlimited).run.on
      (shell.console.remaining ((shell.greet stream).on .unlimited).run.events) := by
  obtain ⟨steps, isOver⟩ := shell.steps_whole parsing stream
  exact steps.run_on_of_fits rfl rfl isOver.phase fits

/-- On a console on which not all fits, a conversation is cut off, and then the results have not
been flushed. -/
theorem exists_isCutOff_run (parsing : shell.session.config.mode = .parse) {stream : TokenStream}
    (overflows : ¬ shell.console.Fits ((shell.greet stream).on .unlimited).run.events) :
    ∃ moment channel text, ((shell.greet stream).on .unlimited).Steps moment ∧
      Utterance shell stream.tokens moment.phase channel text moment.shown moment.errors
        moment.tokens ∧
      (shell.run stream).IsCutOff ((shell.greet stream).on .unlimited).run moment shell.console
        channel text ∧
      Event.flushes .results (shell.run stream).events = 0 := by
  obtain ⟨steps, _⟩ := shell.steps_whole parsing stream
  obtain ⟨moment, channel, text, after, before, uttered, cutOff⟩ :=
    steps.exists_isCutOff_run rfl rfl overflows
  have utterance := ((shell.stands_greet parsing stream).steps before).utterance uttered
  refine ⟨moment, channel, text, before, utterance, cutOff, ?_⟩
  obtain ⟨accepted, _, _, _, _, events, _⟩ := cutOff.events
  have unflushed := utterance.flushes_shown
  rw [Conversation.shown, Event.flushes_filter_isShown] at unflushed
  have same : (shell.run stream).events = moment.events ++ [.wrote channel accepted] := events
  rw [same, Event.flushes_append, unflushed]
  rfl

/-- A conversation in parse mode on any console is the one on a console that takes everything, cut
at the first byte that is refused. -/
theorem run_cut_at_first_refusal (parsing : shell.session.config.mode = .parse)
    (stream : TokenStream) :
    let whole := ((shell.greet stream).on .unlimited).run
    let short := shell.run stream
    whole.IsOver ∧
    (∀ channel, Event.output channel short.events <+: Event.output channel whole.events) ∧
    (short.refusal.isSome = true ↔ ∃ channel room, shell.console.room channel = some room ∧
      room < (Event.output channel whole.events).length) ∧
    (short.refusal = none → short.IsOver ∧ short.events = whole.events ∧
      short.errors = whole.errors ∧ short.stream = whole.stream) ∧
    ∀ channel, short.refusal = some channel → ∃ moment text,
      ((shell.greet stream).on .unlimited).Steps moment ∧
      Utterance shell stream.tokens moment.phase channel text moment.shown moment.errors
        moment.tokens ∧
      short.IsCutOff whole moment shell.console channel text ∧
      Event.flushes .results short.events = 0 ∧
      short.stream.look.head? = moment.tokens.head? := by
  intro whole short
  obtain ⟨_, isOver⟩ := shell.steps_whole parsing stream
  rw [← Console.not_fits_iff]
  by_cases fits : shell.console.Fits whole.events
  · have same : short = whole.on (shell.console.remaining whole.events) :=
      shell.run_of_fits parsing fits
    have sameEvents : short.events = whole.events := by rw [same]; rfl
    have unrefused : short.refusal = none := by
      have samePhase : short.phase = .closed := by rw [same]; exact isOver.phase
      rw [Conversation.refusal, samePhase]
    refine ⟨isOver, fun channel => ?_, ?_, fun _ => ?_, fun channel refused => ?_⟩
    · exact ⟨[], by rw [List.append_nil, sameEvents]⟩
    · simp [unrefused, fits]
    · rw [same]
      exact ⟨⟨isOver.phase, isOver.tokens, isOver.ended, isOver.flushed⟩, rfl, rfl, rfl⟩
    · rw [unrefused] at refused
      simp at refused
  · obtain ⟨moment, channel, text, before, utterance, cutOff, unflushed⟩ :=
      shell.exists_isCutOff_run parsing fits
    have refused : short.refusal = some channel := cutOff.refusal
    refine ⟨isOver, cutOff.output_prefix, ?_, fun unrefused => ?_, fun other refusedOther => ?_⟩
    · simp [refused, fits]
    · rw [refused] at unrefused
      simp at unrefused
    · obtain rfl : channel = other := Option.some.inj (refused.symm.trans refusedOther)
      have sameStream : short.stream = moment.stream := cutOff.stream
      refine ⟨moment, text, before, utterance, cutOff, unflushed, ?_⟩
      rw [TokenStream.head?_look, sameStream]
      rfl

/-- Room for a part of an error report: the stray bracket is counted and stays the current token. -/
theorem run_cut_in_error_report :
    let shell : Shell := .start .standard .parsing false ⟨none, some 13⟩
    let stream : TokenStream := ⟨[], [.symbol ')', .name "x"], some .endOfInput, false, 0⟩
    let whole := ((shell.greet stream).on .unlimited).run
    let short := shell.run stream
    shell.session.config.mode = .parse ∧ short.refusal = some .diagnostics ∧ short.errors = 1 ∧
      short.stream.look.head? = some (.symbol ')') ∧
      ∃ moment text, ((shell.greet stream).on .unlimited).Steps moment ∧
        Utterance shell stream.tokens moment.phase .diagnostics text moment.shown moment.errors
          moment.tokens ∧
        short.IsCutOff whole moment shell.console .diagnostics text ∧
        Event.flushes .results short.events = 0 := by
  have evaluated : let shell : Shell := .start .standard .parsing false ⟨none, some 13⟩
      let stream : TokenStream := ⟨[], [.symbol ')', .name "x"], some .endOfInput, false, 0⟩
      ((shell.run stream).refusal, (shell.run stream).errors,
        (shell.run stream).stream.look.head?) =
          (some .diagnostics, 1, some (.symbol ')')) := by decide +kernel
  intro shell stream whole short
  obtain ⟨refused, rest⟩ := Prod.mk.inj evaluated
  obtain ⟨counted, current⟩ := Prod.mk.inj rest
  obtain ⟨_, _, _, _, cut⟩ := run_cut_at_first_refusal shell rfl stream
  obtain ⟨moment, text, before, utterance, cutOff, unflushed, _⟩ := cut .diagnostics refused
  exact ⟨rfl, refused, counted, current, moment, text, before, utterance, cutOff, unflushed⟩

end Shell

end ExprShell
