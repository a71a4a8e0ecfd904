import ExprShell.Proofs.Conversation.Prompts
import ExprShell.Proofs.Parser.Constructs
/-!
# What the user sees while a conversation waits

An interactive conversation prompts in front of each item, so wherever it reads from its source, a
prompt was the last thing that it did to the diagnostics, with one exception. After the report of a
syntax error it advances past the offending token before it prompts again. Where that token is the
last one of its line, this reads a line, and the user has seen no prompt since the report.
-/

namespace ExprShell

/-! ## Reading -/

namespace TokenStream

variable {stream : TokenStream}

/-- That something was read from a source, be it a line, its end or a failure. -/
def Reads (before after : TokenStream) : Prop :=
  after.source ≠ before.source ∨ after.ending ≠ before.ending

theorem source_readLine (stream : TokenStream) :
    stream.readLine.source = stream.source.takeLine.rest := by
  cases result : stream.source.takeLine.result <;> simp only [readLine, result]

/-- Filling a stream leaves a source of no more bytes. -/
theorem size_fill_le (stream : TokenStream) : stream.fill.source.size ≤ stream.source.size := by
  fun_induction fill stream with
  | case1 stream starved inductionHypothesis =>
    have total := Source.size_takeLine stream.source
    rw [source_readLine] at inductionHypothesis
    omega
  | case2 stream settled => exact Nat.le_refl _

/-- A look reads exactly if no token is at hand and the stream is not over. -/
theorem reads_look_iff : stream.Reads stream.look ↔ ¬ stream.Settled := by
  constructor
  · intro reads settled
    simp [Reads, look, settled.fill_eq] at reads
  · intro unsettled
    obtain ⟨starved, isOpen⟩ : stream.buffer = [] ∧ stream.ending = none := by
      simpa [Settled] using unsettled
    have filled : stream.fill = stream.readLine.fill := by
      rw [fill, dif_pos ⟨List.isEmpty_iff.mpr starved, Option.isNone_iff_eq_none.mpr isOpen⟩]
    rw [Reads, look]
    simp only [filled]
    cases result : stream.source.takeLine.result with
    | line text =>
      -- A line takes at least one byte, and what is read behind it adds none.
      left
      have fewer := Source.size_takeLine_lt result
      have bound := stream.readLine.size_fill_le
      rw [source_readLine] at bound
      intro same
      rw [same] at bound
      omega
    | endOfInput =>
      right
      have ended : stream.readLine.ending = some .endOfInput := by simp only [readLine, result]
      have settled : stream.readLine.Settled := .inr (by rw [ended]; rfl)
      rw [settled.fill_eq, ended, isOpen]
      simp
    | failure error =>
      right
      have ended : stream.readLine.ending = some (.failure error) := by simp only [readLine, result]
      have settled : stream.readLine.Settled := .inr (by rw [ended]; rfl)
      rw [settled.fill_eq, ended, isOpen]
      simp

/-- An advance past a token that is at hand reads exactly if that token is the last one at hand. -/
theorem Settled.reads_advance_iff (settled : stream.Settled) :
    stream.Reads stream.look.advance ↔ stream.ending = none ∧ ∃ token, stream.buffer = [token] := by
  let behind : TokenStream := { stream with buffer := stream.buffer.tail, started := true }
  have looked : stream.look = { stream with started := true } := by rw [look, settled.fill_eq]
  have advanced : stream.look.advance = behind.look := by
    rw [advance, if_pos (started_look stream), stream.settled_look.fill_eq, looked]
  have starves : ¬ behind.Settled ↔ stream.buffer.tail = [] ∧ stream.ending = none := by
    simp [Settled, behind]
  rw [advanced]
  refine (reads_look_iff.trans starves).trans ⟨?_, ?_⟩
  · rintro ⟨last, isOpen⟩
    have held : stream.buffer ≠ [] := settled.resolve_right (by simp [isOpen])
    obtain ⟨token, rest, parts⟩ := List.exists_cons_of_ne_nil held
    rw [parts, List.tail_cons] at last
    exact ⟨isOpen, token, last ▸ parts⟩
  · rintro ⟨isOpen, token, alone⟩
    exact ⟨by rw [alone, List.tail_cons], isOpen⟩

end TokenStream

/-! ## What was done to the diagnostics -/

namespace Event

/-- Whether an event was done to an output. -/
def concerns (channel : Channel) : Event -> Bool
  | wrote written _ => decide (written = channel)
  | flushed output => decide (output = channel)
  | looked _ => false
  | advanced _ => false

/-- That a prompt was written to the diagnostics and flushed, and nothing was done to them since. -/
def Asks (events : List Event) : Prop :=
  promptEvents true <:+ events.filter (concerns .diagnostics)

/-- That a syntax error was reported behind a prompt, and nothing was done to the diagnostics
since. -/
def Tells (error : SyntaxError) (events : List Event) : Prop :=
  promptEvents true ++ [.wrote .diagnostics (Utf8.encode (Complaint.unreadable error).report)] <:+
    events.filter (concerns .diagnostics)

variable {events : List Event}

/-- Behind a report no prompt is the last thing that was done. -/
theorem Tells.not_asks {error : SyntaxError} (tells : Tells error events) : ¬ Asks events := by
  intro asks
  obtain ⟨before, told⟩ := tells
  obtain ⟨before', asked⟩ := asks
  have lastTold := congrArg List.getLast? told
  have lastAsked := congrArg List.getLast? asked
  simp only [← List.append_assoc, List.getLast?_concat] at lastTold
  simp [promptEvents, ← lastTold] at lastAsked

/-- What is not done to the diagnostics leaves a prompt the last thing done to them. -/
theorem Asks.append {more : List Event} (asks : Asks events)
    (silent : ∀ event ∈ more, event.concerns .diagnostics = false) : Asks (events ++ more) := by
  have none : more.filter (concerns .diagnostics) = [] := by simpa using silent
  rw [Asks, List.filter_append, none, List.append_nil]
  exact asks

end Event

/-- What an output does not refuse it accepts as a whole. -/
theorem Console.accepted_of_refuses {console : Console} {channel : Channel} {bytes : List UInt8}
    (taken : console.refuses channel bytes = false) : console.accepted channel bytes = bytes := by
  unfold refuses at taken
  unfold accepted
  split at taken
  · rfl
  · exact List.take_of_length_le (Nat.le_of_not_lt (of_decide_eq_false taken))

namespace Conversation

open Event

variable {operators : Operators} {conversation next : Conversation operators}

/-- What an interactive conversation has last done to the diagnostics when it is in a phase, as far
as it tells what the user sees when the conversation reads. A syntax error names the current
token. -/
inductive Attends : Phase operators -> List Event -> Option Token -> Prop
  | opening {events : List Event} {current : Option Token} : Attends .opening events current
  | prompted {events : List Event} {current : Option Token}
      (written : [promptWrite] <:+ events.filter (concerns .diagnostics)) :
      Attends .prompted events current
  | choosing {events : List Event} {current : Option Token} (asks : Asks events) :
      Attends .choosing events current
  | reading {events : List Event} {current : Option Token}
      {state : (Parser.item operators).State} (asks : Asks events) :
      Attends (.reading state) events current
  | answering {events : List Event} {current : Option Token} {item : Item} :
      Attends (.answering item) events current
  | unreadable {events : List Event} {current : Option Token} {error : SyntaxError}
      (asks : Asks events) (found : error.found = current) :
      Attends (.complaining (.unreadable error)) events current
  | unhandled {events : List Event} {current : Option Token} {error : SessionError} :
      Attends (.complaining (.unhandled error)) events current
  /-- The current token is a separator. -/
  | passing {events : List Event} {current : Option Token} (asks : Asks events) :
      Attends .skipping events current
  /-- The current token is the offending one. -/
  | recovering {events : List Event} {current : Option Token} {error : SyntaxError}
      (tells : Tells error events) (found : error.found = current) :
      Attends .skipping events current
  | closing {events : List Event} {current : Option Token} : Attends .closing events current
  | dumped {events : List Event} {current : Option Token} : Attends .dumped events current
  | closed {events : List Event} {current : Option Token} : Attends .closed events current
  | refused {events : List Event} {current : Option Token} {channel : Channel} :
      Attends (.refused channel) events current

section Answers

variable {events : List Event}

/-- The answer of the item parser to the current token keeps the prompt in view. -/
theorem Attends.follow (asks : Asks events) (state : (Parser.item operators).State)
    (current : Option Token) :
    Attends (Conversation.follow ((Parser.item operators).feed state current)) events current := by
  cases fed : (Parser.item operators).feed state current with
  | shift next => exact .reading asks
  | accept item => exact .answering
  | reject error =>
    refine .unreadable asks ?_
    have named := Parser.meetsAlike_item_self operators current state
    rw [fed] at named
    have same : error = error.withFound current := Verdict.reject.inj named
    rw [same, SyntaxError.found_withFound]

theorem Attends.choose (asks : Asks events) (current : Option Token) :
    Attends (Conversation.choose current : Phase operators) events current := by
  cases current with
  | none => exact .closing
  | some token =>
    rw [Conversation.choose]
    split
    · exact .passing asks
    · exact .follow asks _ _

end Answers

/-- Whether a token has been looked at in a phase and the conversation has not opened since. -/
def isWithin : Phase operators -> Bool
  | .reading _ => true
  | .answering _ => true
  | .complaining _ => true
  | .skipping => true
  | _ => false

/-- That the prompts of an interactive conversation are in view, and that a token is at hand when it
is about to go past one. -/
structure IsAttentive (conversation : Conversation operators) : Prop where
  interactive : conversation.interactive = true
  attends : Attends conversation.phase conversation.events conversation.tokens.head?
  settled : isWithin conversation.phase = true → conversation.stream.Settled

theorem interactive_countError (conversation : Conversation operators) :
    conversation.countError.interactive = conversation.interactive := by
  unfold countError
  split <;> rfl

section Moves

variable {phase : Phase operators} {respond : Option Token -> Phase operators}

/-- A write that is refused ends the conversation; any other is shown as a whole. -/
theorem IsAttentive.write (attentive : conversation.IsAttentive) (channel : Channel) (text : String)
    (attends : Attends phase (conversation.events ++ [.wrote channel (Utf8.encode text)])
      conversation.tokens.head?)
    (settled : isWithin phase = true → conversation.stream.Settled) :
    (conversation.write channel text phase).IsAttentive := by
  refine ⟨attentive.interactive, ?_, ?_⟩
  · rw [events_write, tokens_write]
    cases refuses : conversation.console.refuses channel (Utf8.encode text) with
    | true =>
      simp only [Conversation.write, refuses, if_true]
      exact .refused
    | false =>
      rw [Console.accepted_of_refuses refuses]
      simpa only [Conversation.write, refuses, Bool.false_eq_true, if_false] using attends
  · simp only [Conversation.write]
    split
    · simp [isWithin]
    · exact settled

/-- A look shows nothing, and it leaves the current token at hand. -/
theorem IsAttentive.look (attentive : conversation.IsAttentive)
    (attends : ∀ bytesRead, Attends (respond conversation.tokens.head?)
      (conversation.events ++ [.looked bytesRead]) conversation.tokens.head?) :
    (conversation.look respond).countError.IsAttentive := by
  refine ⟨?_, ?_, fun _ => ?_⟩
  · rw [interactive_countError]
    exact attentive.interactive
  · rw [phase_countError, phase_look, tokens_countError, tokens_look, events,
      history_countError, Conversation.look, List.reverse_cons]
    exact attends _
  · rw [stream_countError]
    exact conversation.stream.settled_look

theorem IsAttentive.advance (attentive : conversation.IsAttentive)
    (attends : ∀ bytesRead, Attends (respond conversation.tokens.tail.head?)
      (conversation.events ++ [.advanced bytesRead]) conversation.tokens.tail.head?) :
    (conversation.advance respond).countError.IsAttentive := by
  refine ⟨?_, ?_, fun _ => ?_⟩
  · rw [interactive_countError]
    exact attentive.interactive
  · rw [phase_countError, phase_advance, tokens_countError, tokens_advance, events,
      history_countError, Conversation.advance, List.reverse_cons]
    exact attends _
  · rw [stream_countError]
    exact conversation.stream.look.settled_advance

end Moves

/-- The prompts stay in view with every step. -/
theorem IsAttentive.step (attentive : conversation.IsAttentive)
    (stepped : conversation.step = some next) : next.IsAttentive := by
  have attends := attentive.attends
  have settled := attentive.settled
  generalize phase : conversation.phase = current at attends settled
  generalize happened : conversation.events = events at attends
  generalize first : conversation.tokens.head? = token at attends
  cases attends with
  | opening =>
    obtain rfl := Option.some.inj
      ((step_of_prompting phase attentive.interactive).symm.trans stepped)
    refine attentive.write _ _ (.prompted ?_) (by simp [isWithin])
    simp [concerns, promptWrite]
  | prompted written =>
    obtain rfl := Option.some.inj ((step_of_prompted phase).symm.trans stepped)
    obtain ⟨before, written⟩ := written
    refine ⟨attentive.interactive, .choosing ⟨before, ?_⟩, by simp [Conversation.flush, isWithin]⟩
    have behind : (conversation.flush .diagnostics .choosing).events =
        events ++ [.flushed .diagnostics] := by
      rw [← happened]
      exact List.reverse_cons
    rw [behind, List.filter_append, ← written, List.append_assoc]
    rfl
  | choosing asks =>
    obtain rfl := Option.some.inj ((step_of_choosing phase).symm.trans stepped)
    exact attentive.look fun _ => .choose ((happened ▸ asks).append (by simp [concerns])) _
  | reading asks =>
    obtain rfl := Option.some.inj ((step_of_reading phase).symm.trans stepped)
    exact attentive.advance fun _ => .follow ((happened ▸ asks).append (by simp [concerns])) _ _
  | answering =>
    rename_i item
    rcases step_of_answering_cases phase stepped with ⟨text, rfl⟩ | ⟨error, rfl⟩
    · have learned : (conversation.learn item).IsAttentive :=
        ⟨attentive.interactive, attentive.attends, attentive.settled⟩
      exact learned.write _ _ .opening (by simp [isWithin])
    · refine ⟨?_, ?_, fun _ => ?_⟩
      · rw [interactive_countError]
        exact attentive.interactive
      · rw [phase_countError]
        exact .unhandled
      · rw [stream_countError]
        exact settled rfl
  | unreadable asks found =>
    rename_i error
    obtain rfl := Option.some.inj ((step_of_complaining phase).symm.trans stepped)
    obtain ⟨before, asked⟩ := asks
    have tells : Tells error (conversation.events ++
        [.wrote .diagnostics (Utf8.encode (Complaint.unreadable error).report)]) := by
      refine ⟨before, ?_⟩
      rw [happened, List.filter_append, ← asked, List.append_assoc]
      rfl
    exact attentive.write _ _ (.recovering tells (found.trans first.symm)) fun _ => settled rfl
  | unhandled =>
    obtain rfl := Option.some.inj ((step_of_unhandled phase).symm.trans stepped)
    exact attentive.write _ _ .opening (by simp [isWithin])
  | passing asks =>
    obtain rfl := Option.some.inj ((step_of_skipping phase).symm.trans stepped)
    exact attentive.advance fun _ => .opening
  | recovering tells found =>
    obtain rfl := Option.some.inj ((step_of_skipping phase).symm.trans stepped)
    exact attentive.advance fun _ => .opening
  | closing =>
    by_cases keeps : conversation.session.config.mode = .ir
    · obtain rfl := Option.some.inj ((step_of_dumping phase keeps).symm.trans stepped)
      exact attentive.write _ _ .dumped (by simp [isWithin])
    · obtain rfl := Option.some.inj ((step_of_closing phase keeps).symm.trans stepped)
      exact ⟨attentive.interactive, .closed, by simp [Conversation.flush, isWithin]⟩
  | dumped =>
    obtain rfl := Option.some.inj ((step_of_dumped phase).symm.trans stepped)
    exact ⟨attentive.interactive, .closed, by simp [Conversation.flush, isWithin]⟩
  | closed => simp [step_of_closed phase] at stepped
  | refused => simp [step_of_refused phase] at stepped

/-- The prompts are in view at every moment. -/
theorem IsAttentive.steps (attentive : conversation.IsAttentive)
    (steps : conversation.Steps next) : next.IsAttentive := by
  induction steps with
  | refl => exact attentive
  | tail _ stepped inductionHypothesis => exact inductionHypothesis.step stepped

/-- A report that is all that was shown behind a prompt. -/
theorem tells_of_shown {error : SyntaxError}
    (shown : conversation.shown = promptEvents true ++
      [.wrote .diagnostics (Utf8.encode (Complaint.unreadable error).report)]) :
    Tells error conversation.events := by
  have visible : ∀ event : Event, event.concerns .diagnostics = true → event.isShown = true := by
    rintro (_ | _ | _ | _) <;> simp [concerns, isShown]
  have same : conversation.events.filter (concerns .diagnostics) =
      conversation.shown.filter (concerns .diagnostics) := by
    rw [Conversation.shown, List.filter_filter]
    refine List.filter_congr fun event _ => ?_
    cases concerned : event.concerns .diagnostics with
    | true => rw [visible event concerned]; rfl
    | false => rfl
  rw [Tells, same, shown]
  exact List.suffix_rfl

end Conversation

namespace Shell

open Event Conversation

/-- A shell that prompts is attentive from the start. -/
theorem isAttentive_greet (shell : Shell) (asks : shell.interactive = true)
    (stream : TokenStream) : (shell.greet stream).IsAttentive :=
  ⟨asks, .opening, by simp [greet, isWithin]⟩

/-! ## What the user sees -/

section Exception

variable (shell : Shell) (asks : shell.interactive = true) (unlimited : shell.console = .unlimited)
  (stream : TokenStream) (token : Token) (unseparated : token ≠ .itemSeparator)
  {error : SyntaxError} (rejected : (Parser.item shell.operators).feed
    (Parser.item shell.operators).start (some token) = .reject error)
  (alone : stream.look.buffer = [token]) (isOpen : stream.look.ending = none)

include asks unlimited unseparated rejected alone isOpen

/-- A conversation whose first token starts no item and stands alone in its line reads on from its
source to go past this token, with the report on it behind the only prompt. -/
theorem exists_reads_behind_report :
    ∃ moment next, (shell.greet stream).Steps moment ∧ moment.step = some next ∧
      moment.stream.Reads next.stream ∧ Tells error moment.events := by
  have coming : stream.tokens.head? = some token := by
    rw [← stream.head?_look, TokenStream.head?, alone, List.head?_cons]
  have greetUnlimited : (shell.greet stream).console = .unlimited := unlimited
  obtain ⟨choosing, prompted, choosingPhase, choosingStream⟩ := leads_opening greetUnlimited rfl
  obtain ⟨failed, looked, failedPhase, _, failedStream⟩ :=
    leads_look (step_of_choosing choosingPhase)
  have chosen : choose choosing.tokens.head? = (.complaining (.unreadable error) :
      Phase shell.operators) := by
    have sameTokens : choosing.tokens = stream.tokens := congrArg TokenStream.tokens choosingStream
    rw [sameTokens, coming, choose, if_neg unseparated, rejected, follow]
  rw [chosen] at failedPhase
  rw [choosingStream] at failedStream
  have toFailed := prompted.trans looked
  have failedUnlimited : failed.console = .unlimited := toFailed.console.trans unlimited
  let skipping := failed.write .diagnostics ("Error: " ++ error.message ++ "\n") .skipping
  have skippingPhase : skipping.phase = .skipping := by
    simp only [skipping, write_of_unlimited failedUnlimited]
  have toSkipping := toFailed.trans (leads_write failedUnlimited (step_of_complaining failedPhase))
  have shown : skipping.shown = promptEvents true ++
      [.wrote .diagnostics (Utf8.encode (Complaint.unreadable error).report)] :=
    toSkipping.shown.trans (congrArg (promptEvents · ++ [] ++ _) asks)
  refine ⟨skipping, _, toSkipping.steps, step_of_skipping skippingPhase, ?_, tells_of_shown shown⟩
  rw [stream_countError]
  change failed.stream.Reads failed.stream.look.advance
  rw [failedStream]
  exact stream.settled_look.reads_advance_iff.mpr ⟨isOpen, token, alone⟩

end Exception

/-- Wherever an interactive conversation reads from its source, a prompt is the last thing that it
wrote to the diagnostics, and it flushed it. The one exception is the advance past the offending
token of a syntax error when that token is the last one of its line: the report on the error stands
behind the prompt then. -/
theorem asks_of_reads {shell : Shell} {stream : TokenStream}
    {moment next : Conversation shell.operators} (asks : shell.interactive = true)
    (steps : (shell.greet stream).Steps moment) (stepped : moment.step = some next)
    (reads : moment.stream.Reads next.stream) :
    Asks moment.events ∨
      moment.phase = .skipping ∧ ¬ Asks moment.events ∧ ∃ error token,
        error.found = some token ∧ moment.stream.buffer = [token] ∧ Tells error moment.events := by
  have attentive := (shell.isAttentive_greet asks stream).steps steps
  have attends := attentive.attends
  have settled := attentive.settled
  have readers := stream_of_step stepped
  generalize phase : moment.phase = current at attends settled readers
  generalize first : moment.tokens.head? = token at attends
  rcases readers with same | ⟨rfl, _⟩ | ⟨rfl | ⟨state, rfl⟩, advanced⟩
  · simp [TokenStream.Reads, same] at reads
  · cases attends with
    | choosing asked => exact .inl asked
  · cases attends with
    | passing asked => exact .inl asked
    | recovering tells found =>
      obtain ⟨_, token, held⟩ := (settled rfl).reads_advance_iff.mp (advanced ▸ reads)
      refine .inr ⟨rfl, tells.not_asks, _, token, ?_, held, tells⟩
      rw [found, ← first]
      simp [Conversation.tokens, TokenStream.tokens, held]
  · cases attends with
    | reading asked => exact .inl asked

/-- A stray bracket alone in its line: the line behind it is read without another prompt. -/
theorem asks_of_reads_stray_bracket :
    let shell : Shell := .start .standard .parsing true .unlimited
    let stream : TokenStream := .ofSource [.data ")\ndef f(x) x".toUTF8.data.toList]
    ∃ moment next, (shell.greet stream).Steps moment ∧ moment.step = some next ∧
      moment.stream.Reads next.stream ∧ moment.phase = .skipping ∧ ¬ Asks moment.events ∧
      ∃ error token, error.found = some token ∧ moment.stream.buffer = [token] ∧
        Tells error moment.events := by
  intro shell stream
  obtain ⟨moment, next, steps, stepped, reads, tells⟩ := exists_reads_behind_report
    shell rfl rfl stream (.symbol ')') (by decide) rfl (by decide +kernel) (by decide +kernel)
  exact ⟨moment, next, steps, stepped, reads,
    (asks_of_reads rfl steps stepped reads).resolve_left tells.not_asks⟩

/-- Not every read of an interactive conversation stands behind a prompt. -/
theorem not_always_asks_of_reads :
    ¬ ∀ (shell : Shell) (source : Source) (moment next : Conversation shell.operators),
      shell.interactive = true → shell.session.config.mode = .parse →
      (shell.greet (.ofSource source)).Steps moment → moment.step = some next →
      moment.stream.Reads next.stream → Asks moment.events := by
  intro always
  let shell : Shell := .start .standard .parsing true .unlimited
  let source : Source := [.data ")\n)\n".toUTF8.data.toList]
  let stream : TokenStream := .ofSource source
  obtain ⟨moment, next, steps, stepped, reads, tells⟩ := exists_reads_behind_report
    shell rfl rfl stream (.symbol ')') (by decide) rfl (by decide +kernel) (by decide +kernel)
  exact tells.not_asks (always shell source moment next rfl rfl steps stepped reads)

end Shell

end ExprShell
