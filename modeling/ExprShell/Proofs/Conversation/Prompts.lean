import ExprShell.Proofs.Conversation.Accounting
import ExprShell.Proofs.Conversation.Limits
import ExprShell.Proofs.Text.Encoding
/-!
# Prompts

Prompting is the only thing that an interactive conversation does beyond a quiet one. Silencing a
conversation takes the prompts out of its history and has it prompt no more; on a console that takes
everything, each step of a conversation is the step of the silenced one, or only prompts. So a quiet
conversation reads the same bytes at the same moments, writes the same results and errors, and ends
in the same place.
-/

namespace ExprShell

/-- Whether an event is one of the two that make a prompt: its text, or the flush of it. -/
def Event.isPrompt : Event -> Bool
  | wrote .diagnostics bytes => bytes == Utf8.encode promptText
  | flushed .diagnostics => true
  | _ => false

/-- The phase of a conversation that does not prompt, when an interactive one is in another. -/
def Phase.silenced {operators : Operators} : Phase operators -> Phase operators
  | prompted => choosing
  | phase => phase

/-- A report on an error is no prompt. -/
theorem Complaint.encode_report_ne (complaint : Complaint) :
    Utf8.encode complaint.report ≠ Utf8.encode promptText := by
  have error : (Utf8.encode "Error: ").head? = some 69 := by decide
  have prompt : (Utf8.encode promptText).head? = some 114 := by decide
  intro same
  have first := congrArg List.head? same
  cases complaint <;>
    simp [report, Utf8.encode_append, error, prompt] at first

namespace Conversation

variable {operators : Operators} {conversation next first last : Conversation operators}

/-- The conversation as if it had never prompted. -/
def silenced (conversation : Conversation operators) : Conversation operators :=
  { conversation with
    interactive := false
    phase := conversation.phase.silenced
    history := conversation.history.filter (!·.isPrompt) }

theorem silenced_choose (token : Option Token) :
    (choose token : Phase operators).silenced = choose token := by
  unfold choose
  split
  · rfl
  · split
    · rfl
    · cases (Parser.item operators).feed (Parser.item operators).start (some _) <;> rfl

theorem silenced_follow (verdict : Verdict (Parser.item operators).State Item) :
    (follow verdict).silenced = follow verdict := by
  cases verdict <;> rfl

theorem silenced_countError (conversation : Conversation operators) :
    conversation.countError.silenced = conversation.silenced.countError := by
  obtain ⟨session, backend, interactive, console, errors, stream, phase, history⟩ := conversation
  cases phase <;> rfl

/-- A silenced conversation looks at the same token. -/
theorem silenced_look (conversation : Conversation operators)
    {respond : Option Token -> Phase operators}
    (speaks : ∀ token, (respond token).silenced = respond token) :
    (conversation.look respond).silenced = conversation.silenced.look respond := by
  simp only [look, silenced, speaks]
  rfl

/-- A silenced conversation advances to the same token. -/
theorem silenced_advance (conversation : Conversation operators)
    {respond : Option Token -> Phase operators}
    (speaks : ∀ token, (respond token).silenced = respond token) :
    (conversation.advance respond).silenced = conversation.silenced.advance respond := by
  simp only [advance, silenced, speaks]
  rfl

/-- A silenced conversation writes whatever is no prompt. -/
theorem silenced_write (unlimited : conversation.console = .unlimited) {channel : Channel}
    {text : String} (speaks : (Event.wrote channel (Utf8.encode text)).isPrompt = false)
    {phase : Phase operators} (same : phase.silenced = phase) :
    (conversation.write channel text phase).silenced =
      conversation.silenced.write channel text phase := by
  have stillUnlimited : conversation.silenced.console = .unlimited := unlimited
  rw [write_of_unlimited unlimited, write_of_unlimited stillUnlimited]
  simp [silenced, speaks, same]

/-- What a conversation does, the silenced one does, unless it is part of a prompt. -/
theorem step_silenced (unlimited : conversation.console = .unlimited)
    (stepped : conversation.step = some next) :
    conversation.silenced.step = some next.silenced ∨ conversation.silenced = next.silenced := by
  obtain ⟨session, backend, interactive, console, errors, stream, phase, history⟩ := conversation
  obtain rfl : console = .unlimited := unlimited
  cases phase with
  | opening =>
    cases interactive with
    | false =>
      obtain rfl := Option.some.inj ((step_of_opening rfl rfl).symm.trans stepped)
      exact .inl (step_of_opening rfl rfl)
    | true =>
      -- The prompt is taken out of the history, and what is left is to go on.
      obtain rfl := Option.some.inj ((step_of_prompting rfl rfl).symm.trans stepped)
      rw [write_of_unlimited rfl]
      left
      rw [step_of_opening rfl rfl]
      simp [silenced, Phase.silenced, Event.isPrompt]
  | prompted =>
    obtain rfl := Option.some.inj ((step_of_prompted rfl).symm.trans stepped)
    right
    simp [silenced, flush, Phase.silenced, Event.isPrompt]
  | choosing =>
    obtain rfl := Option.some.inj ((step_of_choosing rfl).symm.trans stepped)
    left
    rw [silenced_countError, silenced_look _ silenced_choose]
    exact step_of_choosing rfl
  | reading state =>
    obtain rfl := Option.some.inj ((step_of_reading rfl).symm.trans stepped)
    left
    rw [silenced_countError, silenced_advance _ fun _ => silenced_follow _]
    exact step_of_reading rfl
  | answering item =>
    left
    cases replied : session.reply item backend with
    | ok text =>
      obtain rfl := Option.some.inj ((step_of_replying rfl replied).symm.trans stepped)
      rw [silenced_write rfl rfl rfl]
      exact step_of_replying rfl replied
    | error error =>
      obtain rfl := Option.some.inj ((step_of_failing rfl replied).symm.trans stepped)
      rw [silenced_countError]
      exact step_of_failing rfl replied
  | complaining complaint =>
    have speaks : (Event.wrote .diagnostics (Utf8.encode complaint.report)).isPrompt = false :=
      beq_eq_false_iff_ne.mpr complaint.encode_report_ne
    obtain rfl := Option.some.inj stepped
    left
    cases complaint <;> exact congrArg some (silenced_write rfl speaks rfl).symm
  | skipping =>
    obtain rfl := Option.some.inj ((step_of_skipping rfl).symm.trans stepped)
    left
    rw [silenced_countError, silenced_advance _ fun _ => rfl]
    exact step_of_skipping rfl
  | closing =>
    left
    by_cases keeps : session.config.mode = .ir
    · obtain rfl := Option.some.inj ((step_of_dumping rfl keeps).symm.trans stepped)
      rw [silenced_write rfl rfl rfl]
      exact step_of_dumping rfl keeps
    · obtain rfl := Option.some.inj ((step_of_closing rfl keeps).symm.trans stepped)
      exact step_of_closing rfl keeps
  | dumped =>
    obtain rfl := Option.some.inj ((step_of_dumped rfl).symm.trans stepped)
    exact .inl (step_of_dumped rfl)
  | closed => simp [step] at stepped
  | refused channel => simp [step] at stepped

/-- So the silenced conversation comes to where the conversation comes. -/
theorem Steps.silenced (steps : first.Steps last) (unlimited : first.console = .unlimited) :
    first.silenced.Steps last.silenced := by
  induction steps with
  | refl => exact .refl
  | tail earlier stepped inductionHypothesis =>
    rename_i middle last
    rcases step_silenced (Steps.exists_events earlier unlimited).1 stepped with taken | stayed
    · exact inductionHypothesis.tail taken
    · rwa [← stayed]

end Conversation

namespace Segment

end Segment

/-- The text of a prompt, as it is seen. -/
def promptWrite : Event := .wrote .diagnostics (Utf8.encode promptText)

namespace Shell

section Runs

variable (shell : Shell) {stream : TokenStream} {segments : List Segment}
  (parsing : shell.session.config.mode = .parse) (unlimited : shell.console = .unlimited)
  (segmentation : Segmentation shell.operators stream.tokens segments)

include parsing unlimited segmentation

/-- A shell writes its prompts and the lines of the segments, in order. -/
theorem output_run_eq (channel : Channel) :
    Event.output channel (shell.run stream).events =
      segments.flatMap (fun segment => Event.output channel (promptEvents shell.interactive) ++
        Segment.written channel [segment]) ++
          Event.output channel (promptEvents shell.interactive) := by
  rw [← Event.output_filter_isShown, ← Conversation.shown,
    shell.shown_run parsing unlimited segmentation, output_transcript]

end Runs

end Shell

end ExprShell
