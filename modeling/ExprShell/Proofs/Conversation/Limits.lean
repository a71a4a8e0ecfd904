import ExprShell.Proofs.Conversation.Accounting
/-!
# Conversations on limited consoles

A conversation depends on its console only where a write is refused. As long as all that was written
fits, a conversation on a limited console takes the steps that it takes on one that takes
everything. The first write that does not fit is cut, and with it the conversation.
-/

namespace ExprShell

theorem Event.output_wrote (channel written : Channel) (bytes : List UInt8) :
    output channel [.wrote written bytes] = if written = channel then bytes else [] := by
  simp [output]

namespace Console

/-- What is left of a console after some events. -/
def remaining (console : Console) (events : List Event) : Console where
  results := console.results.map (· - (Event.output .results events).length)
  diagnostics := console.diagnostics.map (· - (Event.output .diagnostics events).length)

/-- That all that was written fits. -/
def Fits (console : Console) (events : List Event) : Prop :=
  ∀ channel room, console.room channel = some room → (Event.output channel events).length ≤ room

theorem not_fits_iff {console : Console} {events : List Event} :
    ¬ console.Fits events ↔ ∃ channel room, console.room channel = some room ∧
      room < (Event.output channel events).length := by
  simp only [Fits, Classical.not_forall, Nat.not_le, exists_prop]

section Room

variable {console : Console} {events : List Event} {channel : Channel}

theorem room_remaining (console : Console) (events : List Event) (channel : Channel) :
    (console.remaining events).room channel =
      (console.room channel).map (· - (Event.output channel events).length) := by
  cases channel <;> rfl

theorem room_after (console : Console) (channel written : Channel) (bytes : List UInt8) :
    (console.after written bytes).room channel =
      (console.room channel).map (· - if written = channel then bytes.length else 0) := by
  cases channel <;> cases written <;> simp [after, withRoom, room]

/-- A console is told by the room on its outputs. -/
theorem ext_room {other : Console} (same : ∀ channel, console.room channel = other.room channel) :
    console = other := by
  obtain ⟨results, diagnostics⟩ := console
  obtain ⟨otherResults, otherDiagnostics⟩ := other
  obtain rfl : results = otherResults := same .results
  obtain rfl : diagnostics = otherDiagnostics := same .diagnostics
  rfl

theorem remaining_of_silent (console : Console) (events : List Event) {more : List Event}
    (silent : ∀ channel, Event.output channel more = []) :
    console.remaining (events ++ more) = console.remaining events := by
  refine ext_room fun channel => ?_
  rw [room_remaining, room_remaining, Event.output_append, silent, List.append_nil]

theorem remaining_nil (console : Console) : console.remaining [] = console := by
  refine ext_room fun channel => ?_
  simp [room_remaining, Event.output]

/-- A write leaves what the event of it leaves. -/
theorem after_remaining (console : Console) (events : List Event) (written : Channel)
    (bytes : List UInt8) :
    (console.remaining events).after written bytes =
      console.remaining (events ++ [.wrote written bytes]) := by
  refine ext_room fun channel => ?_
  rw [room_after, room_remaining, room_remaining, Option.map_map]
  congr 1
  funext room
  rw [Function.comp_apply, Event.output_append, Event.output_wrote, List.length_append,
    Nat.sub_add_eq]
  split <;> rfl

theorem Fits.of_append {more : List Event} (fits : console.Fits (events ++ more)) :
    console.Fits events := by
  intro channel room limited
  have bounded := fits channel room limited
  rw [Event.output_append, List.length_append] at bounded
  omega

theorem Fits.append_of_silent {more : List Event} (fits : console.Fits events)
    (silent : ∀ channel, Event.output channel more = []) : console.Fits (events ++ more) := by
  intro channel room limited
  rw [Event.output_append, silent, List.append_nil]
  exact fits channel room limited

/-- What fits is accepted as a whole. -/
theorem Fits.accepted_eq {bytes : List UInt8}
    (fits : console.Fits (events ++ [.wrote channel bytes])) :
    (console.remaining events).refuses channel bytes = false ∧
      (console.remaining events).accepted channel bytes = bytes := by
  rw [refuses, accepted, room_remaining]
  cases limited : console.room channel with
  | none => exact ⟨rfl, rfl⟩
  | some room =>
    have bounded := fits channel room limited
    rw [Event.output_append, Event.output_wrote, if_pos rfl, List.length_append] at bounded
    have enough : bytes.length ≤ room - (Event.output channel events).length := by omega
    exact ⟨decide_eq_false (Nat.not_lt.mpr enough), List.take_of_length_le enough⟩

/-- What does not fit is refused if what was written before it does. So much of it is accepted as
fills the output. -/
theorem Fits.exists_refused {bytes : List UInt8} (fits : console.Fits events)
    (overflows : ¬ console.Fits (events ++ [.wrote channel bytes])) :
    (console.remaining events).refuses channel bytes = true ∧
      ∃ accepted refused, (console.remaining events).accepted channel bytes = accepted ∧
        bytes = accepted ++ refused ∧ refused ≠ [] ∧ console.room channel =
          some (Event.output channel (events ++ [.wrote channel accepted])).length := by
  obtain ⟨output, room, limited, exceeded⟩ := not_fits_iff.mp overflows
  have bounded := fits output room limited
  rw [Event.output_append, Event.output_wrote, List.length_append] at exceeded
  by_cases same : channel = output
  · subst same
    rw [if_pos rfl] at exceeded
    have scarce : room - (Event.output channel events).length < bytes.length := by omega
    rw [refuses, Console.accepted, room_remaining, limited, Option.map_some]
    refine ⟨decide_eq_true scarce, _, _, rfl, (List.take_append_drop _ bytes).symm, ?_, ?_⟩
    · exact fun none => Nat.not_le.mpr scarce (List.drop_eq_nil_iff.mp none)
    · rw [Event.output_append, Event.output_wrote, if_pos rfl, List.length_append,
        List.length_take_of_le (Nat.le_of_lt scarce), Nat.add_sub_of_le bounded]
  · rw [if_neg same, List.length_nil] at exceeded
    omega

end Room

end Console

namespace Conversation

variable {operators : Operators} {conversation next first last : Conversation operators}

/-- The same conversation on another console. -/
def on (conversation : Conversation operators) (console : Console) : Conversation operators :=
  { conversation with console := console }

/-- The conversation whose session has handled the item that is about to be answered. -/
def heard (conversation : Conversation operators) : Conversation operators :=
  match conversation.phase with
  | .answering item => conversation.learn item
  | _ => conversation

section Heard

variable (conversation)

theorem heard_on (console : Console) :
    (conversation.on console).heard = conversation.heard.on console := by
  have samePhase : (conversation.on console).phase = conversation.phase := rfl
  rw [heard, heard, samePhase]
  split <;> rfl

theorem console_heard : conversation.heard.console = conversation.console := by
  unfold heard
  split <;> rfl

theorem history_heard : conversation.heard.history = conversation.history := by
  unfold heard
  split <;> rfl

theorem stream_heard : conversation.heard.stream = conversation.stream := by
  unfold heard
  split <;> rfl

theorem errors_heard : conversation.heard.errors = conversation.errors := by
  unfold heard
  split <;> rfl

end Heard

/-- What a conversation is about to write, and how it goes on. -/
def utters (conversation : Conversation operators) :
    Option (Channel × String × Phase operators) :=
  match conversation.phase with
  | .opening =>
    if conversation.interactive then some (.diagnostics, promptText, .prompted) else none
  | .answering item =>
    match conversation.session.reply item conversation.backend with
    | .ok text => some (.results, text, .opening)
    | .error _ => none
  | .complaining complaint =>
    some (.diagnostics, complaint.report, match complaint with
      | .unreadable _ => .skipping
      | .unhandled _ => .opening)
  | .closing =>
    if conversation.session.config.mode = .ir then
      some (.results, conversation.session.code conversation.backend, .dumped)
    else none
  | _ => none

/-- A conversation that is about to write does so. -/
theorem step_of_utters {channel : Channel} {text : String} {after : Phase operators}
    (uttered : conversation.utters = some (channel, text, after)) :
    conversation.step = some (conversation.heard.write channel text after) := by
  unfold utters at uttered
  unfold step heard
  cases phase : conversation.phase <;> simp only [phase] at uttered ⊢ <;> grind

theorem step_on_of_utters {channel : Channel} {text : String} {after : Phase operators}
    (uttered : conversation.utters = some (channel, text, after)) (console : Console) :
    (conversation.on console).step =
      some ((conversation.heard.on console).write channel text after) := by
  rw [← heard_on]
  exact step_of_utters uttered

theorem countError_on (conversation : Conversation operators) (console : Console) :
    (conversation.on console).countError = conversation.countError.on console := by
  obtain ⟨session, backend, interactive, former, errors, stream, phase, history⟩ := conversation
  cases phase <;> rfl

/-- A step that writes nothing goes on as on any other console. -/
theorem step_on_of_silent (silent : conversation.utters = none) (console : Console) :
    (conversation.on console).step = conversation.step.map (·.on console) := by
  have samePhase : (conversation.on console).phase = conversation.phase := rfl
  rw [utters] at silent
  cases phase : conversation.phase with
  | opening =>
    have quiet : conversation.interactive = false := by simpa [phase] using silent
    simp [step, phase, quiet, on]
  | choosing =>
    rw [step_of_choosing phase, step_of_choosing (samePhase.trans phase)]
    exact congrArg some (countError_on (conversation.look choose) console)
  | reading state =>
    rw [step_of_reading phase, step_of_reading (samePhase.trans phase)]
    exact congrArg some (countError_on (conversation.advance fun token =>
      follow ((Parser.item operators).feed state token)) console)
  | answering item =>
    rw [phase] at silent
    cases replied : conversation.session.reply item conversation.backend with
    | ok text => simp [replied] at silent
    | error error =>
      have alike : (conversation.on console).session.reply item
          (conversation.on console).backend = .error error := replied
      rw [step_of_failing phase replied, step_of_failing (samePhase.trans phase) alike]
      rfl
  | complaining complaint => simp [phase] at silent
  | closing =>
    have undumped : conversation.session.config.mode ≠ .ir := by simpa [phase] using silent
    rw [step_of_closing phase undumped, step_of_closing (samePhase.trans phase) undumped]
    rfl
  | _ =>
    rw [step, step, samePhase, phase]
    rfl

theorem history_countError (conversation : Conversation operators) :
    conversation.countError.history = conversation.history := by
  unfold countError
  split <;> rfl

theorem session_countError (conversation : Conversation operators) :
    conversation.countError.session = conversation.session := by
  unfold countError
  split <;> rfl

theorem console_countError (conversation : Conversation operators) :
    conversation.countError.console = conversation.console := by
  unfold countError
  split <;> rfl

/-- A step that writes nothing leaves the console as it is and adds to the history at most an event
that writes nothing. -/
theorem history_of_silent (silent : conversation.utters = none)
    (stepped : conversation.step = some next) :
    next.console = conversation.console ∧ (next.history = conversation.history ∨
      ∃ event, next.history = event :: conversation.history ∧
        ∀ channel, Event.output channel [event] = []) := by
  rw [utters] at silent
  cases phase : conversation.phase with
  | opening =>
    have quiet : conversation.interactive = false := by simpa [phase] using silent
    obtain rfl := Option.some.inj ((step_of_opening phase quiet).symm.trans stepped)
    exact ⟨rfl, .inl rfl⟩
  | prompted =>
    obtain rfl := Option.some.inj ((step_of_prompted phase).symm.trans stepped)
    exact ⟨rfl, .inr ⟨_, rfl, fun _ => rfl⟩⟩
  | choosing =>
    obtain rfl := Option.some.inj ((step_of_choosing phase).symm.trans stepped)
    exact ⟨console_countError _, .inr ⟨_, history_countError _, fun _ => rfl⟩⟩
  | reading state =>
    obtain rfl := Option.some.inj ((step_of_reading phase).symm.trans stepped)
    exact ⟨console_countError _, .inr ⟨_, history_countError _, fun _ => rfl⟩⟩
  | answering item =>
    -- An item that is answered is written about, so this one is not handled.
    rw [step] at stepped
    simp only [phase] at silent stepped
    split at silent
    · simp at silent
    · rename_i handled
      simp only [handled] at stepped
      obtain rfl := Option.some.inj stepped
      exact ⟨console_countError _, .inl (history_countError _)⟩
  | complaining complaint => simp [phase] at silent
  | skipping =>
    obtain rfl := Option.some.inj ((step_of_skipping phase).symm.trans stepped)
    exact ⟨console_countError _, .inr ⟨_, history_countError _, fun _ => rfl⟩⟩
  | closing =>
    have undumped : conversation.session.config.mode ≠ .ir := by simpa [phase] using silent
    obtain rfl := Option.some.inj ((step_of_closing phase undumped).symm.trans stepped)
    exact ⟨rfl, .inr ⟨_, rfl, fun _ => rfl⟩⟩
  | dumped =>
    obtain rfl := Option.some.inj ((step_of_dumped phase).symm.trans stepped)
    exact ⟨rfl, .inr ⟨_, rfl, fun _ => rfl⟩⟩
  | closed =>
    rw [step_of_closed phase] at stepped
    simp at stepped
  | refused channel =>
    rw [step_of_refused phase] at stepped
    simp at stepped

/-- A step that writes nothing leaves the console as it is and goes on with the history. -/
theorem exists_events_of_silent (silent : conversation.utters = none)
    (stepped : conversation.step = some next) :
    next.console = conversation.console ∧ ∃ more, next.events = conversation.events ++ more ∧
      ∀ channel, Event.output channel more = [] := by
  obtain ⟨sameConsole, same | ⟨event, added, unwritten⟩⟩ := history_of_silent silent stepped
  · exact ⟨sameConsole, [], by rw [events, same, List.append_nil, events], fun _ => rfl⟩
  · exact ⟨sameConsole, [event], by rw [events, added, List.reverse_cons, events], unwritten⟩

theorem events_write (conversation : Conversation operators) (channel : Channel) (text : String)
    (after : Phase operators) :
    (conversation.write channel text after).events = conversation.events ++
      [.wrote channel (conversation.console.accepted channel (Utf8.encode text))] := by
  simp [events, write]

theorem events_heard (conversation : Conversation operators) :
    conversation.heard.events = conversation.events := by
  rw [events, history_heard, events]

/-- A write on a console that takes everything. -/
theorem events_write_of_unlimited (unlimited : conversation.console = .unlimited)
    (channel : Channel) (text : String) (after : Phase operators) :
    (conversation.write channel text after).console = .unlimited ∧
      (conversation.write channel text after).events =
        conversation.events ++ [.wrote channel (Utf8.encode text)] := by
  rw [write_of_unlimited unlimited]
  exact ⟨unlimited, by simp [events]⟩

/-- A step on a console that takes everything goes on with the history and with that console. -/
theorem exists_events_of_step (unlimited : conversation.console = .unlimited)
    (stepped : conversation.step = some next) :
    next.console = .unlimited ∧ conversation.events <+: next.events := by
  rcases uttered : conversation.utters with _ | ⟨channel, text, after⟩
  · obtain ⟨same, more, grown, _⟩ := exists_events_of_silent uttered stepped
    exact ⟨same.trans unlimited, grown ▸ List.prefix_append _ _⟩
  · obtain rfl := Option.some.inj ((step_of_utters uttered).symm.trans stepped)
    have heardAll := (console_heard conversation).trans unlimited
    obtain ⟨same, grown⟩ := events_write_of_unlimited heardAll channel text after
    rw [events_heard] at grown
    exact ⟨same, grown ▸ List.prefix_append _ _⟩

/-- So do several steps. -/
theorem Steps.exists_events (steps : first.Steps last) (unlimited : first.console = .unlimited) :
    last.console = .unlimited ∧ first.events <+: last.events := by
  induction steps with
  | refl => exact ⟨unlimited, List.prefix_refl _⟩
  | tail _ stepped inductionHypothesis =>
    obtain ⟨there, earlier⟩ := inductionHypothesis
    obtain ⟨here, later⟩ := exists_events_of_step there stepped
    exact ⟨here, earlier.trans later⟩

/-- While all that is written fits, a step is taken as on a console that takes everything. -/
theorem step_on_of_fits {console : Console} (unlimited : conversation.console = .unlimited)
    (stepped : conversation.step = some next) (fits : console.Fits next.events) :
    (conversation.on (console.remaining conversation.events)).step =
      some (next.on (console.remaining next.events)) := by
  rcases uttered : conversation.utters with _ | ⟨channel, text, after⟩
  · obtain ⟨_, more, grown, silent⟩ := exists_events_of_silent uttered stepped
    rw [step_on_of_silent uttered, stepped, grown, Console.remaining_of_silent _ _ silent]
    rfl
  · obtain rfl := Option.some.inj ((step_of_utters uttered).symm.trans stepped)
    have heardAll := (console_heard conversation).trans unlimited
    obtain ⟨_, grown⟩ := events_write_of_unlimited heardAll channel text after
    rw [events_heard] at grown
    rw [grown] at fits ⊢
    obtain ⟨taken, whole⟩ := fits.accepted_eq
    rw [step_on_of_utters uttered, write_of_unlimited heardAll, ← Console.after_remaining]
    simp [write, on, taken, whole]

/-- Where what is written fits at first and not at last, there is a first step whose write does not
fit. -/
theorem Steps.exists_overflow {console : Console} (steps : first.Steps last)
    (fits : console.Fits first.events) (overflows : ¬ console.Fits last.events) :
    ∃ moment next, first.Steps moment ∧ moment.step = some next ∧ next.Steps last ∧
      console.Fits moment.events ∧ ¬ console.Fits next.events := by
  induction steps with
  | refl => exact absurd fits overflows
  | tail earlier stepped inductionHypothesis =>
    rename_i moment last
    by_cases fitsStill : console.Fits moment.events
    · exact ⟨moment, last, earlier, stepped, .refl, fitsStill, overflows⟩
    · obtain ⟨before, next, up, crossing, later, fitsBefore, overflowsNext⟩ :=
        inductionHypothesis fitsStill
      exact ⟨before, next, up, crossing, later.tail stepped, fitsBefore, overflowsNext⟩

section Fresh

variable (unlimited : first.console = .unlimited) (fresh : first.events = [])

include unlimited fresh

/-- While all that is written fits, a conversation takes the steps that it takes on a console that
takes everything. -/
theorem Steps.on_of_fits {console : Console} (steps : first.Steps last)
    (fits : console.Fits last.events) :
    (first.on console).Steps (last.on (console.remaining last.events)) := by
  induction steps with
  | refl =>
    rw [fresh, Console.remaining_nil]
  | tail earlier stepped inductionHypothesis =>
    rename_i moment last
    have there := (Steps.exists_events earlier unlimited).1
    obtain ⟨more, grown⟩ := (exists_events_of_step there stepped).2
    exact (inductionHypothesis (grown ▸ fits).of_append).tail (step_on_of_fits there stepped fits)

/-- A conversation that ends with all that was written fitting ends so on a limited console too. -/
theorem Steps.run_on_of_fits {console : Console} (steps : first.Steps last)
    (ended : last.phase = .closed) (fits : console.Fits last.events) :
    (first.on console).run = last.on (console.remaining last.events) := by
  have limited := steps.on_of_fits unlimited fresh fits
  exact limited.run_eq.trans (run_of_step_eq_none (step_of_closed ended))

end Fresh

/-- That a conversation is another one, cut off in the middle of a text that the other one wrote at
some moment. The output that refused the rest of the text is full. -/
structure IsCutOff (short whole moment : Conversation operators) (console : Console)
    (channel : Channel) (text : String) : Prop where
  phase : short.phase = .refused channel
  events : ∃ accepted refused later, Utf8.encode text = accepted ++ refused ∧ refused ≠ [] ∧
    short.events = moment.events ++ [.wrote channel accepted] ∧
    whole.events = moment.events ++ .wrote channel (Utf8.encode text) :: later
  full : console.room channel = some (Event.output channel short.events).length
  stream : short.stream = moment.stream
  errors : short.errors = moment.errors

section CutOff

variable {short whole moment : Conversation operators} {console : Console} {channel : Channel}
  {text : String}

theorem IsCutOff.refusal (cutOff : short.IsCutOff whole moment console channel text) :
    short.refusal = some channel := by
  rw [Conversation.refusal, cutOff.phase]

/-- What was written on either output before the cut is what was written without it. -/
theorem IsCutOff.output_prefix (cutOff : short.IsCutOff whole moment console channel text)
    (output : Channel) : Event.output output short.events <+: Event.output output whole.events := by
  obtain ⟨accepted, refused, later, parts, _, before, through⟩ := cutOff.events
  rw [before, through, List.append_cons moment.events _ later, Event.output_append,
    Event.output_append, Event.output_append, Event.output_wrote, Event.output_wrote, parts,
    List.append_assoc]
  refine (List.prefix_append_right_inj _).mpr ?_
  split
  · exact (List.prefix_append accepted refused).trans (List.prefix_append _ _)
  · exact List.nil_prefix

/-- A write that does not fit where all before it did is cut off. -/
theorem isCutOff_write (after : Phase operators) {later : List Event}
    (fits : console.Fits moment.events)
    (overflows : ¬ console.Fits (moment.events ++ [.wrote channel (Utf8.encode text)]))
    (through : whole.events = moment.events ++ .wrote channel (Utf8.encode text) :: later) :
    ((moment.heard.on (console.remaining moment.events)).write channel text after).IsCutOff whole
      moment console channel text := by
  obtain ⟨refuses, accepted, refused, part, parts, nonempty, full⟩ := fits.exists_refused overflows
  have written :
      ((moment.heard.on (console.remaining moment.events)).write channel text after).events =
        moment.events ++ [.wrote channel accepted] := by
    have sameEvents :
        (moment.heard.on (console.remaining moment.events)).events = moment.events :=
      events_heard moment
    rw [events_write, sameEvents, ← part]
    rfl
  exact {
    phase := by simp only [write, on, refuses, if_true]
    events := ⟨accepted, refused, later, parts, nonempty, written, through⟩
    full := written ▸ full
    stream := stream_heard moment
    errors := errors_heard moment }

/-- A conversation that writes more than fits is cut off on a limited console. -/
theorem Steps.exists_isCutOff_run (steps : first.Steps whole)
    (unlimited : first.console = .unlimited) (fresh : first.events = [])
    (overflows : ¬ console.Fits whole.events) :
    ∃ moment channel text after, first.Steps moment ∧
      moment.utters = some (channel, text, after) ∧
      (first.on console).run.IsCutOff whole moment console channel text := by
  have fits : console.Fits first.events := fresh ▸ fun _ _ _ => Nat.zero_le _
  obtain ⟨moment, next, before, stepped, behind, fitsBefore, overflowsNext⟩ :=
    steps.exists_overflow fits overflows
  have there := (before.exists_events unlimited).1
  rcases uttered : moment.utters with _ | ⟨channel, text, after⟩
  · obtain ⟨_, more, grown, silent⟩ := exists_events_of_silent uttered stepped
    rw [grown] at overflowsNext
    exact absurd (fitsBefore.append_of_silent silent) overflowsNext
  · obtain rfl := Option.some.inj ((step_of_utters uttered).symm.trans stepped)
    have heardAll := (console_heard moment).trans there
    obtain ⟨here, grown⟩ := events_write_of_unlimited heardAll channel text after
    rw [events_heard] at grown
    obtain ⟨later, through⟩ := (Steps.exists_events behind here).2
    rw [grown] at overflowsNext through
    have cut : Steps _ _ := (before.on_of_fits unlimited fresh fitsBefore).tail
      (step_on_of_utters uttered (console.remaining moment.events))
    have cutOff := isCutOff_write after fitsBefore overflowsNext
      (through.symm.trans (List.append_cons _ _ _).symm)
    have ended := run_of_step_eq_none (step_of_refused cutOff.phase)
    exact ⟨moment, channel, text, after, before, uttered, cut.run_eq.trans ended ▸ cutOff⟩

end CutOff

end Conversation

end ExprShell
