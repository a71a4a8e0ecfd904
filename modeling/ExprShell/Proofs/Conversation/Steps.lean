import ExprShell.Conversation
import ExprShell.Proofs.Parser.Runs
import Mathlib.Logic.Relation
/-!
# Several steps of a conversation

What a conversation does from one phase to a later one: which tokens it leaves, what it shows on a
console that takes everything, and how many errors it counts. Reading an item takes one step for
each token and ends as the item parser does on the tokens to come.
-/

namespace ExprShell

/-- Whether an event can be seen on the console. -/
def Event.isShown : Event -> Bool
  | wrote _ _ => true
  | flushed _ => true
  | looked _ => false
  | advanced _ => false

namespace Conversation

variable {operators : Operators}

/-- Zero or more steps. -/
abbrev Steps (first last : Conversation operators) : Prop :=
  Relation.ReflTransGen (fun conversation next => conversation.step = some next) first last

/-- What can be seen of a conversation so far. -/
def shown (conversation : Conversation operators) : List Event :=
  conversation.events.filter Event.isShown

/-- Steps that show some events and count some errors, and change neither the session nor the
console. -/
structure Leads (first last : Conversation operators) (events : List Event) (failures : Nat) :
    Prop where
  steps : first.Steps last
  session : last.session = first.session
  interactive : last.interactive = first.interactive
  console : last.console = first.console
  errors : last.errors = first.errors + failures
  shown : last.shown = first.shown ++ events

variable {first middle last conversation next : Conversation operators}

theorem Leads.refl (conversation : Conversation operators) :
    conversation.Leads conversation [] 0 :=
  ⟨.refl, rfl, rfl, rfl, rfl, (List.append_nil _).symm⟩

theorem Leads.trans {before after : List Event} {earlier later : Nat}
    (start : first.Leads middle before earlier) (rest : middle.Leads last after later) :
    first.Leads last (before ++ after) (earlier + later) where
  steps := start.steps.trans rest.steps
  session := rest.session.trans start.session
  interactive := rest.interactive.trans start.interactive
  console := rest.console.trans start.console
  errors := by rw [rest.errors, start.errors, Nat.add_assoc]
  shown := by rw [rest.shown, start.shown, List.append_assoc]

/-- A conversation ends as it does after some steps. -/
theorem Steps.run_eq (steps : first.Steps last) : first.run = last.run := by
  induction steps with
  | refl => rfl
  | tail _ stepped inductionHypothesis =>
    rename_i before after
    rw [inductionHypothesis, run]
    split <;> simp_all

theorem run_of_step_eq_none (finished : conversation.step = none) :
    conversation.run = conversation := by
  rw [run]
  split <;> simp_all

/-! ## What a step does in each phase -/

section Phases

theorem step_of_prompting (phase : conversation.phase = .opening)
    (interactive : conversation.interactive = true) :
    conversation.step = some (conversation.write .diagnostics promptText .prompted) := by
  simp [step, phase, interactive]

theorem step_of_opening (phase : conversation.phase = .opening)
    (quiet : conversation.interactive = false) :
    conversation.step = some { conversation with phase := .choosing } := by
  simp [step, phase, quiet]

theorem step_of_prompted (phase : conversation.phase = .prompted) :
    conversation.step = some (conversation.flush .diagnostics .choosing) := by
  rw [step, phase]

theorem step_of_choosing (phase : conversation.phase = .choosing) :
    conversation.step = some (conversation.look choose).countError := by
  rw [step, phase]

theorem step_of_reading {state : (Parser.item operators).State}
    (phase : conversation.phase = .reading state) :
    conversation.step = some (conversation.advance fun token =>
      follow ((Parser.item operators).feed state token)).countError := by
  rw [step, phase]

/-- In parse mode nothing is learnt from an item. -/
theorem learn_of_parsing (parsing : conversation.session.config.mode = .parse) (item : Item) :
    conversation.learn item = conversation := by
  rw [learn, Session.after_of_parsing parsing]

/-- What the session replies to an item is reported. -/
theorem step_of_replying {item : Item} {text : String}
    (phase : conversation.phase = .answering item)
    (replied : conversation.session.reply item conversation.backend = .ok text) :
    conversation.step = some ((conversation.learn item).write .results text .opening) := by
  simp only [step, phase]
  rw [replied]

/-- In parse mode, an item is answered by its kind. -/
theorem step_of_answering (parsing : conversation.session.config.mode = .parse) {item : Item}
    (phase : conversation.phase = .answering item) :
    conversation.step = some (conversation.write .results
      ("Parsed " ++ item.describe ++ ".\n") .opening) := by
  rw [step_of_replying phase (Session.reply_of_parsing parsing _ _), learn_of_parsing parsing]

/-- An item that the session fails to handle is complained about. -/
theorem step_of_failing {item : Item} {error : SessionError}
    (phase : conversation.phase = .answering item)
    (failed : conversation.session.reply item conversation.backend = .error error) :
    conversation.step = some
      { conversation.learn item with phase := .complaining (.unhandled error) }.countError := by
  simp only [step, phase]
  rw [failed]

/-- In any mode, an item is answered by a report, or the session fails to handle it. -/
theorem step_of_answering_cases {item : Item} (phase : conversation.phase = .answering item)
    (stepped : conversation.step = some next) :
    (∃ text, next = (conversation.learn item).write .results text .opening) ∨
      ∃ error, next =
        { conversation.learn item with phase := .complaining (.unhandled error) }.countError := by
  cases replied : conversation.session.reply item conversation.backend with
  | ok text =>
    exact .inl ⟨text, Option.some.inj (stepped.symm.trans (step_of_replying phase replied))⟩
  | error error =>
    exact .inr ⟨error, Option.some.inj (stepped.symm.trans (step_of_failing phase replied))⟩

theorem step_of_unhandled {error : SessionError}
    (phase : conversation.phase = .complaining (.unhandled error)) :
    conversation.step = some (conversation.write .diagnostics
      ("Error: " ++ error.message ++ "\n") .opening) := by
  rw [step, phase]
  rfl

theorem step_of_complaining {error : SyntaxError}
    (phase : conversation.phase = .complaining (.unreadable error)) :
    conversation.step = some (conversation.write .diagnostics
      ("Error: " ++ error.message ++ "\n") .skipping) := by
  rw [step, phase]
  rfl

theorem step_of_skipping (phase : conversation.phase = .skipping) :
    conversation.step = some (conversation.advance fun _ => .opening).countError := by
  rw [step, phase]
  rfl

theorem step_of_closing (phase : conversation.phase = .closing)
    (undumped : conversation.session.config.mode ≠ .ir) :
    conversation.step = some (conversation.flush .results .closed) := by
  rw [step, phase]
  exact if_neg undumped

/-- In IR mode, the open unit is shown at the end of the input. -/
theorem step_of_dumping (phase : conversation.phase = .closing)
    (keeps : conversation.session.config.mode = .ir) :
    conversation.step = some (conversation.write .results
      (conversation.session.code conversation.backend) .dumped) := by
  rw [step, phase]
  exact if_pos keeps

theorem step_of_dumped (phase : conversation.phase = .dumped) :
    conversation.step = some (conversation.flush .results .closed) := by
  rw [step, phase]

theorem step_of_closed (phase : conversation.phase = .closed) : conversation.step = none := by
  rw [step, phase]

theorem step_of_refused {channel : Channel} (phase : conversation.phase = .refused channel) :
    conversation.step = none := by
  rw [step, phase]

end Phases

/-! ## Single steps -/

section Single

variable {channel : Channel} {phase : Phase operators}

/-- A console that takes everything takes a write and stays as it is. -/
theorem write_of_unlimited (unlimited : conversation.console = .unlimited) (text : String) :
    conversation.write channel text phase =
      { conversation with
        history := .wrote channel (Utf8.encode text) :: conversation.history
        phase := phase } := by
  obtain ⟨session, backend, interactive, console, errors, stream, current, history⟩ := conversation
  obtain rfl : console = .unlimited := unlimited
  cases channel <;> simp [write, Console.after, Console.accepted, Console.refuses, Console.room,
    Console.withRoom, Console.unlimited]

/-- A step that writes shows just that. -/
theorem leads_write (unlimited : conversation.console = .unlimited) {text : String}
    (stepped : conversation.step = some (conversation.write channel text phase)) :
    conversation.Leads (conversation.write channel text phase)
      [.wrote channel (Utf8.encode text)] 0 := by
  rw [write_of_unlimited unlimited] at stepped ⊢
  exact ⟨.single stepped, rfl, rfl, rfl, rfl, by simp [shown, events, Event.isShown]⟩

/-- A step that flushes shows just that. -/
theorem leads_flush (stepped : conversation.step = some (conversation.flush channel phase)) :
    conversation.Leads (conversation.flush channel phase) [.flushed channel] 0 :=
  ⟨.single stepped, rfl, rfl, rfl, rfl, by simp [shown, events, flush, Event.isShown]⟩

/-- How many errors are counted on entering a phase. -/
def failuresOf : Phase operators -> Nat
  | .complaining _ => 1
  | _ => 0

/-- A step that moves in the stream shows nothing. An error is counted when it is met. -/
theorem leads_move {stream : TokenStream} {event : Event} (hidden : event.isShown = false)
    (stepped : conversation.step = some
      { conversation with
        stream := stream
        history := event :: conversation.history
        phase := phase }.countError) :
    conversation.Leads
      { conversation with
        stream := stream
        history := event :: conversation.history
        phase := phase }.countError [] (failuresOf phase) := by
  cases phase <;>
    exact ⟨.single stepped, rfl, rfl, rfl, rfl, by simp [countError, shown, events, hidden]⟩

variable {respond : Option Token -> Phase operators}

theorem phase_countError (conversation : Conversation operators) :
    conversation.countError.phase = conversation.phase := by
  unfold countError
  split <;> rfl

theorem stream_countError (conversation : Conversation operators) :
    conversation.countError.stream = conversation.stream := by
  unfold countError
  split <;> rfl

/-- The phase after looking is decided by the first of the tokens to come. -/
theorem phase_look (conversation : Conversation operators)
    (respond : Option Token -> Phase operators) :
    (conversation.look respond).phase = respond conversation.tokens.head? := by
  simp [look, tokens]

/-- The phase after advancing is decided by the second of the tokens to come. -/
theorem phase_advance (conversation : Conversation operators)
    (respond : Option Token -> Phase operators) :
    (conversation.advance respond).phase = respond conversation.tokens.tail.head? := by
  simp [advance, TokenStream.head?_advance, TokenStream.tokens_look_advance, tokens]

/-- A step that looks shows nothing. -/
theorem leads_looked (stepped : conversation.step = some (conversation.look respond).countError) :
    conversation.Leads (conversation.look respond).countError []
      (failuresOf (respond conversation.tokens.head?)) := by
  rw [← phase_look conversation respond]
  exact leads_move rfl stepped

/-- A step that advances shows nothing. -/
theorem leads_advanced
    (stepped : conversation.step = some (conversation.advance respond).countError) :
    conversation.Leads (conversation.advance respond).countError []
      (failuresOf (respond conversation.tokens.tail.head?)) := by
  rw [← phase_advance conversation respond]
  exact leads_move rfl stepped

theorem leads_look (stepped : conversation.step = some (conversation.look respond).countError) :
    ∃ next, conversation.Leads next [] (failuresOf (respond conversation.tokens.head?)) ∧
      next.phase = respond conversation.tokens.head? ∧ next.tokens = conversation.tokens ∧
      next.stream = conversation.stream.look :=
  ⟨_, leads_looked stepped, (phase_countError _).trans (phase_look conversation respond),
    (tokens_countError _).trans (tokens_look conversation respond), stream_countError _⟩

theorem leads_advance
    (stepped : conversation.step = some (conversation.advance respond).countError) :
    ∃ next, conversation.Leads next [] (failuresOf (respond conversation.tokens.tail.head?)) ∧
      next.phase = respond conversation.tokens.tail.head? ∧
      next.tokens = conversation.tokens.tail :=
  ⟨_, leads_advanced stepped, (phase_countError _).trans (phase_advance conversation respond),
    (tokens_countError _).trans (tokens_advance conversation respond)⟩

end Single

/-- A step leaves the stream as it is, looks at its current token to choose how to go on, or
advances past it within or between items. -/
theorem stream_of_step (stepped : conversation.step = some next) :
    next.stream = conversation.stream ∨
      conversation.phase = .choosing ∧ next.stream = conversation.stream.look ∨
      (conversation.phase = .skipping ∨ ∃ state, conversation.phase = .reading state) ∧
        next.stream = conversation.stream.look.advance := by
  cases phase : conversation.phase with
  | opening =>
    cases interactive : conversation.interactive with
    | false =>
      obtain rfl := Option.some.inj ((step_of_opening phase interactive).symm.trans stepped)
      exact .inl rfl
    | true =>
      obtain rfl := Option.some.inj ((step_of_prompting phase interactive).symm.trans stepped)
      exact .inl rfl
  | prompted =>
    obtain rfl := Option.some.inj ((step_of_prompted phase).symm.trans stepped)
    exact .inl rfl
  | choosing =>
    obtain rfl := Option.some.inj ((step_of_choosing phase).symm.trans stepped)
    exact .inr (.inl ⟨rfl, stream_countError _⟩)
  | reading state =>
    obtain rfl := Option.some.inj ((step_of_reading phase).symm.trans stepped)
    exact .inr (.inr ⟨.inr ⟨state, rfl⟩, stream_countError _⟩)
  | answering item =>
    rcases step_of_answering_cases phase stepped with ⟨outcome, rfl⟩ | ⟨error, rfl⟩
    · exact .inl rfl
    · exact .inl (stream_countError _)
  | complaining complaint =>
    simp only [step, phase] at stepped
    obtain rfl := Option.some.inj stepped
    exact .inl rfl
  | skipping =>
    obtain rfl := Option.some.inj ((step_of_skipping phase).symm.trans stepped)
    exact .inr (.inr ⟨.inl rfl, stream_countError _⟩)
  | closing =>
    by_cases keeps : conversation.session.config.mode = .ir
    · obtain rfl := Option.some.inj ((step_of_dumping phase keeps).symm.trans stepped)
      exact .inl rfl
    · obtain rfl := Option.some.inj ((step_of_closing phase keeps).symm.trans stepped)
      exact .inl rfl
  | dumped =>
    obtain rfl := Option.some.inj ((step_of_dumped phase).symm.trans stepped)
    exact .inl rfl
  | closed => simp [step, phase] at stepped
  | refused channel => simp [step, phase] at stepped

/-! ## Reading an item -/

/-- What a conversation does with the result of an item parser. -/
def phaseOf : Except SyntaxError Item -> Phase operators
  | .ok item => .answering item
  | .error error => .complaining (.unreadable error)

theorem follow_stop (result : Except SyntaxError Item) :
    follow (.stop result) = (phaseOf result : Phase operators) := by
  cases result <;> rfl

/-- That a conversation comes to a result of the item parser, shows nothing on the way and leaves
some tokens. -/
def ReadsTo (conversation : Conversation operators)
    (outcome : Except SyntaxError Item × List Token) : Prop :=
  ∃ next, conversation.Leads next [] (failuresOf (phaseOf outcome.1 : Phase operators)) ∧
    next.phase = phaseOf outcome.1 ∧ next.tokens = outcome.2

/-- A conversation that follows the answer of an item parser comes to a result of the parser, if
it does so wherever the parser takes the token. -/
theorem ReadsTo.of_follow {state : (Parser.item operators).State}
    (leads : first.Leads next []
      (failuresOf (follow ((Parser.item operators).feed state next.tokens.head?))))
    (phase : next.phase = follow ((Parser.item operators).feed state next.tokens.head?))
    (goesOn : ∀ token rest state', next.tokens = token :: rest → next.phase = .reading state' →
      next.ReadsTo ((Parser.item operators).parseFrom state' rest)) :
    first.ReadsTo ((Parser.item operators).parseFrom state next.tokens) := by
  rcases (Parser.item operators).parseFrom_cases state next.tokens with
    ⟨token, rest, state', coming, fed, run⟩ | ⟨result, stopped, run⟩
  · rw [coming, List.head?_cons, fed] at leads phase
    obtain ⟨last, further, lastPhase, lastTokens⟩ := goesOn token rest state' coming phase
    rw [run]
    exact ⟨last, by simpa [failuresOf, follow] using leads.trans further, lastPhase, lastTokens⟩
  · rw [stopped, follow_stop] at leads phase
    rw [run]
    exact ⟨next, leads, phase, rfl⟩

/-- Reading goes on as the item parser does behind the current token. -/
theorem readsTo_of_reading {conversation : Conversation operators}
    {state : (Parser.item operators).State} (phase : conversation.phase = .reading state) :
    conversation.ReadsTo ((Parser.item operators).parseFrom state conversation.tokens.tail) := by
  obtain ⟨next, leads, nextPhase, nextTokens⟩ := leads_advance (step_of_reading phase)
  rw [← nextTokens] at leads nextPhase ⊢
  refine .of_follow leads nextPhase fun token rest state' coming reading => ?_
  have shorter : next.tokens.length < conversation.tokens.length := by
    have positive : 0 < next.tokens.length := by simp [coming]
    rw [nextTokens, List.length_tail] at positive ⊢
    omega
  have further := readsTo_of_reading reading
  rwa [coming, List.tail_cons] at further
termination_by conversation.tokens.length

/-- In front of an item, a conversation reads what the item parser reads. -/
theorem readsTo_of_choosing (phase : conversation.phase = .choosing)
    (nonempty : conversation.tokens ≠ [])
    (unseparated : conversation.tokens.head? ≠ some .itemSeparator) :
    conversation.ReadsTo ((Parser.item operators).parse conversation.tokens) := by
  obtain ⟨next, leads, nextPhase, nextTokens, _⟩ := leads_look (step_of_choosing phase)
  have chosen : choose conversation.tokens.head? = follow ((Parser.item operators).feed
      (Parser.item operators).start conversation.tokens.head?) := by
    obtain ⟨token, rest, coming⟩ := List.exists_cons_of_ne_nil nonempty
    rw [coming, List.head?_cons] at unseparated ⊢
    rw [choose, if_neg (by simpa using unseparated)]
  rw [chosen, ← nextTokens] at leads nextPhase
  rw [← nextTokens]
  refine .of_follow leads nextPhase fun token rest state coming reading => ?_
  have further := readsTo_of_reading reading
  rwa [coming, List.tail_cons] at further

end Conversation

end ExprShell
