import ExprShell.Proofs.Conversation.Accounting
/-!
# Conversations about the same tokens

A conversation sees its source through the tokens to come. Two conversations that stand alike, with
the same tokens to come, go on alike step by step, however their sources spread the tokens over
lines: they show the same on their consoles and count the same errors.
-/

namespace ExprShell

namespace Conversation

variable {operators : Operators} {first second : Conversation operators}

section Shown

variable (conversation : Conversation operators)

theorem shown_write (channel : Channel) (text : String) (next : Phase operators) :
    (conversation.write channel text next).shown = conversation.shown ++
      [.wrote channel (conversation.console.accepted channel (Utf8.encode text))] := by
  simp [shown, events, write, Event.isShown]

theorem shown_flush (channel : Channel) (next : Phase operators) :
    (conversation.flush channel next).shown = conversation.shown ++ [.flushed channel] := by
  simp [shown, events, flush, Event.isShown]

theorem shown_look (next : Option Token -> Phase operators) :
    (conversation.look next).shown = conversation.shown := by
  simp [shown, events, look, Event.isShown]

theorem shown_advance (next : Option Token -> Phase operators) :
    (conversation.advance next).shown = conversation.shown := by
  simp [shown, events, advance, Event.isShown]

end Shown

/-- That two conversations differ at most in how their tokens are spread over lines. -/
structure Alike (first second : Conversation operators) : Prop where
  session : first.session = second.session
  backend : first.backend = second.backend
  interactive : first.interactive = second.interactive
  console : first.console = second.console
  errors : first.errors = second.errors
  tokens : first.tokens = second.tokens
  phase : first.phase = second.phase
  shown : first.shown = second.shown

namespace Alike

theorem write (alike : first.Alike second) (channel : Channel) (text : String)
    (next : Phase operators) :
    (first.write channel text next).Alike (second.write channel text next) where
  session := alike.session
  backend := alike.backend
  interactive := alike.interactive
  console := by simp only [Conversation.write, alike.console]
  errors := alike.errors
  tokens := alike.tokens
  phase := by simp only [Conversation.write, alike.console]
  shown := by rw [shown_write, shown_write, alike.shown, alike.console]

theorem flush (alike : first.Alike second) (channel : Channel) (next : Phase operators) :
    (first.flush channel next).Alike (second.flush channel next) where
  session := alike.session
  backend := alike.backend
  interactive := alike.interactive
  console := alike.console
  errors := alike.errors
  tokens := alike.tokens
  phase := rfl
  shown := by rw [shown_flush, shown_flush, alike.shown]

theorem learn (alike : first.Alike second) (item : Item) :
    (first.learn item).Alike (second.learn item) where
  session := by simp only [Conversation.learn, alike.session, alike.backend]
  backend := alike.backend
  interactive := alike.interactive
  console := alike.console
  errors := alike.errors
  tokens := alike.tokens
  phase := alike.phase
  shown := alike.shown

theorem goTo (alike : first.Alike second) (next : Phase operators) :
    Alike { first with phase := next } { second with phase := next } :=
  ⟨alike.session, alike.backend, alike.interactive, alike.console, alike.errors, alike.tokens, rfl,
    alike.shown⟩

/-- Both look at the same token. -/
theorem look (alike : first.Alike second) (next : Option Token -> Phase operators) :
    (first.look next).Alike (second.look next) where
  session := alike.session
  backend := alike.backend
  interactive := alike.interactive
  console := alike.console
  errors := alike.errors
  tokens := by simp only [tokens_look, alike.tokens]
  phase := by simp only [phase_look, alike.tokens]
  shown := by rw [shown_look, shown_look, alike.shown]

/-- Both advance to the same token. -/
theorem advance (alike : first.Alike second) (next : Option Token -> Phase operators) :
    (first.advance next).Alike (second.advance next) where
  session := alike.session
  backend := alike.backend
  interactive := alike.interactive
  console := alike.console
  errors := alike.errors
  tokens := by simp only [tokens_advance, alike.tokens]
  phase := by simp only [phase_advance, alike.tokens]
  shown := by rw [shown_advance, shown_advance, alike.shown]

theorem countError (alike : first.Alike second) : first.countError.Alike second.countError := by
  obtain ⟨session, backend, interactive, console, errors, stream, phase, history⟩ := first
  obtain ⟨session', backend', interactive', console', errors', stream', phase', history'⟩ := second
  obtain rfl : phase = phase' := alike.phase
  cases phase with
  | complaining complaint =>
    have counted : errors + 1 = errors' + 1 := congrArg (· + 1) alike.errors
    exact ⟨alike.session, alike.backend, alike.interactive, alike.console, counted, alike.tokens,
      rfl, alike.shown⟩
  | _ => exact alike

/-- Conversations that stand alike take steps to where they stand alike again, or both are over. -/
theorem step (alike : first.Alike second) : Option.Rel Alike first.step second.step := by
  obtain ⟨session, backend, interactive, console, errors, stream, phase, history⟩ := first
  obtain ⟨session', backend', interactive', console', errors', stream', phase', history'⟩ := second
  obtain rfl : session = session' := alike.session
  obtain rfl : backend = backend' := alike.backend
  obtain rfl : interactive = interactive' := alike.interactive
  obtain rfl : phase = phase' := alike.phase
  cases phase with
  | opening =>
    simp only [Conversation.step]
    split
    · exact .some (alike.write .diagnostics promptText .prompted)
    · exact .some (alike.goTo .choosing)
  | prompted => exact .some (alike.flush .diagnostics .choosing)
  | choosing => exact .some (alike.look choose).countError
  | reading state => exact .some (alike.advance _).countError
  | answering item =>
    simp only [Conversation.step]
    split
    · exact .some ((alike.learn item).write .results _ .opening)
    · exact .some ((alike.learn item).goTo _).countError
  | complaining complaint => exact .some (alike.write .diagnostics complaint.report _)
  | skipping => exact .some (alike.advance fun _ => .opening)
  | closing =>
    simp only [Conversation.step]
    split
    · exact .some (alike.write .results _ .dumped)
    · exact .some (alike.flush .results .closed)
  | dumped => exact .some (alike.flush .results .closed)
  | closed => exact .none
  | refused channel => exact .none

/-- So whole conversations end alike. -/
theorem run (alike : first.Alike second) : first.run.Alike second.run := by
  fun_induction Conversation.run first generalizing second with
  | case1 first ended =>
    have same := alike.step
    rw [ended] at same
    cases other : second.step with
    | none => rwa [run_of_step_eq_none other]
    | some next =>
      rw [other] at same
      nomatch same
  | case2 first next stepped inductionHypothesis =>
    have same := alike.step
    rw [stepped] at same
    cases other : second.step with
    | none =>
      rw [other] at same
      nomatch same
    | some next' =>
      rw [other] at same
      cases same with
      | some nextAlike =>
        have steps : second.Steps next' := .single other
        rw [steps.run_eq]
        exact inductionHypothesis nextAlike

end Alike

end Conversation

namespace Shell

/-- A shell talks alike about any streams with the same tokens. -/
theorem run_alike (shell : Shell) {stream stream' : TokenStream}
    (same : stream.tokens = stream'.tokens) : (shell.run stream).Alike (shell.run stream') :=
  Conversation.Alike.run ⟨rfl, rfl, rfl, rfl, rfl, same, rfl, rfl⟩

/-- A shell writes the same about any streams with the same tokens, on each of its outputs, and
counts as many errors. -/
theorem run_congr (shell : Shell) {stream stream' : TokenStream}
    (same : stream.tokens = stream'.tokens) :
    (∀ channel, Event.output channel (shell.run stream).events =
        Event.output channel (shell.run stream').events) ∧
      (shell.run stream).errors = (shell.run stream').errors := by
  have alike := shell.run_alike same
  refine ⟨fun channel => ?_, alike.errors⟩
  have shown := congrArg (Event.output channel) alike.shown
  rwa [Conversation.shown, Conversation.shown, Event.output_filter_isShown,
    Event.output_filter_isShown] at shown

end Shell

end ExprShell
