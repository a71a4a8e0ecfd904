import ExprShell.Proofs.Conversation.Accounting
/-!
# Places of a conversation

At every moment of a conversation in parse mode, the tokens that it is done with are cut into
segments, it has shown the reports of these segments, and its phase tells what it does with the next
one. The places are given phase by phase. A step goes from a place to a place, so every moment is at
one, and a write of a conversation is a prompt, the result of an item, or the report of an error.
-/

namespace ExprShell

/-- Tokens that start with some segments, and the tokens behind these. -/
inductive Begins (operators : Operators) (tokens : List Token) : List Segment -> List Token -> Prop
  | start : Begins operators tokens [] tokens
  | cut {before : List Segment} {segment : Segment} {middle left : List Token}
      (earlier : Begins operators tokens before middle)
      (cuts : segment.Cuts operators middle left) :
      Begins operators tokens (before ++ [segment]) left

/-- The segments of the tokens left complete those in front of them. -/
theorem Begins.append {operators : Operators} {tokens left : List Token}
    {before after : List Segment} (begins : Begins operators tokens before left)
    (later : Segmentation operators left after) :
    Segmentation operators tokens (before ++ after) := by
  induction begins generalizing after with
  | start => exact later
  | cut earlier cuts inductionHypothesis =>
    rw [List.append_assoc]
    exact inductionHypothesis (.cut cuts later)

/-- Where a conversation of a shell about some tokens stands in a phase: what it has shown, how many
errors have been counted, and which tokens are still to come. -/
inductive Place (shell : Shell) (tokens : List Token) :
    Phase shell.operators -> List Event -> Nat -> List Token -> Prop
  | opening {before : List Segment} {left : List Token}
      (begins : Begins shell.operators tokens before left) :
      Place shell tokens .opening (reports shell.interactive before)
        (shell.errors + before.countP Segment.isRejected) left
  | prompted {before : List Segment} {left : List Token} (asks : shell.interactive = true)
      (begins : Begins shell.operators tokens before left) :
      Place shell tokens .prompted
        (reports shell.interactive before ++ [.wrote .diagnostics (Utf8.encode promptText)])
        (shell.errors + before.countP Segment.isRejected) left
  | choosing {before : List Segment} {left : List Token}
      (begins : Begins shell.operators tokens before left) :
      Place shell tokens .choosing
        (reports shell.interactive before ++ promptEvents shell.interactive)
        (shell.errors + before.countP Segment.isRejected) left
  /-- The item parser has taken some tokens and the current one, past which the conversation is
  about to advance. -/
  | reading {before : List Segment} {taken rest : List Token} {current : Token}
      {state : (Parser.item shell.operators).State}
      (begins : Begins shell.operators tokens before (taken ++ current :: rest))
      (unseparated : (taken ++ current :: rest).head? ≠ some .itemSeparator)
      (walked : (Parser.item shell.operators).walk (Parser.item shell.operators).start
        (taken ++ [current]) = some state) :
      Place shell tokens (.reading state)
        (reports shell.interactive before ++ promptEvents shell.interactive)
        (shell.errors + before.countP Segment.isRejected) (current :: rest)
  | answering {before : List Segment} {taken middle left : List Token} {item : Item}
      (begins : Begins shell.operators tokens before middle)
      (cuts : Segment.Cuts shell.operators (.accepted taken item) middle left) :
      Place shell tokens (.answering item)
        (reports shell.interactive before ++ promptEvents shell.interactive)
        (shell.errors + before.countP Segment.isRejected) left
  /-- The offending token, if there is one, is the current one. -/
  | complaining {before : List Segment} {taken middle left : List Token} {error : SyntaxError}
      (begins : Begins shell.operators tokens before middle)
      (cuts : Segment.Cuts shell.operators (.rejected taken left.head? error) middle left.tail) :
      Place shell tokens (.complaining (.unreadable error))
        (reports shell.interactive before ++ promptEvents shell.interactive)
        (shell.errors + before.countP Segment.isRejected + 1) left
  | skipping {before : List Segment} {left : List Token}
      (begins : Begins shell.operators tokens before left.tail) :
      Place shell tokens .skipping (reports shell.interactive before)
        (shell.errors + before.countP Segment.isRejected) left
  | closing {before : List Segment} (begins : Begins shell.operators tokens before []) :
      Place shell tokens .closing
        (reports shell.interactive before ++ promptEvents shell.interactive)
        (shell.errors + before.countP Segment.isRejected) []
  | closed {before : List Segment} (begins : Begins shell.operators tokens before []) :
      Place shell tokens .closed (transcript shell.interactive before)
        (shell.errors + before.countP Segment.isRejected) []

namespace Conversation

/-- That a conversation in parse mode, on a console that takes everything, is at a place. -/
structure Stands (shell : Shell) (tokens : List Token)
    (conversation : Conversation shell.operators) : Prop where
  parsing : conversation.session.config.mode = .parse
  interactive : conversation.interactive = shell.interactive
  unlimited : conversation.console = .unlimited
  place : Place shell tokens conversation.phase conversation.shown conversation.errors
    conversation.tokens

variable {shell : Shell} {tokens : List Token} {conversation next : Conversation shell.operators}

/-- Steps of a conversation at a place lead to a place if it is told what they show and count. -/
theorem Stands.of_leads (stands : conversation.Stands shell tokens) {events : List Event}
    {failures : Nat} (leads : conversation.Leads next events failures)
    (place : Place shell tokens next.phase (conversation.shown ++ events)
      (conversation.errors + failures) next.tokens) : next.Stands shell tokens where
  parsing := leads.session ▸ stands.parsing
  interactive := leads.interactive.trans stands.interactive
  unlimited := leads.console.trans stands.unlimited
  place := by rw [leads.shown, leads.errors]; exact place

section Moves

variable {channel : Channel} {phase : Phase shell.operators}
  {respond : Option Token -> Phase shell.operators}
  (stands : conversation.Stands shell tokens) (stepped : conversation.step = some next)

include stands stepped

theorem Stands.write {text : String}
    (writes : conversation.step = some (conversation.write channel text phase))
    (place : Place shell tokens phase (conversation.shown ++ [.wrote channel (Utf8.encode text)])
      conversation.errors conversation.tokens) : next.Stands shell tokens := by
  obtain rfl := Option.some.inj (writes.symm.trans stepped)
  refine stands.of_leads (leads_write stands.unlimited writes) ?_
  rw [write_of_unlimited stands.unlimited]
  exact place

theorem Stands.flush
    (flushes : conversation.step = some (conversation.flush channel phase))
    (place : Place shell tokens phase (conversation.shown ++ [.flushed channel])
      conversation.errors conversation.tokens) : next.Stands shell tokens := by
  obtain rfl := Option.some.inj (flushes.symm.trans stepped)
  exact stands.of_leads (leads_flush flushes) place

theorem Stands.look
    (looks : conversation.step = some (conversation.look respond).countError)
    (place : Place shell tokens (respond conversation.tokens.head?) conversation.shown
      (conversation.errors + failuresOf (respond conversation.tokens.head?))
      conversation.tokens) : next.Stands shell tokens := by
  obtain rfl := Option.some.inj (looks.symm.trans stepped)
  refine stands.of_leads (leads_looked looks) ?_
  rw [phase_countError, phase_look, tokens_countError, tokens_look, List.append_nil]
  exact place

theorem Stands.advance
    (advances : conversation.step = some (conversation.advance respond).countError)
    (place : Place shell tokens (respond conversation.tokens.tail.head?) conversation.shown
      (conversation.errors + failuresOf (respond conversation.tokens.tail.head?))
      conversation.tokens.tail) : next.Stands shell tokens := by
  obtain rfl := Option.some.inj (advances.symm.trans stepped)
  refine stands.of_leads (leads_advanced advances) ?_
  rw [phase_countError, phase_advance, tokens_countError, tokens_advance, List.append_nil]
  exact place

end Moves

end Conversation

/-- Behind the tokens that the item parser has taken, it takes one more, or these tokens make a
segment. -/
theorem Segment.exists_cuts_of_walk {operators : Operators} {taken left : List Token}
    {state : (Parser.item operators).State} (nonempty : taken ++ left ≠ [])
    (unseparated : (taken ++ left).head? ≠ some .itemSeparator)
    (walked : (Parser.item operators).walk (Parser.item operators).start taken = some state) :
    (∃ current rest next, left = current :: rest ∧
      (Parser.item operators).feed state (some current) = .shift next ∧
      (Parser.item operators).walk (Parser.item operators).start (taken ++ [current]) =
        some next) ∨
    (∃ item, (Parser.item operators).feed state left.head? = .accept item ∧
      (accepted taken item).Cuts operators (taken ++ left) left) ∨
    ∃ error, (Parser.item operators).feed state left.head? = .reject error ∧
      (rejected taken left.head? error).Cuts operators (taken ++ left) left.tail := by
  rcases (Parser.item operators).parseFrom_cases state left with
    ⟨current, rest, next, rfl, fed, _⟩ | ⟨result, stopped, run⟩
  · refine .inl ⟨current, rest, next, rfl, fed, ?_⟩
    rw [(Parser.item operators).walk_append _ walked]
    simp [Parser.walk, fed]
  · have parsed : (Parser.item operators).parse (taken ++ left) = (result, left) :=
      ((Parser.item operators).parseFrom_append left walked).trans run
    cases result with
    | ok item => exact .inr (.inl ⟨item, stopped, .accepted unseparated parsed⟩)
    | error error => exact .inr (.inr ⟨error, stopped, .rejected nonempty unseparated parsed⟩)

/-- Behind the tokens that the item parser has taken, its answer to the next one tells the place. -/
theorem Place.follow {shell : Shell} {tokens taken left : List Token} {before : List Segment}
    {state : (Parser.item shell.operators).State}
    (begins : Begins shell.operators tokens before (taken ++ left)) (nonempty : taken ++ left ≠ [])
    (unseparated : (taken ++ left).head? ≠ some .itemSeparator)
    (walked : (Parser.item shell.operators).walk (Parser.item shell.operators).start taken =
      some state) :
    Place shell tokens
      (Conversation.follow ((Parser.item shell.operators).feed state left.head?))
      (reports shell.interactive before ++ promptEvents shell.interactive)
      (shell.errors + before.countP Segment.isRejected + Conversation.failuresOf
        (Conversation.follow ((Parser.item shell.operators).feed state left.head?))) left := by
  rcases Segment.exists_cuts_of_walk nonempty unseparated walked with
    ⟨current, rest, next, rfl, fed, further⟩ | ⟨item, fed, cuts⟩ | ⟨error, fed, cuts⟩
  · rw [List.head?_cons, fed]
    exact .reading begins unseparated further
  · rw [fed]
    exact .answering begins cuts
  · rw [fed]
    exact .complaining begins cuts

section Behind

variable {shell : Shell} {tokens middle left : List Token} {before : List Segment}
  {segment : Segment} (begins : Begins shell.operators tokens before middle)

include begins

/-- Behind the report of a segment, the next one opens. -/
theorem Place.opening_behind (cuts : segment.Cuts shell.operators middle left) :
    Place shell tokens .opening
      (reports shell.interactive before ++ promptEvents shell.interactive ++ segment.report)
      (shell.errors + before.countP Segment.isRejected + if segment.isRejected then 1 else 0)
      left := by
  rw [← reports_concat, Nat.add_assoc, ← List.countP_singleton, ← List.countP_append]
  exact .opening (begins.cut cuts)

/-- Behind the report of a segment, its last token is skipped if it is the current one. -/
theorem Place.skipping_behind (cuts : segment.Cuts shell.operators middle left.tail) :
    Place shell tokens .skipping
      (reports shell.interactive before ++ promptEvents shell.interactive ++ segment.report)
      (shell.errors + before.countP Segment.isRejected + if segment.isRejected then 1 else 0)
      left := by
  rw [← reports_concat, Nat.add_assoc, ← List.countP_singleton, ← List.countP_append]
  exact .skipping (begins.cut cuts)

end Behind

/-- In front of a segment or of the end of the tokens, the first token left tells the place. -/
theorem Place.choose {shell : Shell} {tokens left : List Token} {before : List Segment}
    (begins : Begins shell.operators tokens before left) :
    Place shell tokens (Conversation.choose left.head?)
      (reports shell.interactive before ++ promptEvents shell.interactive)
      (shell.errors + before.countP Segment.isRejected +
        Conversation.failuresOf (Conversation.choose left.head? : Phase shell.operators)) left := by
  cases left with
  | nil => exact .closing begins
  | cons token rest =>
    by_cases separated : token = .itemSeparator
    · subst separated
      have cuts : Segment.separator.Cuts shell.operators (.itemSeparator :: rest)
          (Token.itemSeparator :: rest).tail := .separator rest
      rw [List.head?_cons, Conversation.choose, if_pos rfl, ← List.append_nil (_ ++ _)]
      exact .skipping_behind begins cuts
    · rw [List.head?_cons, Conversation.choose, if_neg separated]
      have unseparated : ([] ++ token :: rest).head? ≠ some .itemSeparator := by
        simpa using separated
      exact .follow begins (List.cons_ne_nil token rest) unseparated rfl

namespace Conversation

variable {shell : Shell} {tokens : List Token} {conversation next : Conversation shell.operators}

/-- A step goes from a place to a place. -/
theorem Stands.step (stands : conversation.Stands shell tokens)
    (stepped : conversation.step = some next) : next.Stands shell tokens := by
  have place := stands.place
  have interactive := stands.interactive
  generalize phase : conversation.phase = current at place
  generalize shown : conversation.shown = events at place
  generalize counted : conversation.errors = errors at place
  generalize coming : conversation.tokens = left at place
  cases place with
  | opening begins =>
    cases asks : shell.interactive with
    | true =>
      refine stands.write stepped (step_of_prompting phase (interactive.trans asks)) ?_
      rw [shown, counted, coming]
      exact .prompted asks begins
    | false =>
      have opens := step_of_opening phase (interactive.trans asks)
      obtain rfl := Option.some.inj (opens.symm.trans stepped)
      have leads : conversation.Leads { conversation with phase := .choosing } [] 0 :=
        ⟨.single opens, rfl, rfl, rfl, rfl, (List.append_nil _).symm⟩
      have silent : promptEvents shell.interactive = [] := by rw [promptEvents, asks]; rfl
      refine stands.of_leads leads ?_
      rw [shown, counted, ← silent]
      exact coming ▸ .choosing begins
  | prompted asks begins =>
    have prompt : promptEvents shell.interactive =
        [.wrote .diagnostics (Utf8.encode promptText)] ++ [.flushed .diagnostics] := by
      rw [promptEvents, asks]; rfl
    refine stands.flush stepped (step_of_prompted phase) ?_
    rw [shown, counted, coming, List.append_assoc, ← prompt]
    exact .choosing begins
  | choosing begins =>
    refine stands.look stepped (step_of_choosing phase) ?_
    rw [shown, counted, coming]
    exact .choose begins
  | reading begins unseparated walked =>
    refine stands.advance stepped (step_of_reading phase) ?_
    rw [shown, counted, coming, List.tail_cons]
    rw [List.append_cons] at begins unseparated
    exact .follow begins (by simp) unseparated walked
  | answering begins cuts =>
    refine stands.write stepped (step_of_answering stands.parsing phase) ?_
    rw [shown, counted, coming]
    exact .opening_behind begins cuts
  | complaining begins cuts =>
    refine stands.write stepped (step_of_complaining phase) ?_
    rw [shown, counted, coming]
    exact .skipping_behind begins cuts
  | skipping begins =>
    refine stands.advance stepped (step_of_skipping phase) ?_
    rw [shown, counted, coming]
    exact .opening begins
  | closing begins =>
    refine stands.flush stepped (step_of_closing phase (by simp [stands.parsing])) ?_
    rw [shown, counted, coming, List.append_assoc]
    exact .closed begins
  | closed begins =>
    rw [step_of_closed phase] at stepped
    simp at stepped

/-- Every moment behind one that is at a place is at a place. -/
theorem Stands.steps (stands : conversation.Stands shell tokens)
    (steps : conversation.Steps next) : next.Stands shell tokens := by
  induction steps with
  | refl => exact stands
  | tail _ stepped inductionHypothesis => exact inductionHypothesis.step stepped

end Conversation

end ExprShell
