import ExprShell.Proofs.Conversation.Rounds
import ExprShell.Proofs.Program.WellFormed
/-!
# The session of a conversation

No text can name the nameless function. So a session that is settled stays so all through a
conversation, whatever is typed, whatever the backend makes of it and whatever the outputs refuse:
no code waits between two items in JIT mode, the nameless function is gone, and two of the errors of
code generation are never reported.
-/

namespace ExprShell

/-- Whatever item is read from tokens that can stand in a text leaves the nameless function
alone. -/
theorem Construct.MadeOf.isNamed {operators : Operators} {item : Item}
    (made : Construct.item.MadeOf operators (fun token => token.isLexical = true) item) :
    item.isNamed = true := by
  have bare := made.wellFormed.bare item.prototype rfl
  cases item with
  | expression body => rfl
  | definition function => exact bne_iff_ne.mpr (bare.2 rfl)
  | declaration prototype => exact bne_iff_ne.mpr (bare.2 rfl)

namespace Conversation

variable {operators : Operators} {conversation next : Conversation operators}

/-- A step hands the item at hand to the session, or leaves the session as it is. -/
theorem session_of_step (stepped : conversation.step = some next) :
    next.session = conversation.session ∨ ∃ item, conversation.phase = .answering item ∧
      next.session = conversation.session.after item conversation.backend := by
  cases phase : conversation.phase with
  | answering item =>
    right
    rcases step_of_answering_cases phase stepped with ⟨text, rfl⟩ | ⟨error, rfl⟩
    · exact ⟨item, rfl, rfl⟩
    · exact ⟨item, rfl, session_countError _⟩
  | opening | closing =>
    left
    simp only [step, phase] at stepped
    split at stepped <;> obtain rfl := Option.some.inj stepped <;> rfl
  | prompted | choosing | reading | complaining | skipping | dumped =>
    left
    simp only [step, phase] at stepped
    obtain rfl := Option.some.inj stepped
    first | rfl | exact session_countError _
  | closed | refused => simp [step, phase] at stepped

/-- What is true in a phase of a conversation with a settled session: the item at hand leaves the
nameless function alone, and some errors are not complained about. -/
def Orderly (holds : (Parser.item operators).State -> Prop) (mode : Mode) :
    Phase operators -> Prop
  | .reading state => holds state
  | .answering item => item.isNamed = true
  | .complaining (.unhandled error) =>
    ∀ name, (mode = .jit → error ≠ .generation (.redefinition name)) ∧
      error ≠ .generation (.voidCall name)
  | _ => True

section Orderly

variable {holds : (Parser.item operators).State -> Prop} {mode : Mode}

theorem Orderly.follow {verdict : Verdict (Parser.item operators).State Item}
    (keeps : verdict.Keeps holds fun item => item.isNamed = true) :
    Orderly holds mode (follow verdict) := by
  cases verdict with
  | shift state => exact keeps
  | accept item => exact keeps
  | reject error => trivial

theorem Orderly.write {phase : Phase operators} (orderly : Orderly holds mode phase)
    (conversation : Conversation operators) (channel : Channel) (text : String) :
    Orderly holds mode (conversation.write channel text phase).phase := by
  rw [Conversation.write]
  dsimp only
  split
  · trivial
  · exact orderly

end Orderly

/-- That a conversation about a text has a settled session. -/
structure IsOrderly (holds : (Parser.item operators).State -> Prop)
    (conversation : Conversation operators) : Prop where
  settled : conversation.session.IsSettled
  lexical : ∀ token ∈ conversation.tokens, token.isLexical = true
  orderly : Orderly holds conversation.session.config.mode conversation.phase

section Steps

variable {holds : (Parser.item operators).State -> Prop}
  (start : holds (Parser.item operators).start)
  (keeps : ∀ state token, holds state → (∀ found ∈ token, Token.isLexical found = true) →
    ((Parser.item operators).feed state token).Keeps holds fun item => item.isNamed = true)
include start keeps

theorem Orderly.choose {mode : Mode} {token : Option Token}
    (lexical : ∀ found ∈ token, Token.isLexical found = true) :
    Orderly holds mode (choose token : Phase operators) := by
  cases token with
  | none => trivial
  | some token =>
    rw [Conversation.choose]
    split
    · trivial
    · exact .follow (keeps _ _ start lexical)

/-- What is true in the phase that a step leads to. -/
theorem IsOrderly.orderly_of_step (orderly : conversation.IsOrderly holds)
    (stepped : conversation.step = some next) :
    Orderly holds conversation.session.config.mode next.phase := by
  have current := orderly.orderly
  have lexicalFirst : ∀ found ∈ conversation.tokens.head?, found.isLexical = true :=
    fun found member => orderly.lexical found (List.mem_of_mem_head? member)
  have lexicalSecond : ∀ found ∈ conversation.tokens.tail.head?, found.isLexical = true :=
    fun found member =>
      orderly.lexical found (List.mem_of_mem_tail (List.mem_of_mem_head? member))
  cases phase : conversation.phase with
  | opening =>
    cases asks : conversation.interactive with
    | true =>
      obtain rfl := Option.some.inj ((step_of_prompting phase asks).symm.trans stepped)
      refine Orderly.write ?_ _ _ _
      trivial
    | false =>
      obtain rfl := Option.some.inj ((step_of_opening phase asks).symm.trans stepped)
      trivial
  | prompted =>
    obtain rfl := Option.some.inj ((step_of_prompted phase).symm.trans stepped)
    trivial
  | choosing =>
    obtain rfl := Option.some.inj ((step_of_choosing phase).symm.trans stepped)
    rw [phase_countError, phase_look]
    exact .choose start keeps lexicalFirst
  | reading state =>
    obtain rfl := Option.some.inj ((step_of_reading phase).symm.trans stepped)
    rw [phase] at current
    rw [phase_countError, phase_advance]
    exact .follow (keeps state _ current lexicalSecond)
  | answering item =>
    cases replied : conversation.session.reply item conversation.backend with
    | ok text =>
      obtain rfl := Option.some.inj ((step_of_replying phase replied).symm.trans stepped)
      refine Orderly.write ?_ _ _ _
      trivial
    | error error =>
      obtain rfl := Option.some.inj ((step_of_failing phase replied).symm.trans stepped)
      rw [phase_countError]
      intro name
      have failed := Session.handle_of_reply_error replied
      obtain ⟨noRedefinition, noVoidCall⟩ :=
        orderly.settled.handle_ne_error item conversation.backend name
      rw [failed] at noRedefinition noVoidCall
      refine ⟨fun closes same => noRedefinition closes (congrArg _ same), fun same => ?_⟩
      exact noVoidCall (congrArg _ same)
  | complaining complaint =>
    cases complaint with
    | unreadable error =>
      obtain rfl := Option.some.inj ((step_of_complaining phase).symm.trans stepped)
      refine Orderly.write ?_ _ _ _
      trivial
    | unhandled error =>
      obtain rfl := Option.some.inj ((step_of_unhandled phase).symm.trans stepped)
      refine Orderly.write ?_ _ _ _
      trivial
  | skipping =>
    obtain rfl := Option.some.inj ((step_of_skipping phase).symm.trans stepped)
    rw [phase_countError, phase_advance]
    trivial
  | closing =>
    by_cases keepsUnit : conversation.session.config.mode = .ir
    · obtain rfl := Option.some.inj ((step_of_dumping phase keepsUnit).symm.trans stepped)
      refine Orderly.write ?_ _ _ _
      trivial
    · obtain rfl := Option.some.inj ((step_of_closing phase keepsUnit).symm.trans stepped)
      trivial
  | dumped =>
    obtain rfl := Option.some.inj ((step_of_dumped phase).symm.trans stepped)
    trivial
  | closed => simp [step_of_closed phase] at stepped
  | refused => simp [step_of_refused phase] at stepped

/-- A step keeps the session settled, if the item parser makes items that leave the nameless
function alone. -/
theorem IsOrderly.step (orderly : conversation.IsOrderly holds)
    (stepped : conversation.step = some next) : next.IsOrderly holds := by
  refine ⟨?_, fun token member =>
    orderly.lexical token ((tokens_suffix_of_step stepped).mem member), ?_⟩
  · rcases session_of_step stepped with same | ⟨item, phase, same⟩
    · exact same ▸ orderly.settled
    · have named := orderly.orderly
      rw [phase] at named
      exact same ▸ orderly.settled.after named _
  · have sameMode : next.session.config.mode = conversation.session.config.mode := by
      rcases session_of_step stepped with same | ⟨item, _, same⟩
      · rw [same]
      · rw [same, Session.config_after]
    rw [sameMode]
    exact orderly.orderly_of_step start keeps stepped

end Steps

end Conversation

namespace Shell

/-- Whatever is typed, the session of a shell that starts settled is settled at every moment of a
conversation. In JIT mode no function is refused because there was one of its name before, and in no
mode is a call complained about because it has no value. -/
theorem isSettled_of_steps {shell : Shell} (settled : shell.session.IsSettled) (source : Source)
    {moment : Conversation shell.operators}
    (steps : (shell.greet (.ofSource source)).Steps moment) :
    moment.session.IsSettled ∧
      ∀ error, moment.phase = .complaining (.unhandled error) → ∀ name,
        (moment.session.config.mode = .jit → error ≠ .generation (.redefinition name)) ∧
          error ≠ .generation (.voidCall name) := by
  obtain ⟨holds, start, keeps⟩ := (Construct.item.ensures shell.operators
    fun token => token.isLexical = true).imp fun _ made => made.isNamed
  have begins : (shell.greet (.ofSource source)).IsOrderly holds := by
    refine ⟨settled, fun token member => ?_, trivial⟩
    have same : (shell.greet (.ofSource source)).tokens = source.tokens :=
      TokenStream.tokens_ofSource source
    exact Source.isLexical_of_mem_tokens (same ▸ member)
  have orderly : moment.IsOrderly holds := by
    induction steps with
    | refl => exact begins
    | tail _ stepped inductionHypothesis =>
      exact inductionHypothesis.step start keeps stepped
  refine ⟨orderly.settled, fun error phase => ?_⟩
  have complained := orderly.orderly
  rwa [phase] at complained

/-- So one conversation leaves a settled session to the next. -/
theorem isSettled_after {shell : Shell} (settled : shell.session.IsSettled) (source : Source) :
    (shell.after (shell.run (.ofSource source))).session.IsSettled :=
  (isSettled_of_steps settled source (shell.greet (.ofSource source)).steps_run.1).1

end Shell

end ExprShell
