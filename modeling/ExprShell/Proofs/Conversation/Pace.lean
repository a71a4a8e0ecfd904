import ExprShell.Proofs.Conversation.Limits
import ExprShell.Proofs.Conversation.Places
import ExprShell.Proofs.Session.Handling
/-!
# The pace of a conversation

A conversation looks once each time it has opened, and it advances once past each token that it is
done with. Where the end of the input cuts an item off, it advances there once more. At every moment
the looks and the advances so far are told by the segments that it is done with, whatever session it
has and whatever its outputs refuse.
-/

namespace ExprShell

/-! ## Advances of a segment -/

namespace Segment

/-- How often a conversation advances for a segment. Behind an item that is rejected it advances
once more, also at the end of the input. -/
def advances : Segment -> Nat
  | separator => 1
  | accepted taken _ => taken.length
  | rejected taken _ _ => taken.length + 1

/-- There is an advance for each token of a segment, and one more if it was cut off. -/
theorem advances_eq (segment : Segment) :
    segment.advances = segment.tokens.length + if segment.isCutOff then 1 else 0 := by
  match segment with
  | separator => rfl
  | accepted taken item => rfl
  | rejected taken none error => simp [advances, tokens, isCutOff]
  | rejected taken (some offending) error => simp [advances, tokens, isCutOff]

/-- Nothing is left behind a segment that was cut off. -/
theorem Cuts.eq_nil_of_isCutOff {operators : Operators} {segment : Segment}
    {tokens rest : List Token} (cuts : segment.Cuts operators tokens rest)
    (cutOff : segment.isCutOff = true) : rest = [] := by
  cases cuts with
  | separator => simp [isCutOff] at cutOff
  | accepted => simp [isCutOff] at cutOff
  | rejected =>
    rename_i taken rest error nonempty unseparated failed
    cases rest with
    | nil => rfl
    | cons token others => simp [isCutOff] at cutOff

end Segment

/-- How often a conversation advances for some segments. -/
def advancesOf : List Segment -> Nat
  | [] => 0
  | segment :: rest => segment.advances + advancesOf rest

theorem advancesOf_concat (before : List Segment) (segment : Segment) :
    advancesOf (before ++ [segment]) = advancesOf before + segment.advances := by
  induction before with
  | nil => exact Nat.add_comm _ _
  | cons first rest inductionHypothesis =>
    rw [List.cons_append, advancesOf, inductionHypothesis, advancesOf, Nat.add_assoc]

/-- Only the last segment of some tokens may have been cut off. -/
theorem Segmentation.advancesOf_eq {operators : Operators} {tokens : List Token}
    {segments : List Segment} (segmentation : Segmentation operators tokens segments) :
    advancesOf segments =
      tokens.length + if segments.getLast?.any Segment.isCutOff then 1 else 0 := by
  induction segmentation with
  | done => rfl
  | @cut segment segments tokens rest cuts later inductionHypothesis =>
    rw [advancesOf, inductionHypothesis, segment.advances_eq, cuts.tokens_eq, List.length_append]
    cases later with
    | done => cases cutOff : segment.isCutOff <;> simp [cutOff]
    | cut next =>
      have whole : segment.isCutOff = false := by
        rw [← Bool.not_eq_true]
        intro cutOff
        exact next.ne_nil (cuts.eq_nil_of_isCutOff cutOff)
      simp only [whole, List.getLast?_cons_cons, Bool.false_eq_true, if_false]
      omega

/-- Every segment takes a token at least. -/
theorem Begins.length_le {operators : Operators} {tokens left : List Token}
    {before : List Segment} (begins : Begins operators tokens before left) :
    before.length + left.length ≤ tokens.length := by
  induction begins with
  | start => simp
  | cut earlier cuts inductionHypothesis =>
    have shorter := cuts.length_lt
    rw [List.length_append, List.length_singleton]
    omega

theorem Begins.length_before_le {operators : Operators} {tokens left : List Token}
    {before : List Segment} (begins : Begins operators tokens before left) :
    before.length ≤ tokens.length := Nat.le_of_add_right_le begins.length_le

/-! ## Looks and advances -/

namespace Event

/-- Whether an event is a look at the current token. -/
def isLook : Event -> Bool
  | looked _ => true
  | _ => false

/-- Whether an event is an advance past the current token. -/
def isAdvance : Event -> Bool
  | advanced _ => true
  | _ => false

end Event

/-- How often a conversation about some tokens has looked and advanced when it is in a phase, and
which tokens are still to come. A conversation that has refused a write is not told from where,
unless it was the open unit that did not fit. -/
inductive Pace (shell : Shell) (tokens : List Token) :
    Phase shell.operators -> Nat -> Nat -> List Token -> Prop
  | opening {before : List Segment} {left : List Token}
      (begins : Begins shell.operators tokens before left) :
      Pace shell tokens .opening before.length (advancesOf before) left
  | prompted {before : List Segment} {left : List Token}
      (begins : Begins shell.operators tokens before left) :
      Pace shell tokens .prompted before.length (advancesOf before) left
  | choosing {before : List Segment} {left : List Token}
      (begins : Begins shell.operators tokens before left) :
      Pace shell tokens .choosing before.length (advancesOf before) left
  /-- The item parser has taken some tokens and the current one, past which the conversation is
  about to advance. -/
  | reading {before : List Segment} {taken rest : List Token} {current : Token}
      {state : (Parser.item shell.operators).State}
      (begins : Begins shell.operators tokens before (taken ++ current :: rest))
      (unseparated : (taken ++ current :: rest).head? ≠ some .itemSeparator)
      (walked : (Parser.item shell.operators).walk (Parser.item shell.operators).start
        (taken ++ [current]) = some state) :
      Pace shell tokens (.reading state) (before.length + 1) (advancesOf before + taken.length)
        (current :: rest)
  | answering {before : List Segment} {left : List Token} {item : Item}
      (begins : Begins shell.operators tokens before left) :
      Pace shell tokens (.answering item) before.length (advancesOf before) left
  | unhandled {before : List Segment} {left : List Token} {error : SessionError}
      (begins : Begins shell.operators tokens before left) :
      Pace shell tokens (.complaining (.unhandled error)) before.length (advancesOf before) left
  /-- The last advance for the rejected item is still to come. -/
  | unreadable {before : List Segment} {advances : Nat} {left : List Token} {error : SyntaxError}
      (begins : Begins shell.operators tokens before left.tail)
      (missing : advances + 1 = advancesOf before) :
      Pace shell tokens (.complaining (.unreadable error)) before.length advances left
  | skipping {before : List Segment} {advances : Nat} {left : List Token}
      (begins : Begins shell.operators tokens before left.tail)
      (missing : advances + 1 = advancesOf before) :
      Pace shell tokens .skipping before.length advances left
  | closing {before : List Segment} (begins : Begins shell.operators tokens before []) :
      Pace shell tokens .closing (before.length + 1) (advancesOf before) []
  | dumped {before : List Segment} (begins : Begins shell.operators tokens before [])
      (keeps : shell.session.config.mode = .ir) :
      Pace shell tokens .dumped (before.length + 1) (advancesOf before) []
  | closed {before : List Segment} (begins : Begins shell.operators tokens before []) :
      Pace shell tokens .closed (before.length + 1) (advancesOf before) []
  | undumped {before : List Segment} (begins : Begins shell.operators tokens before [])
      (keeps : shell.session.config.mode = .ir) (limited : shell.console ≠ .unlimited) :
      Pace shell tokens (.refused .results) (before.length + 1) (advancesOf before) []
  | refused {channel : Channel} {looks advances : Nat} {left : List Token}
      (limited : shell.console ≠ .unlimited) (few : looks ≤ tokens.length) :
      Pace shell tokens (.refused channel) looks advances left

/-- A conversation has looked no more often than there are tokens, until it meets their end. -/
theorem Pace.looks_le {shell : Shell} {tokens left : List Token} {phase : Phase shell.operators}
    {looks advances : Nat} (pace : Pace shell tokens phase looks advances left) :
    looks ≤ tokens.length ∨ phase = .closing ∨ phase = .closed ∨
      shell.session.config.mode = .ir ∧ left = [] ∧
        (phase = .dumped ∨ phase = .refused .results) := by
  cases pace with
  | closing => exact .inr (.inl rfl)
  | closed => exact .inr (.inr (.inl rfl))
  | dumped begins keeps => exact .inr (.inr (.inr ⟨keeps, rfl, .inl rfl⟩))
  | undumped begins keeps => exact .inr (.inr (.inr ⟨keeps, rfl, .inr rfl⟩))
  | reading begins =>
    have bound := begins.length_le
    rw [List.length_append, List.length_cons] at bound
    exact .inl (by omega)
  | refused limited few => exact .inl few
  | opening begins | prompted begins | choosing begins | answering begins | unhandled begins
  | unreadable begins | skipping begins => exact .inl begins.length_before_le

section Answers

variable {shell : Shell} {tokens left : List Token} {before : List Segment}

/-- Behind the tokens that the item parser has taken, its answer to the next one tells the pace. -/
theorem Pace.follow {taken : List Token} {state : (Parser.item shell.operators).State}
    (begins : Begins shell.operators tokens before (taken ++ left)) (nonempty : taken ++ left ≠ [])
    (unseparated : (taken ++ left).head? ≠ some .itemSeparator)
    (walked : (Parser.item shell.operators).walk (Parser.item shell.operators).start taken =
      some state) :
    Pace shell tokens (Conversation.follow ((Parser.item shell.operators).feed state left.head?))
      (before.length + 1) (advancesOf before + taken.length) left := by
  rcases Segment.exists_cuts_of_walk nonempty unseparated walked with
    ⟨current, rest, next, rfl, fed, further⟩ | ⟨item, fed, cuts⟩ | ⟨error, fed, cuts⟩
  · rw [List.head?_cons, fed]
    exact .reading begins unseparated further
  · have counts : advancesOf (before ++ [.accepted taken item]) =
        advancesOf before + taken.length := advancesOf_concat _ _
    rw [fed, ← counts, ← List.length_singleton, ← List.length_append]
    exact .answering (begins.cut cuts)
  · have counts : advancesOf (before ++ [.rejected taken left.head? error]) =
        advancesOf before + (taken.length + 1) := advancesOf_concat _ _
    rw [fed, ← List.length_singleton, ← List.length_append]
    exact .unreadable (begins.cut cuts) counts.symm

/-- In front of a segment or of the end of the tokens, the first token left tells the pace. -/
theorem Pace.choose (begins : Begins shell.operators tokens before left) :
    Pace shell tokens (Conversation.choose left.head?) (before.length + 1) (advancesOf before)
      left := by
  cases left with
  | nil => exact .closing begins
  | cons token rest =>
    by_cases separated : token = .itemSeparator
    · subst separated
      have cuts : Segment.separator.Cuts shell.operators (.itemSeparator :: rest)
          (Token.itemSeparator :: rest).tail := .separator rest
      have counts : advancesOf (before ++ [.separator]) = advancesOf before + 1 :=
        advancesOf_concat _ _
      rw [List.head?_cons, Conversation.choose, if_pos rfl, ← List.length_singleton,
        ← List.length_append]
      exact .skipping (begins.cut cuts) counts.symm
    · rw [List.head?_cons, Conversation.choose, if_neg separated]
      have unseparated : ([] ++ token :: rest).head? ≠ some .itemSeparator := by
        simpa using separated
      exact .follow begins (List.cons_ne_nil token rest) unseparated rfl

end Answers

namespace Conversation

/-- How often a conversation has looked at the current token. It does so once each time it has
opened. -/
def looks {operators : Operators} (conversation : Conversation operators) : Nat :=
  conversation.events.countP Event.isLook

/-- How often a conversation has advanced past the current token. -/
def advances {operators : Operators} (conversation : Conversation operators) : Nat :=
  conversation.events.countP Event.isAdvance

/-- That a conversation about some tokens keeps pace with them. -/
structure IsPaced (shell : Shell) (tokens : List Token)
    (conversation : Conversation shell.operators) : Prop where
  config : conversation.session.config = shell.session.config
  console : shell.console = .unlimited → conversation.console = .unlimited
  pace : Pace shell tokens conversation.phase conversation.looks conversation.advances
    conversation.tokens

variable {shell : Shell} {tokens : List Token} {conversation next : Conversation shell.operators}

section Moves

variable {phase : Phase shell.operators} {respond : Option Token -> Phase shell.operators}
  (paced : conversation.IsPaced shell tokens)

include paced

/-- A write that is refused ends the conversation. -/
theorem IsPaced.write (channel : Channel) (text : String)
    (refused : shell.console ≠ .unlimited → Pace shell tokens (.refused channel)
      conversation.looks conversation.advances conversation.tokens)
    (pace : Pace shell tokens phase conversation.looks conversation.advances conversation.tokens) :
    (conversation.write channel text phase).IsPaced shell tokens := by
  have looks : (conversation.write channel text phase).looks = conversation.looks := by
    simp [Conversation.looks, events_write, Event.isLook]
  have advances : (conversation.write channel text phase).advances = conversation.advances := by
    simp [Conversation.advances, events_write, Event.isAdvance]
  refine ⟨paced.config,
    fun unlimited => (events_write_of_unlimited (paced.console unlimited) _ _ _).1, ?_⟩
  rw [looks, advances, tokens_write]
  by_cases unlimited : shell.console = .unlimited
  · rw [write_of_unlimited (paced.console unlimited)]
    exact pace
  · simp only [Conversation.write]
    split
    · exact refused unlimited
    · exact pace

theorem IsPaced.flush (channel : Channel)
    (pace : Pace shell tokens phase conversation.looks conversation.advances conversation.tokens) :
    (conversation.flush channel phase).IsPaced shell tokens := by
  refine ⟨paced.config, paced.console, ?_⟩
  change Pace shell tokens phase _ _ conversation.tokens
  simpa [Conversation.looks, Conversation.advances, events, Conversation.flush, Event.isLook,
    Event.isAdvance] using pace

/-- A session stays in its mode. -/
theorem IsPaced.learn (item : Item) : (conversation.learn item).IsPaced shell tokens :=
  ⟨(Session.config_after _ _ _).trans paced.config, paced.console, paced.pace⟩

theorem IsPaced.look
    (pace : Pace shell tokens (respond conversation.tokens.head?) (conversation.looks + 1)
      conversation.advances conversation.tokens) :
    (conversation.look respond).countError.IsPaced shell tokens := by
  refine ⟨(congrArg Session.config (session_countError _)).trans paced.config,
    fun unlimited => (console_countError _).trans (paced.console unlimited), ?_⟩
  rw [phase_countError, phase_look, tokens_countError, tokens_look]
  simpa [Conversation.looks, Conversation.advances, events, history_countError, Conversation.look,
    Event.isLook, Event.isAdvance] using pace

theorem IsPaced.advance
    (pace : Pace shell tokens (respond conversation.tokens.tail.head?) conversation.looks
      (conversation.advances + 1) conversation.tokens.tail) :
    (conversation.advance respond).countError.IsPaced shell tokens := by
  refine ⟨(congrArg Session.config (session_countError _)).trans paced.config,
    fun unlimited => (console_countError _).trans (paced.console unlimited), ?_⟩
  rw [phase_countError, phase_advance, tokens_countError, tokens_advance]
  simpa [Conversation.looks, Conversation.advances, events, history_countError,
    Conversation.advance, Event.isLook, Event.isAdvance] using pace

end Moves

/-- A step keeps pace with the tokens. -/
theorem IsPaced.step (paced : conversation.IsPaced shell tokens)
    (stepped : conversation.step = some next) : next.IsPaced shell tokens := by
  have pace := paced.pace
  generalize phase : conversation.phase = current at pace
  generalize looked : conversation.looks = looks at pace
  generalize advanced : conversation.advances = advances at pace
  generalize coming : conversation.tokens = left at pace
  cases pace with
  | opening begins =>
    cases asks : conversation.interactive with
    | true =>
      obtain rfl := Option.some.inj ((step_of_prompting phase asks).symm.trans stepped)
      refine paced.write _ _ (fun limited => .refused limited (looked ▸ begins.length_before_le)) ?_
      rw [looked, advanced, coming]
      exact .prompted begins
    | false =>
      obtain rfl := Option.some.inj ((step_of_opening phase asks).symm.trans stepped)
      refine ⟨paced.config, paced.console, ?_⟩
      change Pace shell tokens .choosing conversation.looks conversation.advances
        conversation.tokens
      rw [looked, advanced, coming]
      exact .choosing begins
  | prompted begins =>
    obtain rfl := Option.some.inj ((step_of_prompted phase).symm.trans stepped)
    refine paced.flush _ ?_
    rw [looked, advanced, coming]
    exact .choosing begins
  | choosing begins =>
    obtain rfl := Option.some.inj ((step_of_choosing phase).symm.trans stepped)
    refine paced.look ?_
    rw [looked, advanced, coming]
    exact .choose begins
  | reading begins unseparated walked =>
    obtain rfl := Option.some.inj ((step_of_reading phase).symm.trans stepped)
    refine paced.advance ?_
    rw [looked, advanced, coming, List.tail_cons, Nat.add_assoc]
    rw [List.append_cons] at begins unseparated
    have further := Pace.follow begins (by simp) unseparated walked
    rwa [List.length_append, List.length_singleton] at further
  | answering begins =>
    rcases step_of_answering_cases phase stepped with ⟨text, rfl⟩ | ⟨error, rfl⟩
    · refine IsPaced.write (paced.learn _) _ _
        (fun limited => .refused limited (looked ▸ begins.length_before_le)) ?_
      change Pace shell tokens .opening conversation.looks conversation.advances
        conversation.tokens
      rw [looked, advanced, coming]
      exact .opening begins
    · refine ⟨(paced.learn _).config, paced.console, ?_⟩
      change Pace shell tokens (.complaining (.unhandled error)) conversation.looks
        conversation.advances conversation.tokens
      rw [looked, advanced, coming]
      exact .unhandled begins
  | unhandled begins =>
    obtain rfl := Option.some.inj ((step_of_unhandled phase).symm.trans stepped)
    refine paced.write _ _ (fun limited => .refused limited (looked ▸ begins.length_before_le)) ?_
    rw [looked, advanced, coming]
    exact .opening begins
  | unreadable begins missing =>
    obtain rfl := Option.some.inj ((step_of_complaining phase).symm.trans stepped)
    refine paced.write _ _ (fun limited => .refused limited (looked ▸ begins.length_before_le)) ?_
    rw [looked, advanced, coming]
    exact .skipping begins missing
  | skipping begins missing =>
    obtain rfl := Option.some.inj ((step_of_skipping phase).symm.trans stepped)
    refine paced.advance ?_
    rw [looked, advanced, coming, missing]
    exact .opening begins
  | closing begins =>
    by_cases keeps : conversation.session.config.mode = .ir
    · obtain rfl := Option.some.inj ((step_of_dumping phase keeps).symm.trans stepped)
      rw [paced.config] at keeps
      refine paced.write _ _ (fun limited => ?_) ?_
      · rw [looked, advanced, coming]
        exact .undumped begins keeps limited
      · rw [looked, advanced, coming]
        exact .dumped begins keeps
    · obtain rfl := Option.some.inj ((step_of_closing phase keeps).symm.trans stepped)
      refine paced.flush _ ?_
      rw [looked, advanced, coming]
      exact .closed begins
  | dumped begins =>
    obtain rfl := Option.some.inj ((step_of_dumped phase).symm.trans stepped)
    refine paced.flush _ ?_
    rw [looked, advanced, coming]
    exact .closed begins
  | closed begins => simp [step_of_closed phase] at stepped
  | undumped | refused => simp [step_of_refused phase] at stepped

/-- Every moment of a conversation keeps pace with the tokens. -/
theorem IsPaced.steps (paced : conversation.IsPaced shell tokens)
    (steps : conversation.Steps next) : next.IsPaced shell tokens := by
  induction steps with
  | refl => exact paced
  | tail _ stepped inductionHypothesis => exact inductionHypothesis.step stepped

/-- A conversation that has no step left is at its end, or an output has refused a write. -/
theorem phase_of_step_eq_none (finished : conversation.step = none) :
    conversation.phase = .closed ∨ ∃ channel, conversation.phase = .refused channel := by
  cases phase : conversation.phase with
  | closed => exact .inl rfl
  | refused channel => exact .inr ⟨channel, rfl⟩
  | opening | answering item | closing =>
    simp only [Conversation.step, phase] at finished
    split at finished <;> simp at finished
  | prompted | choosing | reading state | complaining complaint | skipping | dumped =>
    simp [Conversation.step, phase] at finished

/-- With all steps taken, and outputs that take everything, the conversation is done with all
segments of the tokens. -/
theorem IsPaced.whole (paced : conversation.IsPaced shell tokens)
    (unlimited : shell.console = .unlimited) (finished : conversation.step = none) :
    conversation.phase = .closed ∧ ∃ segments, Segmentation shell.operators tokens segments ∧
      segments.length ≤ tokens.length ∧ conversation.looks = segments.length + 1 ∧
      conversation.advances = advancesOf segments := by
  have pace := paced.pace
  generalize conversation.looks = looks at pace
  generalize conversation.advances = advances at pace
  generalize conversation.tokens = left at pace
  rcases phase_of_step_eq_none finished with closed | ⟨channel, refused⟩
  · rw [closed] at pace
    cases pace with
    | @closed before begins =>
      have segmentation := begins.append .done
      rw [List.append_nil] at segmentation
      exact ⟨closed, before, segmentation, Nat.le_of_add_right_le begins.length_le, rfl, rfl⟩
  · rw [refused] at pace
    cases pace with
    | undumped _ _ limited => exact absurd unlimited limited
    | refused limited => exact absurd unlimited limited

end Conversation

end ExprShell
