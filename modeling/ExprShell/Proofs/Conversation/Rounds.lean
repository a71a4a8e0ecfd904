import ExprShell.Proofs.Conversation.Pace
import ExprShell.Proofs.Descent.Progress
/-!
# Rounds of a conversation

From one opening to the next, a conversation goes past at least one token, whatever session it has
and whatever its outputs refuse. So it opens no more often than there are tokens, and once more for
the end. With the reading functions, which come to an end and go past tokens only, a conversation is
one pass over the tokens of its stream.
-/

namespace ExprShell

namespace Conversation

variable {operators : Operators} {first middle last : Conversation operators} {count : Nat}

/-- That a conversation opens again after a step or more. -/
structure Round (first last : Conversation operators) : Prop where
  opens : first.phase = .opening
  steps : Relation.TransGen (fun conversation next => conversation.step = some next) first last
  opensAgain : last.phase = .opening

/-- Some rounds of a conversation, one after the other. -/
inductive Rounds (first : Conversation operators) : Nat -> Conversation operators -> Prop
  | none : Rounds first 0 first
  | more {count : Nat} {middle last : Conversation operators} (rounds : Rounds first count middle)
      (round : Round middle last) : Rounds first (count + 1) last

theorem tokens_suffix_of_step (stepped : first.step = some last) :
    last.tokens <:+ first.tokens := by
  rcases stream_of_step stepped with same | ⟨_, looked⟩ | ⟨_, advanced⟩
  · have kept : last.tokens = first.tokens := congrArg TokenStream.tokens same
    exact kept ▸ List.suffix_rfl
  · have kept : last.tokens = first.tokens := by
      rw [tokens, looked, TokenStream.tokens_look, tokens]
    exact kept ▸ List.suffix_rfl
  · rw [tokens, advanced, TokenStream.tokens_look_advance]
    exact List.tail_suffix _

/-- Several steps bring a conversation nearer to its end, and leave a suffix of its tokens. -/
theorem nearer_of_steps
    (steps : Relation.TransGen (fun conversation next => conversation.step = some next)
      first last) : Nearer last first ∧ last.tokens <:+ first.tokens := by
  induction steps with
  | single stepped => exact ⟨step_decreases stepped, tokens_suffix_of_step stepped⟩
  | tail _ stepped inductionHypothesis =>
    obtain ⟨nearer, suffix⟩ := inductionHypothesis
    refine ⟨?_, (tokens_suffix_of_step stepped).trans suffix⟩
    have further := step_decreases stepped
    rcases further with fewer | ⟨same, lower⟩
    · left
      have bound := suffix.length_le
      omega
    · rcases nearer with fewer | ⟨sameBefore, lowerBefore⟩
      · exact .inl (same ▸ fewer)
      · exact .inr ⟨same.trans sameBefore, Nat.lt_trans lower lowerBefore⟩

/-- A round goes past a token or more. -/
theorem Round.exists_taken (round : Round first last) :
    ∃ taken, taken ≠ [] ∧ first.tokens = taken ++ last.tokens := by
  obtain ⟨nearer, taken, parts⟩ := nearer_of_steps round.steps
  refine ⟨taken, ?_, parts.symm⟩
  rintro rfl
  have same : last.tokens = first.tokens := parts
  rcases nearer with fewer | ⟨_, lower⟩
  · rw [same] at fewer
    omega
  · -- Of two openings in front of the same tokens none is nearer to the end.
    simp [rank, round.opens, round.opensAgain, same] at lower

/-- There are no more rounds than tokens. -/
theorem Rounds.count_le (rounds : Rounds first count last) :
    count + last.tokens.length ≤ first.tokens.length := by
  induction rounds with
  | none => omega
  | more rounds round inductionHypothesis =>
    obtain ⟨taken, nonempty, parts⟩ := round.exists_taken
    have positive := List.length_pos_iff.mpr nonempty
    rw [parts, List.length_append] at inductionHypothesis
    omega

/-- Running takes steps until there is none to take. -/
theorem steps_run (conversation : Conversation operators) :
    conversation.Steps conversation.run ∧ conversation.run.step = none := by
  fun_induction run conversation with
  | case1 conversation finished => exact ⟨.refl, finished⟩
  | case2 conversation next stepped inductionHypothesis =>
    exact ⟨.head stepped inductionHypothesis.1, inductionHypothesis.2⟩

end Conversation

/-- Whatever is read, reading comes to an end over any tokens, advances only past tokens, and takes
one before it succeeds. What goes on behind a left operand may succeed on none, in front of a token
that does not reach its threshold. -/
structure ReadsOnward (operators : Operators) : Prop where
  /-- The functions that are called for a whole construct give what their parsers give. -/
  outcomes : ∀ (construct : Construct) (stream : TokenStream),
    (construct.descent operators).outcome stream.tokens =
      some (((construct.parser operators).run stream).1,
        ((construct.parser operators).run stream).2.tokens)
  constructs : ∀ construct : Construct, (construct.descent operators).Progresses
  operand : (Descent.operand operators).Progresses
  arguments : (Descent.arguments operators).Progresses
  operatorTail : ∀ (threshold : Nat) (left : Expr) (tokens : List Token), ∃ result taken rest,
    (Descent.operatorTail operators threshold left).Passes tokens result taken rest ∧
      ∀ value, result = .ok value →
        (taken = [] ↔ operators.precedenceOf tokens.head? < threshold)

theorem readsOnward (operators : Operators) : ReadsOnward operators where
  outcomes construct stream := construct.outcome_descent operators stream
  constructs construct := construct.progresses_descent operators
  operand := Descent.progresses_operand operators
  arguments := Descent.progresses_arguments operators
  operatorTail := Descent.passes_operatorTail operators

namespace Shell

variable {shell : Shell} {stream : TokenStream}

theorem isPaced_greet (shell : Shell) (stream : TokenStream) :
    (shell.greet stream).IsPaced shell stream.tokens :=
  ⟨rfl, id, .opening .start⟩

/-- That a conversation about a stream ends, and that it goes through the tokens of the stream once,
whatever its session does with the items and whatever its outputs refuse. -/
structure TakesOnePass (shell : Shell) (stream : TokenStream) : Prop where
  ends : (shell.greet stream).Steps (shell.run stream) ∧ (shell.run stream).step = none
  /-- Wherever the conversation opens, it goes past a token or more before it opens again. -/
  rounds_progress : ∀ first last, (shell.greet stream).Steps first → first.Round last →
    ∃ taken, taken ≠ [] ∧ first.tokens = taken ++ last.tokens
  rounds_le : ∀ count moment, (shell.greet stream).Rounds count moment →
    count ≤ stream.tokens.length
  /-- The rounds that were begun, counting one that a refused write cuts short, are no more than the
  tokens until the conversation meets the end. In IR mode there is the open unit to be written
  then. -/
  looks_le : ∀ moment, (shell.greet stream).Steps moment →
    moment.looks ≤ stream.tokens.length ∨ moment.phase = .closing ∨ moment.phase = .closed ∨
      shell.session.config.mode = .ir ∧ moment.tokens = [] ∧
        (moment.phase = .dumped ∨ moment.phase = .refused .results)
  /-- Where the outputs take everything, the conversation is done with all segments of the tokens. It
  advances once past each token, and once more if the last segment is an item that was rejected at
  the end. -/
  whole : shell.console = .unlimited → (shell.run stream).phase = .closed ∧
    ∃ segments, Segmentation shell.operators stream.tokens segments ∧
      segments.length ≤ stream.tokens.length ∧
      (shell.run stream).looks = segments.length + 1 ∧
      (shell.run stream).advances =
        stream.tokens.length + if segments.getLast?.any Segment.isCutOff then 1 else 0

/-- Reading and conversing under any operator table come to an end in one pass. -/
theorem takes_one_pass (shell : Shell) (stream : TokenStream) :
    ReadsOnward shell.operators ∧ shell.TakesOnePass stream := by
  refine ⟨readsOnward shell.operators, ?_⟩
  have paced (moment : Conversation shell.operators) (steps : (shell.greet stream).Steps moment) :=
    (shell.isPaced_greet stream).steps steps
  have ends := (shell.greet stream).steps_run
  refine ⟨ends, fun first last _ round => round.exists_taken, fun count moment rounds => ?_,
    fun moment steps => (paced moment steps).pace.looks_le, fun unlimited => ?_⟩
  · have bound := rounds.count_le
    change count + _ ≤ stream.tokens.length at bound
    omega
  · obtain ⟨closed, segments, segmentation, few, looks, advances⟩ :=
      (paced _ ends.1).whole unlimited ends.2
    exact ⟨closed, segments, segmentation, few, looks, advances.trans segmentation.advancesOf_eq⟩

/-- A stray bracket in front of an expression, a separator, and a definition that the end of the
input cuts off: five tokens in four rounds, and six advances. -/
theorem takes_one_pass_cut_definition :
    let shell : Shell := .start .standard .parsing false .unlimited
    let stream : TokenStream := .ofSource [.data ") x;\ndef f".toUTF8.data.toList]
    stream.tokens.length = 5 ∧ (shell.run stream).advances = 6 ∧
      (Construct.descent .standard .item).Progresses ∧ (shell.run stream).phase = .closed ∧
      ∃ segments, Segmentation .standard stream.tokens segments ∧ segments.length = 4 ∧
        segments.getLast?.any Segment.isCutOff = true := by
  intro shell stream
  obtain ⟨onward, pass⟩ := takes_one_pass shell stream
  obtain ⟨closed, segments, segmentation, _, looks, advances⟩ := pass.whole rfl
  have tokens : stream.tokens.length = 5 := by decide +kernel
  have six : (shell.run stream).advances = 6 := by decide +kernel
  have five : (shell.run stream).looks = 5 := by decide +kernel
  refine ⟨tokens, six, onward.constructs .item, closed, segments, segmentation, by omega, ?_⟩
  rw [six, tokens] at advances
  by_cases cutOff : segments.getLast?.any Segment.isCutOff = true
  · exact cutOff
  · rw [if_neg cutOff] at advances
    omega

/-- An engine that takes one unit only: a second declaration is complained about, and the
conversation goes past both in one pass. -/
example :
    let backend : Backend := {
      start := .ok ()
      verifies := fun _ _ => true
      emit := fun _ function => function.prototype.name
      declare := fun _ prototype => "declare " ++ prototype.name ++ "\n"
      load := fun session => if session.handled = [] then .ok () else .error (.load "unit1")
      evaluate := fun _ => .error (.unresolved "__anon_expr")
      print := fun _ => ""
      address := fun _ _ => none }
    let shell : Shell := .start .standard (.fresh .standard) false .unlimited (some backend)
    let run := shell.run (.ofSource [.data "extern f() extern g(x)".toUTF8.data.toList])
    run.looks = 3 ∧ run.advances = 9 ∧ run.errors = 1 ∧
      Event.output .results run.events = Utf8.encode "Read extern:\ndeclare f\n" ∧
      Event.output .diagnostics run.events =
        Utf8.encode "Error: execution engine refused unit unit1\n" := by
  decide +kernel

end Shell

end ExprShell
