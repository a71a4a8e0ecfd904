import ExprShell.Console
import ExprShell.Parser.Items
import ExprShell.Session.Basic
/-!
# Conversations

A conversation reads items from a token stream and answers them on a console. It goes in small
steps, each of which does at most one thing that can be seen from outside: it writes, it flushes, it
looks at the current token, or it advances past it. What was done is kept as a history of events.

In front of each item an interactive conversation prompts. An item that is read is handed to the
session and its outcome is reported. After a syntax error the token at which it was found is
skipped. At the end of the input a session that keeps its unit open shows it. A write that is
refused ends the conversation on the spot. `Conversation.run` takes steps
until none is left; that it ends is shown by `Conversation.step_decreases`.
-/

namespace ExprShell

/-- What an onlooker sees of a conversation. Looks and advances carry the number of bytes that were
read from the source for them. -/
inductive Event
  | wrote (channel : Channel) (bytes : List UInt8)
  | flushed (channel : Channel)
  | looked (bytesRead : Nat)
  | advanced (bytesRead : Nat)
deriving DecidableEq, Repr

/-- What went wrong with an item. -/
inductive Complaint
  | unreadable (error : SyntaxError)
  | unhandled (error : SessionError)
deriving DecidableEq, Repr

namespace Complaint

/-- What is reported about a complaint. -/
def report : Complaint -> String
  | unreadable error => "Error: " ++ error.message ++ "\n"
  | unhandled error => "Error: " ++ error.message ++ "\n"

end Complaint

/-- What a conversation does next. -/
inductive Phase (operators : Operators)
  /-- Prompt, if interactive. -/
  | opening
  /-- Flush the prompt. -/
  | prompted
  /-- Look at the first token of an item. -/
  | choosing
  /-- Advance within an item. -/
  | reading (state : (Parser.item operators).State)
  /-- Hand an item to the session and report the outcome. -/
  | answering (item : Item)
  /-- Report a complaint. -/
  | complaining (complaint : Complaint)
  /-- Advance past a token between items. -/
  | skipping
  /-- Show the open unit in IR mode, or flush the results, at the end of the input. -/
  | closing
  /-- Flush the results behind the open unit. -/
  | dumped
  /-- Nothing: the end of the input was reached. -/
  | closed
  /-- Nothing: an output refused a write. -/
  | refused (channel : Channel)

/-- The text that invites the user to type. -/
def promptText : String := "ready> "

/-- A conversation under an operator table. The history is kept latest first. -/
structure Conversation (operators : Operators) where
  session : Session
  backend : Option Backend
  interactive : Bool
  console : Console
  errors : Nat
  stream : TokenStream
  phase : Phase operators
  history : List Event

namespace Conversation

variable {operators : Operators}

/-- Writes a text and goes on, or stops if it is refused. -/
def write (conversation : Conversation operators) (channel : Channel) (text : String)
    (next : Phase operators) : Conversation operators :=
  let bytes := Utf8.encode text
  { conversation with
    console := conversation.console.after channel bytes
    history := .wrote channel (conversation.console.accepted channel bytes) ::
      conversation.history
    phase := if conversation.console.refuses channel bytes then .refused channel else next }

/-- Flushes an output and goes on. -/
def flush (conversation : Conversation operators) (channel : Channel) (next : Phase operators) :
    Conversation operators :=
  { conversation with history := .flushed channel :: conversation.history, phase := next }

/-- Looks at the current token and lets it decide how to go on. -/
def look (conversation : Conversation operators)
    (next : Option Token -> Phase operators) : Conversation operators :=
  let stream := conversation.stream.look
  { conversation with
    stream := stream
    history := .looked (stream.taken - conversation.stream.taken) :: conversation.history
    phase := next stream.head? }

/-- Advances past the current token and lets the next one decide how to go on. -/
def advance (conversation : Conversation operators)
    (next : Option Token -> Phase operators) : Conversation operators :=
  let stream := conversation.stream.look.advance
  { conversation with
    stream := stream
    history := .advanced (stream.taken - conversation.stream.taken) :: conversation.history
    phase := next stream.head? }

/-- What follows an answer of the item parser. -/
def follow : Verdict (Parser.item operators).State Item -> Phase operators
  | .shift state => .reading state
  | .accept item => .answering item
  | .reject error => .complaining (.unreadable error)

/-- How a token in front of an item decides. -/
def choose : Option Token -> Phase operators
  | none => .closing
  | some token =>
    if token = .itemSeparator then .skipping
    else follow ((Parser.item operators).feed (Parser.item operators).start (some token))

/-- Counts an error when it is about to be reported. -/
def countError (conversation : Conversation operators) : Conversation operators :=
  match conversation.phase with
  | .complaining _ => { conversation with errors := conversation.errors + 1 }
  | _ => conversation

/-- The conversation with the session that has handled an item. -/
def learn (conversation : Conversation operators) (item : Item) : Conversation operators :=
  { conversation with session := conversation.session.after item conversation.backend }

/-- Goes one step on; none when the conversation is over. -/
def step (conversation : Conversation operators) : Option (Conversation operators) :=
  match conversation.phase with
  | .opening =>
    if conversation.interactive then some (conversation.write .diagnostics promptText .prompted)
    else some { conversation with phase := .choosing }
  | .prompted => some (conversation.flush .diagnostics .choosing)
  | .choosing => some (conversation.look choose).countError
  | .reading state =>
    some (conversation.advance fun token =>
      follow ((Parser.item operators).feed state token)).countError
  | .answering item =>
    match conversation.session.reply item conversation.backend with
    | .ok text => some ((conversation.learn item).write .results text .opening)
    | .error error =>
      some { conversation.learn item with phase := .complaining (.unhandled error) }.countError
  | .complaining complaint =>
    some (conversation.write .diagnostics complaint.report (match complaint with
      | .unreadable _ => .skipping
      | .unhandled _ => .opening))
  | .skipping => some (conversation.advance fun _ => .opening)
  | .closing =>
    if conversation.session.config.mode = .ir then
      some (conversation.write .results (conversation.session.code conversation.backend) .dumped)
    else some (conversation.flush .results .closed)
  | .dumped => some (conversation.flush .results .closed)
  | .closed => none
  | .refused _ => none

/-- The tokens still to come. -/
def tokens (conversation : Conversation operators) : List Token := conversation.stream.tokens

/-- Orders the phases in which the same tokens are still to come. Once no token is left, a
conversation that opens goes straight to its end. -/
def rankOf (atEnd : Bool) : Phase operators -> Nat
  | .closed => 0
  | .refused _ => 0
  | .dumped => 1
  | .closing => 2
  | .choosing => if atEnd then 3 else 5
  | .prompted => if atEnd then 4 else 6
  | .opening => if atEnd then 5 else 7
  | .skipping => if atEnd then 6 else 3
  | .reading _ => if atEnd then 9 else 4
  | .complaining (.unreadable _) => if atEnd then 7 else 4
  | .complaining (.unhandled _) => if atEnd then 7 else 8
  | .answering _ => if atEnd then 8 else 9

/-- The rank of the phase a conversation is in. -/
def rank (conversation : Conversation operators) : Nat :=
  rankOf conversation.tokens.isEmpty conversation.phase

/-- Whether one conversation is nearer to its end than another: it has fewer tokens to come, or the
same tokens and a lower rank. -/
def Nearer (next conversation : Conversation operators) : Prop :=
  next.tokens.length < conversation.tokens.length ∨
    next.tokens = conversation.tokens ∧ next.rank < conversation.rank

@[simp] theorem tokens_countError (conversation : Conversation operators) :
    conversation.countError.tokens = conversation.tokens := by
  unfold countError
  split <;> rfl

@[simp] theorem rank_countError (conversation : Conversation operators) :
    conversation.countError.rank = conversation.rank := by
  unfold countError
  split <;> rfl

@[simp] theorem tokens_learn (conversation : Conversation operators) (item : Item) :
    (conversation.learn item).tokens = conversation.tokens := rfl

@[simp] theorem tokens_write (conversation : Conversation operators) (channel : Channel)
    (text : String) (next : Phase operators) :
    (conversation.write channel text next).tokens = conversation.tokens := rfl

theorem rank_write_le (conversation : Conversation operators) (channel : Channel)
    (text : String) (next : Phase operators) :
    (conversation.write channel text next).rank ≤ rankOf conversation.tokens.isEmpty next := by
  simp only [rank, write]
  split
  · exact Nat.zero_le _
  · exact Nat.le_refl _

@[simp] theorem tokens_look (conversation : Conversation operators)
    (next : Option Token -> Phase operators) :
    (conversation.look next).tokens = conversation.tokens := by
  simp [tokens, look]

@[simp] theorem rank_look (conversation : Conversation operators)
    (next : Option Token -> Phase operators) :
    (conversation.look next).rank =
      rankOf conversation.tokens.isEmpty (next conversation.tokens.head?) := by
  simp [rank, tokens, look]

@[simp] theorem tokens_advance (conversation : Conversation operators)
    (next : Option Token -> Phase operators) :
    (conversation.advance next).tokens = conversation.tokens.tail :=
  TokenStream.tokens_look_advance conversation.stream

@[simp] theorem rank_advance (conversation : Conversation operators)
    (next : Option Token -> Phase operators) :
    (conversation.advance next).rank =
      rankOf conversation.tokens.tail.isEmpty (next conversation.tokens.tail.head?) := by
  rw [rank, tokens_advance]
  simp only [advance, TokenStream.head?_advance, TokenStream.tokens_look_advance]
  rfl

/-- A step that advances is nearer to the end if a token is left, or if the phase it leads to
ranks lower at the end of the input. -/
theorem nearer_advance (conversation : Conversation operators)
    (next : Option Token -> Phase operators)
    (atEnd : conversation.tokens = [] ->
      (conversation.advance next).rank < conversation.rank) :
    Nearer (conversation.advance next) conversation := by
  by_cases exhausted : conversation.tokens = []
  · exact .inr ⟨by simp [exhausted], atEnd exhausted⟩
  · left
    have positive := List.length_pos_iff.mpr exhausted
    simp only [tokens_advance, List.length_tail]
    omega

/-- Whatever an item parser answers, a conversation that follows it is not far from its end once
no token is left. -/
theorem rank_follow_end_lt (verdict : Verdict (Parser.item operators).State Item)
    (stops : forall state, verdict ≠ .shift state) : rankOf true (follow verdict) < 9 := by
  cases verdict with
  | shift state => exact absurd rfl (stops state)
  | accept item => simp [follow, rankOf]
  | reject error => simp [follow, rankOf]

theorem rank_choose_lt (tokens : List Token) :
    rankOf tokens.isEmpty (choose tokens.head? : Phase operators) <
      rankOf tokens.isEmpty (.choosing : Phase operators) := by
  cases tokens with
  | nil => simp [choose, rankOf]
  | cons token rest =>
    simp only [List.head?_cons, choose, List.isEmpty_cons]
    split
    · simp [rankOf]
    · cases fed : (Parser.item operators).feed (Parser.item operators).start (some token) with
      | shift state => simp [follow, rankOf]
      | accept item => exact absurd fed (Parser.productive_item operators _ _)
      | reject error => simp [follow, rankOf]

/-- Every step brings a conversation nearer to its end. -/
theorem step_decreases {conversation next : Conversation operators}
    (stepped : conversation.step = some next) : Nearer next conversation := by
  unfold step at stepped
  split at stepped
  case h_1 phase =>
    split at stepped
    · obtain rfl := Option.some.inj stepped
      refine .inr ⟨rfl, Nat.lt_of_le_of_lt (rank_write_le _ _ _ _) ?_⟩
      cases empty : conversation.tokens.isEmpty <;> simp [rank, phase, rankOf, empty]
    · obtain rfl := Option.some.inj stepped
      refine .inr ⟨rfl, ?_⟩
      simp only [rank, tokens, phase]
      cases conversation.stream.tokens.isEmpty <;> simp [rankOf]
  case h_2 phase =>
    obtain rfl := Option.some.inj stepped
    refine .inr ⟨rfl, ?_⟩
    simp only [rank, tokens, flush, phase]
    cases conversation.stream.tokens.isEmpty <;> simp [rankOf]
  case h_3 phase =>
    obtain rfl := Option.some.inj stepped
    refine .inr ⟨by simp, ?_⟩
    rw [rank_countError, rank_look, rank, phase]
    exact rank_choose_lt conversation.tokens
  case h_4 state phase =>
    obtain rfl := Option.some.inj stepped
    have nearer := nearer_advance conversation
      (fun token => follow ((Parser.item operators).feed state token)) (by
        intro exhausted
        rw [rank_advance, rank, phase, exhausted]
        exact rank_follow_end_lt _ ((Parser.item operators).feed_end state))
    simpa only [Nearer, tokens_countError, rank_countError] using nearer
  case h_5 item phase =>
    split at stepped
    · obtain rfl := Option.some.inj stepped
      refine .inr ⟨rfl, Nat.lt_of_le_of_lt (rank_write_le _ _ _ _) ?_⟩
      rw [tokens_learn, rank, phase]
      cases conversation.tokens.isEmpty <;> simp [rankOf]
    · obtain rfl := Option.some.inj stepped
      refine .inr ⟨tokens_countError _, ?_⟩
      rw [rank_countError, rank, rank, phase]
      change rankOf conversation.tokens.isEmpty _ < _
      cases conversation.tokens.isEmpty <;> simp [rankOf]
  case h_6 complaint phase =>
    obtain rfl := Option.some.inj stepped
    refine .inr ⟨rfl, Nat.lt_of_le_of_lt (rank_write_le _ _ _ _) ?_⟩
    cases complaint <;> cases empty : conversation.tokens.isEmpty <;>
      simp [rank, phase, rankOf, empty]
  case h_7 phase =>
    obtain rfl := Option.some.inj stepped
    refine nearer_advance conversation _ fun exhausted => ?_
    rw [rank_advance, rank, phase, exhausted]
    simp [rankOf]
  case h_8 phase =>
    split at stepped
    · obtain rfl := Option.some.inj stepped
      refine .inr ⟨rfl, Nat.lt_of_le_of_lt (rank_write_le _ _ _ _) ?_⟩
      simp [rank, phase, rankOf]
    · obtain rfl := Option.some.inj stepped
      refine .inr ⟨rfl, ?_⟩
      simp [rank, flush, phase, rankOf]
  case h_9 phase =>
    obtain rfl := Option.some.inj stepped
    refine .inr ⟨rfl, ?_⟩
    simp [rank, flush, phase, rankOf]
  case h_10 => simp at stepped
  case h_11 => simp at stepped

theorem rankOf_lt (atEnd : Bool) (phase : Phase operators) : rankOf atEnd phase < 10 := by
  cases phase with
  | complaining complaint => cases complaint <;> cases atEnd <;> simp [rankOf]
  | _ => cases atEnd <;> simp [rankOf]

/-- How far a conversation is from its end: a token weighs more than the phases behind it. -/
def distance (conversation : Conversation operators) : Nat :=
  10 * conversation.tokens.length + conversation.rank

theorem Nearer.distance_lt {conversation next : Conversation operators}
    (nearer : Nearer next conversation) : next.distance < conversation.distance := by
  have bound : next.rank < 10 := rankOf_lt _ _
  simp only [distance]
  rcases nearer with fewer | ⟨same, lower⟩
  · omega
  · rw [same]
    omega

/-- Takes steps until none is left. -/
def run (conversation : Conversation operators) : Conversation operators :=
  match _stepped : conversation.step with
  | none => conversation
  | some next => next.run
termination_by conversation.distance
decreasing_by exact (step_decreases _stepped).distance_lt

/-- How many tokens have to be at hand before the next step so that it reads nothing. -/
def lookahead (conversation : Conversation operators) : Nat :=
  match conversation.phase with
  | .choosing => 1
  | .reading _ => 2
  | .skipping => 2
  | _ => 0

/-- The events of a conversation in the order in which they happened. -/
def events (conversation : Conversation operators) : List Event := conversation.history.reverse

/-- The output that refused a write, if one did. -/
def refusal (conversation : Conversation operators) : Option Channel :=
  match conversation.phase with
  | .refused channel => some channel
  | _ => none

end Conversation

/-- The bytes that events wrote to an output. -/
def Event.output (channel : Channel) (events : List Event) : List UInt8 :=
  events.flatMap fun
    | .wrote written bytes => if written = channel then bytes else []
    | _ => []

/-- How often events flushed an output. -/
def Event.flushes (channel : Channel) (events : List Event) : Nat :=
  events.count (.flushed channel)

/-- What a shell keeps from one conversation to the next. -/
structure Shell where
  operators : Operators
  session : Session
  backend : Option Backend
  interactive : Bool
  console : Console
  errors : Nat

namespace Shell

/-- A shell that has not talked yet. -/
def start (operators : Operators) (session : Session) (interactive : Bool) (console : Console)
    (backend : Option Backend := none) : Shell :=
  ⟨operators, session, backend, interactive, console, 0⟩

/-- The beginning of a conversation about a stream. -/
def greet (shell : Shell) (stream : TokenStream) : Conversation shell.operators where
  session := shell.session
  backend := shell.backend
  interactive := shell.interactive
  console := shell.console
  errors := shell.errors
  stream := stream
  phase := .opening
  history := []

/-- The shell after a conversation. -/
def after (shell : Shell) (conversation : Conversation shell.operators) : Shell :=
  { shell with
    session := conversation.session
    console := conversation.console
    errors := conversation.errors }

/-- A whole conversation about a stream. -/
def run (shell : Shell) (stream : TokenStream) : Conversation shell.operators :=
  (shell.greet stream).run

end Shell

end ExprShell
