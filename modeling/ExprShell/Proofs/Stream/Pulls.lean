import ExprShell.Proofs.Parser.Runs
/-!
# Passing tokens one by one

A stream that has been looked at has its current token at hand, or is over. Looking again changes
nothing, and at the end advancing changes nothing either. So what a stream has read is told by how
many of its tokens have been passed. A run of a parser passes the tokens that it takes and has the
next one at hand, and no other.
-/

namespace ExprShell

namespace TokenStream

/-- That the next look at a stream reads nothing: a token is at hand or the stream is over. -/
def Settled (stream : TokenStream) : Prop :=
  stream.buffer ≠ [] ∨ stream.ending.isSome = true

theorem settled_fill (stream : TokenStream) : stream.fill.Settled := by
  fun_induction fill stream with
  | case1 stream starved inductionHypothesis => exact inductionHypothesis
  | case2 stream settled =>
    cases ended : stream.ending with
    | some ending => exact .inr (by simp [ended])
    | none => exact .inl fun starved => settled (by simp [starved, ended])

theorem Settled.fill_eq {stream : TokenStream} (settled : stream.Settled) :
    stream.fill = stream := by
  rw [fill, dif_neg]
  rintro ⟨starved, isOpen⟩
  rcases settled with held | finished
  · exact held (List.isEmpty_iff.mp starved)
  · cases ended : stream.ending <;> simp_all

theorem Settled.look_eq {stream : TokenStream} (settled : stream.Settled)
    (started : stream.started = true) : stream.look = stream := by
  rw [look, settled.fill_eq, ← started]

theorem settled_look (stream : TokenStream) : stream.look.Settled := stream.settled_fill

theorem settled_advance (stream : TokenStream) : stream.advance.Settled := by
  unfold advance
  split <;> exact settled_look _

@[simp] theorem look_look (stream : TokenStream) : stream.look.look = stream.look :=
  stream.settled_look.look_eq rfl

/-- The first advance of a stream nobody has looked at is a look. -/
theorem advance_of_fresh {stream : TokenStream} (fresh : stream.started = false) :
    stream.advance = stream.look := by
  simp [advance, fresh]

/-- A stream that is settled with no token to come is over, and advancing leaves it as it is. -/
theorem Settled.advance_eq {stream : TokenStream} (settled : stream.Settled)
    (started : stream.started = true) (exhausted : stream.tokens = []) :
    stream.advance = stream := by
  have empty : stream.buffer = [] := (List.append_eq_nil_iff.mp exhausted).1
  have kept : { stream with buffer := stream.buffer.tail } = stream := by
    rw [empty, List.tail_nil, ← empty]
  rw [advance, if_pos started, settled.fill_eq]
  simp only [kept]
  exact settled.look_eq started

/-- The stream with its first tokens passed and the next one at hand. -/
def past (stream : TokenStream) : Nat -> TokenStream
  | 0 => stream.look
  | count + 1 => (stream.past count).advance

theorem past_succ (stream : TokenStream) (count : Nat) :
    stream.past (count + 1) = (stream.past count).advance := rfl

@[simp] theorem started_past (stream : TokenStream) (count : Nat) :
    (stream.past count).started = true := by
  cases count with
  | zero => exact started_look stream
  | succ count => exact started_advance _

theorem settled_past (stream : TokenStream) (count : Nat) : (stream.past count).Settled := by
  cases count with
  | zero => exact settled_look stream
  | succ count => exact settled_advance _

@[simp] theorem look_past (stream : TokenStream) (count : Nat) :
    (stream.past count).look = stream.past count :=
  (stream.settled_past count).look_eq (stream.started_past count)

/-- Passing tokens drops them. -/
@[simp] theorem tokens_past (stream : TokenStream) (count : Nat) :
    (stream.past count).tokens = stream.tokens.drop count := by
  induction count with
  | zero => rw [past, tokens_look, List.drop_zero]
  | succ count inductionHypothesis =>
    rw [past, tokens_advance (started_past stream count), inductionHypothesis, List.tail_drop]

/-- The current token behind some tokens is the one with their number. -/
@[simp] theorem head?_past (stream : TokenStream) (count : Nat) :
    (stream.past count).head? = stream.tokens[count]? := by
  rw [← look_past, head?_look, tokens_past, List.head?_drop]

/-- Passing tokens and then more tokens passes them all. -/
theorem past_past (stream : TokenStream) (first second : Nat) :
    (stream.past first).past second = stream.past (first + second) := by
  induction second with
  | zero => exact stream.look_past first
  | succ second inductionHypothesis =>
    rw [past, inductionHypothesis, ← past_succ, Nat.add_assoc]

/-- Behind the last token an advance passes none. -/
theorem advance_past_of_end {stream : TokenStream} {count : Nat}
    (exhausted : stream.tokens.length ≤ count) :
    (stream.past count).advance = stream.past count := by
  refine (stream.settled_past count).advance_eq (stream.started_past count) ?_
  rw [tokens_past, List.drop_eq_nil_of_le exhausted]

theorem past_of_end {stream : TokenStream} {count : Nat}
    (exhausted : stream.tokens.length ≤ count) :
    stream.past count = stream.past stream.tokens.length := by
  induction exhausted with
  | refl => rfl
  | step exhausted inductionHypothesis =>
    rw [past, advance_past_of_end exhausted, inductionHypothesis]

/-! ## Calls -/

/-- What can be asked of a stream: to show its current token, or to advance to the next one. -/
inductive Call
  | current
  | advance
deriving DecidableEq, Repr

/-- The stream after a call. The call returns the current token of it. -/
def call (stream : TokenStream) : Call -> TokenStream
  | .current => stream.look
  | .advance => stream.advance

/-- The stream after some calls. -/
def calls (stream : TokenStream) (requests : List Call) : TokenStream := requests.foldl call stream

/-- Behind some tokens, each further advance passes one more. -/
theorem calls_past (stream : TokenStream) (count : Nat) (requests : List Call) :
    (stream.past count).calls requests = stream.past (count + requests.count .advance) := by
  induction requests generalizing count with
  | nil => rfl
  | cons request others inductionHypothesis =>
    cases request with
    | current =>
      rw [calls, List.foldl_cons, call, look_past, ← calls, inductionHypothesis]
      rfl
    | advance =>
      rw [calls, List.foldl_cons, call, ← past_succ, ← calls, inductionHypothesis,
        List.count_cons_self, Nat.add_assoc, Nat.add_comm 1]

/-- On a stream that nobody has looked at, the first call passes no token whatever it is. -/
theorem calls_of_fresh {stream : TokenStream} (fresh : stream.started = false) (first : Call)
    (others : List Call) :
    stream.calls (first :: others) = stream.past (others.count .advance) := by
  have looked : stream.call first = stream.past 0 := by
    cases first with
    | current => rfl
    | advance => exact advance_of_fresh fresh
  rw [calls, List.foldl_cons, looked, ← calls, calls_past, Nat.zero_add]

end TokenStream

namespace Parser

variable {Result : Type}

/-- A run passes the tokens that it takes, and the next one is at hand. -/
theorem exists_runFrom_past (parser : Parser Result) (state : parser.State)
    (stream : TokenStream) :
    ∃ taken, stream.tokens = taken ++ (parser.runFrom state stream).2.tokens ∧
      (parser.runFrom state stream).2 = stream.past taken.length := by
  fun_induction runFrom parser state stream with
  | case1 state stream next fed inductionHypothesis =>
    obtain ⟨taken, parts, passed⟩ := inductionHypothesis
    rw [TokenStream.head?_look] at fed
    obtain ⟨token, rest, coming⟩ :=
      List.exists_cons_of_ne_nil (parser.tokens_ne_nil_of_shift fed)
    rw [TokenStream.tokens_look_advance, coming, List.tail_cons] at parts
    refine ⟨token :: taken, by rw [coming, parts, List.cons_append], ?_⟩
    rw [passed, List.length_cons, Nat.add_comm]
    exact TokenStream.past_past stream 1 taken.length
  | case2 state stream => exact ⟨[], (TokenStream.tokens_look stream).symm, rfl⟩
  | case3 state stream => exact ⟨[], (TokenStream.tokens_look stream).symm, rfl⟩

/-- A run over a stream does what the run over its tokens does, and passes what that takes. -/
theorem run_of_parse (parser : Parser Result) {stream : TokenStream} {taken rest : List Token}
    {result : Except SyntaxError Result} (parts : stream.tokens = taken ++ rest)
    (parsed : parser.parse stream.tokens = (result, rest)) :
    parser.run stream = (result, stream.past taken.length) := by
  have left := parser.tokens_run stream
  have decided := parser.run_fst stream
  rw [parsed] at left decided
  obtain ⟨passed, split, same⟩ := parser.exists_runFrom_past parser.start stream
  rw [← run, left, parts] at split
  obtain rfl := List.append_cancel_right split
  exact Prod.ext decided same

/-- A run looks at its stream first, so a look in front of it changes nothing. -/
theorem run_look (parser : Parser Result) (stream : TokenStream) :
    parser.run stream.look = parser.run stream := by
  rcases parsed : parser.parse stream.tokens with ⟨result, rest⟩
  obtain ⟨taken, parts⟩ := parser.parseFrom_suffix parser.start stream.tokens
  rw [← parse, parsed] at parts
  have looked : stream.look.tokens = stream.tokens := TokenStream.tokens_look stream
  have passed : stream.look.past taken.length = stream.past taken.length :=
    (stream.past_past 0 taken.length).trans (by rw [Nat.zero_add])
  rw [parser.run_of_parse parts.symm parsed,
    parser.run_of_parse (looked.trans parts.symm) (looked ▸ parsed), passed]

end Parser

end ExprShell
