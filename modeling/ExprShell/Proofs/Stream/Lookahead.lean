import ExprShell.Proofs.Descent.Progress
import ExprShell.Proofs.Stream.Laziness
/-!
# Reading looks no further than the current token

Whoever reads from a stream asks for its current token, advances, or has constructs read. Whatever
is asked, the stream has pulled the tokens that were passed and the current one. Where a construct
is read, that is the first token behind it, or the one that does not fit. So no answer depends on
what the source holds behind the line of the current token: on sources that agree up to there, every
request is answered alike and leaves the same to be seen.
-/

namespace ExprShell

/-- What can be asked of a stream. -/
inductive Request
  | token (call : TokenStream.Call)
  | read (construct : Construct)
deriving DecidableEq, Repr

/-- What is answered: the current token, or a construct or the error that was found. -/
inductive Answer
  | token (current : Option Token)
  | read (construct : Construct) (result : Except SyntaxError construct.Result)

/-- What can be seen after a request: its answer, the current token, the number of bytes read, and
the failure that has ended the stream. -/
structure Observation where
  answer : Answer
  current : Option Token
  taken : Nat
  failure : Option ReadError

namespace Request

/-- The answer to a request. -/
def answer (operators : Operators) (stream : TokenStream) : Request -> Answer
  | token call => .token (stream.call call).head?
  | read construct => .read construct ((construct.parser operators).run stream).1

/-- The stream that a request leaves. -/
def leave (operators : Operators) (stream : TokenStream) : Request -> TokenStream
  | token call => stream.call call
  | read construct => ((construct.parser operators).run stream).2

/-- Answers requests one after the other. -/
def serve (operators : Operators) : List Request -> TokenStream -> List Observation × TokenStream
  | [], stream => ([], stream)
  | request :: others, stream =>
    let next := request.leave operators stream
    let later := serve operators others next
    (⟨request.answer operators stream, next.head?, next.taken, next.failure?⟩ :: later.1, later.2)

end Request

open TokenStream

/-- Tokens that are the same as others up to the one behind some taken ones start with these, and go
on with the same token. -/
theorem drop_eq_append_of_take {tokens others taken rest : List Token} {passed : Nat}
    (parts : tokens.drop passed = taken ++ rest)
    (same : tokens.take (passed + taken.length + 1) = others.take (passed + taken.length + 1)) :
    others.drop passed = taken ++ others.drop (passed + taken.length) ∧
      (others.drop (passed + taken.length)).head? = rest.head? := by
  have left : tokens.drop (passed + taken.length) = rest := by
    rw [← List.drop_drop, parts, List.drop_left]
  have shorter := congrArg (List.take (passed + taken.length)) same
  rw [List.take_take, List.take_take, Nat.min_eq_left (Nat.le_succ _)] at shorter
  have front : (others.drop passed).take taken.length = taken := by
    have dropped := congrArg (List.drop passed) shorter
    rw [List.drop_take, List.drop_take, Nat.add_sub_cancel_left, parts, List.take_left] at dropped
    exact dropped.symm
  constructor
  · calc others.drop passed
        = (others.drop passed).take taken.length ++ (others.drop passed).drop taken.length :=
          (List.take_append_drop _ _).symm
      _ = taken ++ others.drop (passed + taken.length) := by rw [front, List.drop_drop]
  · have next := congrArg (·[passed + taken.length]?) same
    simp only [List.getElem?_take, Nat.lt_succ_self, if_true] at next
    rw [List.head?_drop, ← left, List.head?_drop, next]

namespace Request

variable {operators : Operators}

/-- A request passes some tokens. Where the tokens are the same up to the one behind these, it gets
the same answer and passes as many. -/
theorem exists_past (operators : Operators) (request : Request) (source : Source) {passed : Nat}
    (within : passed ≤ source.tokens.length) :
    ∃ next ≥ passed, next ≤ source.tokens.length ∧
      request.leave operators ((ofSource source).past passed) = (ofSource source).past next ∧
      ∀ other : Source, source.tokens.take (next + 1) = other.tokens.take (next + 1) →
        request.answer operators ((ofSource other).past passed) =
            request.answer operators ((ofSource source).past passed) ∧
          request.leave operators ((ofSource other).past passed) = (ofSource other).past next := by
  match request with
  | .token .current =>
    refine ⟨passed, le_refl _, within, look_past _ _, fun other same => ⟨?_, look_past _ _⟩⟩
    have next := congrArg (·[passed]?) same
    simp only [List.getElem?_take, Nat.lt_succ_self, if_true] at next
    simp [answer, call, next]
  | .token .advance =>
    by_cases more : passed < source.tokens.length
    · refine ⟨passed + 1, Nat.le_succ _, more, rfl, fun other same => ⟨?_, rfl⟩⟩
      have next := congrArg (·[passed + 1]?) same
      simp only [List.getElem?_take, Nat.lt_succ_self, if_true] at next
      simp [answer, call, ← past_succ, next]
    · -- At the end of the source, nothing is passed on either side.
      have atEnd : passed = source.tokens.length := Nat.le_antisymm within (Nat.not_lt.mp more)
      refine ⟨passed, le_refl _, within, ?_, fun other same => ?_⟩
      · exact advance_past_of_end (by simp [atEnd])
      · have all : source.tokens = other.tokens.take (passed + 1) := by
          rw [← same, List.take_of_length_le (atEnd ▸ Nat.le_succ _)]
        have lengths := congrArg List.length all
        rw [List.length_take, ← atEnd] at lengths
        have stays : ((ofSource other).past passed).advance = (ofSource other).past passed :=
          advance_past_of_end (by rw [tokens_ofSource]; omega)
        have staysHere : ((ofSource source).past passed).advance = (ofSource source).past passed :=
          advance_past_of_end (by simp [atEnd])
        have next := congrArg (·[passed]?) same
        simp only [List.getElem?_take, Nat.lt_succ_self, if_true] at next
        refine ⟨?_, stays⟩
        simp [answer, call, stays, staysHere, next]
  | .read construct =>
    have left : ((ofSource source).past passed).tokens = source.tokens.drop passed := by simp
    rcases parsed : (construct.parser operators).parse (source.tokens.drop passed) with
      ⟨result, rest⟩
    obtain ⟨taken, parts⟩ := (construct.parser operators).parseFrom_suffix
      (construct.parser operators).start (source.tokens.drop passed)
    rw [← Parser.parse, parsed] at parts
    have run := (construct.parser operators).run_of_parse (left.trans parts.symm) (left ▸ parsed)
    rw [past_past] at run
    refine ⟨passed + taken.length, Nat.le_add_right _ _, ?_, congrArg Prod.snd run,
      fun other same => ?_⟩
    · have lengths := congrArg List.length parts
      simp only [List.length_append, List.length_drop] at lengths
      omega
    · obtain ⟨partsOther, sameHead⟩ := drop_eq_append_of_take parts.symm same
      have leftOther : ((ofSource other).past passed).tokens = other.tokens.drop passed := by simp
      rw [← parts] at parsed
      have parsedOther := (construct.parser operators).parseFrom_of_head? parsed sameHead
      rw [← partsOther, ← leftOther] at parsedOther
      have runOther :=
        (construct.parser operators).run_of_parse (leftOther.trans partsOther) parsedOther
      rw [past_past] at runOther
      rw [answer, answer, leave, run, runOther]
      exact ⟨rfl, rfl⟩

/-- On a stream that nobody has looked at, a first request for a token passes none. -/
def opened : Request -> Request
  | token _ => token .current
  | read construct => .read construct

theorem of_fresh (operators : Operators) (request : Request) {stream : TokenStream}
    (fresh : stream.started = false) :
    request.answer operators stream = request.opened.answer operators (stream.past 0) ∧
      request.leave operators stream = request.opened.leave operators (stream.past 0) := by
  match request with
  | .token .current =>
    have looked : (stream.past 0).call .current = stream.call .current := look_look stream
    simp only [answer, leave, opened, looked, and_self]
  | .token .advance =>
    have looked : (stream.past 0).call .current = stream.call .advance :=
      (look_look stream).trans (advance_of_fresh fresh).symm
    simp only [answer, leave, opened, looked, and_self]
  | .read construct =>
    have looked := (construct.parser operators).run_look stream
    simp only [answer, leave, opened, past, looked, and_self]

/-- Requests pass some tokens. On a source that agrees with theirs up to the line of the current
token, they show the same. -/
theorem exists_serve_past (operators : Operators) (requests : List Request) (source : Source)
    {passed : Nat} (within : passed ≤ source.tokens.length) :
    ∃ next ≥ passed, next ≤ source.tokens.length ∧
      (serve operators requests ((ofSource source).past passed)).2 =
        (ofSource source).past next ∧
      ∀ (other : Source) (count : Nat), source.AgreeFor count other →
        source.Reaches count next →
        (serve operators requests ((ofSource other).past passed)).1 =
          (serve operators requests ((ofSource source).past passed)).1 := by
  induction requests generalizing passed with
  | nil => exact ⟨passed, le_refl _, within, rfl, fun _ _ _ _ => rfl⟩
  | cons request others inductionHypothesis =>
    obtain ⟨middle, goesOn, middleWithin, left, alike⟩ :=
      request.exists_past operators source within
    obtain ⟨next, goesFurther, nextWithin, leftLater, alikeLater⟩ :=
      inductionHypothesis middleWithin
    refine ⟨next, goesOn.trans goesFurther, nextWithin, ?_, fun other count agree reaches => ?_⟩
    · rw [serve, left]
      exact leftLater
    · have before := reaches.mono goesFurther
      obtain ⟨sameAnswer, leftOther⟩ := alike other (agree.take_tokens before)
      obtain ⟨sameToken, sameTaken, sameFailure⟩ := shown_past_of_agreeFor agree before
      rw [serve, serve, left, leftOther]
      simp only [sameAnswer, sameToken, sameTaken, sameFailure,
        alikeLater other count agree reaches]

/-- Wherever a construct is read, the tokens that its descent advances past, one after the other,
are those that it takes, and the stream has pulled these and the current one. The current token is
the first one behind the construct, and if there is no construct it is the one that the error
names. -/
theorem read_stops_at_current (operators : Operators) (construct : Construct)
    (stream : TokenStream) :
    let result := ((construct.parser operators).run stream).1
    let left := (read construct).leave operators stream
    ∃ taken, (construct.descent operators).Passes stream.tokens result taken left.tokens ∧
      left = stream.past taken.length ∧ left.head? = left.tokens.head? ∧
      ∀ error, result = .error error → error.found = left.head? := by
  intro result left
  obtain ⟨limit, bounded⟩ := operators.exists_bounded
  obtain ⟨taken, passes⟩ := (construct.ends_descent bounded stream.tokens).passes
  have run := (construct.parser operators).run_of_parse passes.parts rfl
  rw [← Parser.run_fst, ← Parser.tokens_run] at passes
  exact ⟨taken, passes, congrArg Prod.snd run, (construct.parser operators).head?_run stream,
    construct.namesCurrent operators stream⟩

/-- Reading never looks past the current token. After any requests, the stream has pulled the tokens
that were passed and the current one, and no other. Whatever a source holds behind the line of that
token, or behind the event that ended it, the answers are the same, and after each request the same
token is current, as many bytes have been read, and the same failure is shown. -/
theorem serve_looks_no_further (operators : Operators) (first : Request) (others : List Request)
    (source : Source) :
    let served := serve operators (first :: others) (.ofSource source)
    ∃ passed, source.tokens = passed ++ served.2.tokens ∧
      served.2 = (ofSource source).past passed.length ∧
      ∀ (other : Source) (count : Nat), source.AgreeFor count other →
        source.Reaches count passed.length →
        (serve operators (first :: others) (.ofSource other)).1 = served.1 := by
  intro served
  have opens : ∀ source : Source, serve operators (first :: others) (.ofSource source) =
      serve operators (first.opened :: others) ((ofSource source).past 0) := by
    intro source
    have fresh : (ofSource source).started = false := rfl
    obtain ⟨sameAnswer, sameStream⟩ := first.of_fresh operators fresh
    rw [serve, serve, sameAnswer, sameStream]
  obtain ⟨next, _, within, left, alike⟩ :=
    exists_serve_past operators (first.opened :: others) source (Nat.zero_le source.tokens.length)
  rw [← opens source] at left alike
  have passed : (source.tokens.take next).length = next := List.length_take_of_le within
  refine ⟨source.tokens.take next, ?_, ?_, fun other count agree reaches => ?_⟩
  · rw [left, tokens_past, tokens_ofSource, List.take_append_drop]
  · rw [passed]
    exact left
  · rw [opens other]
    exact alike other count agree (passed ▸ reaches)

/-- An expression that ends in front of a separator on its line is read as the same one whether the
input fails behind that line or goes on. -/
theorem serve_expression_before_failure :
    let line : Chunk := .data [120, 59, 10]
    let source : Source := [line, .failure ⟨.other, "gone"⟩]
    let other : Source := [line, .data [40, 255]]
    let requests : List Request := [.read .expression, .token .current]
    let served := serve .standard requests (.ofSource source)
    source.AgreeFor 1 other ∧
      (∃ passed, source.tokens = passed ++ served.2.tokens ∧ source.Reaches 1 passed.length ∧
        served.2 = (ofSource source).past passed.length) ∧
      (serve .standard requests (.ofSource other)).1 = served.1 := by
  intro line source other requests served
  have agree : source.AgreeFor 1 other := .read rfl rfl (.none _ _)
  have tokens : source.tokens = [.name "x", .itemSeparator] := by decide +kernel
  have onLine : (source.tokensWithin 1).length = 2 := by decide +kernel
  have left : served.2.tokens = [.itemSeparator] := by
    have looked : served.2.tokens =
        ((Parser.expression .standard).run (ofSource source)).2.tokens := tokens_look _
    rw [looked, Parser.tokens_run, tokens_ofSource, tokens]
    rfl
  obtain ⟨passed, parts, pulled, alike⟩ :=
    serve_looks_no_further .standard (.read .expression) [.token .current] source
  have reaches : source.Reaches 1 passed.length := by
    have lengths := congrArg List.length parts
    rw [tokens, left, List.length_append] at lengths
    refine .inl (onLine ▸ ?_)
    simp only [List.length_cons, List.length_nil] at lengths
    omega
  exact ⟨agree, ⟨passed, parts, reaches, pulled⟩, alike other 1 agree reaches⟩

end Request

end ExprShell
