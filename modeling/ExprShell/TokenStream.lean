import ExprShell.Source
/-!
# Token streams

A token stream reads a line of its source only when a token is wanted and none is left over from
the lines before. An end of input at the start of a line, or any failure, ends it for good.

`TokenStream.tokens` is every token still to come. Looking at the current token does not change it
and advancing drops its first element, except that the first advance of a stream nobody has looked
at drops nothing.
-/

namespace ExprShell

/-- Why a token stream is over. -/
inductive Ending
  | endOfInput
  | failure (error : ReadError)
deriving DecidableEq, Repr

/-- A source together with the tokens read from it and not yet taken. `taken` counts the bytes read
so far, and `started` tells whether anyone has asked for a token. -/
structure TokenStream where
  source : Source
  buffer : List Token
  ending : Option Ending
  started : Bool
  taken : Nat

namespace TokenStream

/-- The stream of a source of which nothing has been read. -/
def ofSource (source : Source) : TokenStream := ⟨source, [], none, false, 0⟩

/-- The failure that ended the stream, if one did. -/
def failure? (stream : TokenStream) : Option ReadError :=
  match stream.ending with
  | some (.failure error) => some error
  | _ => none

/-- All tokens still to come. -/
def tokens (stream : TokenStream) : List Token :=
  stream.buffer ++ if stream.ending.isNone then stream.source.tokens else []

/-- Reads one line and keeps its tokens. -/
def readLine (stream : TokenStream) : TokenStream :=
  let raw := stream.source.takeLine
  let after := { stream with source := raw.rest, taken := stream.taken + raw.bytes.length }
  match raw.result with
  | .line text => { after with buffer := stream.buffer ++ Token.ofText text }
  | .endOfInput => { after with ending := some .endOfInput }
  | .failure error => { after with ending := some (.failure error) }

/-- Bounds the lines that can still be read. -/
def unread (stream : TokenStream) : Nat :=
  if stream.ending.isNone then stream.source.size + 1 else 0

theorem unread_readLine_lt {stream : TokenStream} (isOpen : stream.ending.isNone = true) :
    stream.readLine.unread < stream.unread := by
  cases result : stream.source.takeLine.result with
  | line text =>
    have smaller := Source.size_takeLine_lt result
    simp [readLine, unread, result, isOpen, smaller]
  | endOfInput => simp [readLine, unread, result, isOpen]
  | failure error => simp [readLine, unread, result, isOpen]

/-- Reads lines until a token is at hand or the stream is over. -/
def fill (stream : TokenStream) : TokenStream :=
  if _starved : stream.buffer.isEmpty = true ∧ stream.ending.isNone = true then stream.readLine.fill
  else stream
termination_by stream.unread
decreasing_by exact unread_readLine_lt _starved.2

/-- Makes the current token available. -/
def look (stream : TokenStream) : TokenStream := { stream.fill with started := true }

/-- The current token of a stream that has been looked at; none at its end. -/
def head? (stream : TokenStream) : Option Token := stream.buffer.head?

/-- Drops the current token and makes the next one available. A stream that nobody has looked at
has no current token to drop. -/
def advance (stream : TokenStream) : TokenStream :=
  if stream.started then
    let filled := stream.fill
    { filled with buffer := filled.buffer.tail }.look
  else stream.look

/-- Reading a line moves its tokens and changes nothing about what is to come. -/
theorem tokens_readLine {stream : TokenStream} (isOpen : stream.ending.isNone = true) :
    stream.readLine.tokens = stream.tokens := by
  cases result : stream.source.takeLine.result with
  | line text =>
    have unfolded := Source.tokens_of_line result
    simp [readLine, tokens, result, isOpen, unfolded]
  | endOfInput =>
    have unfolded : stream.source.tokens = [] := Source.tokens_of_no_line (by simp [result])
    simp [readLine, tokens, result, isOpen, unfolded]
  | failure error =>
    have unfolded : stream.source.tokens = [] := Source.tokens_of_no_line (by simp [result])
    simp [readLine, tokens, result, isOpen, unfolded]

@[simp] theorem tokens_fill (stream : TokenStream) : stream.fill.tokens = stream.tokens := by
  fun_induction fill stream with
  | case1 stream starved inductionHypothesis =>
    rw [inductionHypothesis, tokens_readLine starved.2]
  | case2 => rfl

/-- After filling, a token is at hand or none is to come. -/
theorem fill_settled (stream : TokenStream) :
    stream.fill.buffer ≠ [] ∨ stream.fill.tokens = [] := by
  fun_induction fill stream with
  | case1 stream starved inductionHypothesis => exact inductionHypothesis
  | case2 stream settled =>
    cases buffered : stream.buffer with
    | nil =>
      right
      cases ended : stream.ending with
      | none => simp [buffered, ended] at settled
      | some ending => simp [tokens, buffered, ended]
    | cons token others => simp

/-- The current token is the first of those to come. -/
@[simp] theorem head?_look (stream : TokenStream) : stream.look.head? = stream.tokens.head? := by
  have settled := fill_settled stream
  have kept := tokens_fill stream
  simp only [look, head?]
  rcases settled with held | exhausted
  · rw [← kept]
    simp only [tokens]
    cases buffered : stream.fill.buffer with
    | nil => exact absurd buffered held
    | cons token others => simp
  · rw [← kept, exhausted]
    have empty : stream.fill.buffer = [] := (List.append_eq_nil_iff.mp exhausted).1
    simp [empty]

@[simp] theorem tokens_look (stream : TokenStream) : stream.look.tokens = stream.tokens :=
  tokens_fill stream

/-- Advancing past the current token leaves the tokens after it. -/
theorem tokens_advance {stream : TokenStream} (started : stream.started = true) :
    stream.advance.tokens = stream.tokens.tail := by
  have settled := fill_settled stream
  rw [← tokens_fill stream]
  simp only [advance, started, if_true, tokens_look]
  rcases settled with held | exhausted
  · cases buffered : stream.fill.buffer with
    | nil => exact absurd buffered held
    | cons token others => simp [tokens, buffered]
  · have parts := List.append_eq_nil_iff.mp exhausted
    rw [exhausted]
    simp only [tokens, parts.1, List.tail_nil, List.nil_append]
    exact parts.2

/-- The first advance of a stream nobody has looked at drops nothing. -/
theorem tokens_advance_fresh {stream : TokenStream} (fresh : stream.started = false) :
    stream.advance.tokens = stream.tokens := by
  simp [advance, fresh]

/-- The token after the current one is the second of those to come. -/
theorem tokens_look_advance (stream : TokenStream) :
    stream.look.advance.tokens = stream.tokens.tail := by
  rw [tokens_advance rfl, tokens_look]

/-- Advancing leaves a stream that has been looked at. -/
theorem head?_advance (stream : TokenStream) :
    stream.advance.head? = stream.advance.tokens.head? := by
  unfold advance
  split <;> simp only [head?_look, tokens_look]

@[simp] theorem started_look (stream : TokenStream) : stream.look.started = true := rfl

@[simp] theorem started_advance (stream : TokenStream) : stream.advance.started = true := by
  unfold advance
  split <;> rfl

end TokenStream

end ExprShell
