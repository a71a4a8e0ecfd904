import ExprShell.Program
import ExprShell.TokenStream
/-!
# Parsers

A parser is fed one token after the other. To each it answers by taking it and going on, or by
stopping in front of it with a result or an error; the end of the input it cannot take. So a parser
decides about a construct by the tokens of the construct and one more, and never asks for a token
beyond that one.

`Parser.parse` runs a parser over a list of tokens and `Parser.run` over a token stream. Parsers
are put together with `map`, `andThen`, `branch` and `keyword`.
-/

namespace ExprShell

/-- What a construct needs at some place. -/
inductive Expectation
  | closingBracket
  | argumentEnd
  | functionName
  | openingOfParameters
  | closingOfParameters
  | defineWord
  | declareWord
deriving DecidableEq, Repr

/-- The wording of an expectation. -/
def Expectation.text : Expectation -> String
  | closingBracket => "')'"
  | argumentEnd => "')' or ',' in argument list"
  | functionName => "function name in prototype"
  | openingOfParameters => "'(' in prototype"
  | closingOfParameters => "')' in prototype"
  | defineWord => "'" ++ Token.defineWord ++ "'"
  | declareWord => "'" ++ Token.declareWord ++ "'"

/-- Why the tokens are no construct: something else than one of the expected tokens was found, or a
token that starts no expression. Found is a token or the end of the input. -/
inductive SyntaxError
  | expected (what : Expectation) (found : Option Token)
  | unknownToken (found : Option Token)
deriving DecidableEq, Repr

namespace SyntaxError

/-- The token at which the construct went wrong. -/
def found : SyntaxError -> Option Token
  | expected _ found => found
  | unknownToken found => found

/-- The wording of a syntax error. -/
def message : SyntaxError -> String
  | expected what found => "expected " ++ what.text ++ ", found " ++ Token.describe found
  | unknownToken found =>
    "unknown token " ++ Token.describe found ++ " when expecting an expression"

end SyntaxError

/-- The answer of a parser to a token: it takes the token, or it stops in front of it. -/
inductive Verdict (State Result : Type)
  | shift (next : State)
  | accept (result : Result)
  | reject (error : SyntaxError)

/-- The same answer seen from a larger parser. -/
def Verdict.map {State State' Result Result' : Type} (onState : State -> State')
    (onResult : Result -> Result') : Verdict State Result -> Verdict State' Result'
  | shift next => shift (onState next)
  | accept result => accept (onResult result)
  | reject error => reject error

/-- A parser that is fed one token at a time. It takes no end of input. -/
structure Parser (Result : Type) where
  State : Type
  start : State
  feed : State -> Option Token -> Verdict State Result
  feed_end : forall state next, feed state none ≠ .shift next

namespace Parser

variable {Result First Second : Type}

/-- Runs a parser over tokens from one of its states: its result or error, and the tokens that it
did not take. -/
def parseFrom (parser : Parser Result) (state : parser.State) :
    List Token -> Except SyntaxError Result × List Token
  | [] =>
    match stopped : parser.feed state none with
    | .shift next => (parser.feed_end state next stopped).elim
    | .accept result => (.ok result, [])
    | .reject error => (.error error, [])
  | token :: rest =>
    match parser.feed state (some token) with
    | .shift next => parser.parseFrom next rest
    | .accept result => (.ok result, token :: rest)
    | .reject error => (.error error, token :: rest)

/-- Runs a parser over tokens. -/
def parse (parser : Parser Result) (tokens : List Token) :
    Except SyntaxError Result × List Token :=
  parser.parseFrom parser.start tokens

theorem tokens_ne_nil_of_shift (parser : Parser Result) {state next : parser.State}
    {tokens : List Token} (taken : parser.feed state tokens.head? = .shift next) :
    tokens ≠ [] := by
  rintro rfl
  exact parser.feed_end state next taken

/-- Runs a parser over a token stream from one of its states. -/
def runFrom (parser : Parser Result) (state : parser.State) (stream : TokenStream) :
    Except SyntaxError Result × TokenStream :=
  match _fed : parser.feed state stream.look.head? with
  | .shift next => parser.runFrom next stream.look.advance
  | .accept result => (.ok result, stream.look)
  | .reject error => (.error error, stream.look)
termination_by stream.tokens.length
decreasing_by
  rw [TokenStream.head?_look] at _fed
  have nonempty := parser.tokens_ne_nil_of_shift _fed
  rw [TokenStream.tokens_advance (TokenStream.started_look stream), TokenStream.tokens_look,
    List.length_tail]
  have positive := List.length_pos_iff.mpr nonempty
  omega

/-- Runs a parser over a token stream. -/
def run (parser : Parser Result) (stream : TokenStream) :
    Except SyntaxError Result × TokenStream :=
  parser.runFrom parser.start stream

/-- A run over a stream decides as a run over the tokens to come, and leaves what that leaves. -/
theorem runFrom_eq_parseFrom (parser : Parser Result) (state : parser.State)
    (stream : TokenStream) :
    ((parser.runFrom state stream).1, (parser.runFrom state stream).2.tokens) =
      parser.parseFrom state stream.tokens := by
  fun_induction runFrom parser state stream with
  | case1 state stream next fed inductionHypothesis =>
    rw [inductionHypothesis, TokenStream.tokens_advance (TokenStream.started_look stream),
      TokenStream.tokens_look]
    rw [TokenStream.head?_look] at fed
    cases coming : stream.tokens with
    | nil => exact absurd coming (parser.tokens_ne_nil_of_shift fed)
    | cons token rest =>
      rw [coming] at fed
      simp only [List.head?_cons] at fed
      simp [parseFrom, fed]
  | case2 state stream result fed =>
    rw [TokenStream.head?_look] at fed
    rw [TokenStream.tokens_look]
    cases coming : stream.tokens with
    | nil =>
      rw [coming] at fed
      simp only [List.head?_nil] at fed
      unfold parseFrom
      split <;> simp_all
    | cons token rest =>
      rw [coming] at fed
      simp only [List.head?_cons] at fed
      simp [parseFrom, fed]
  | case3 state stream error fed =>
    rw [TokenStream.head?_look] at fed
    rw [TokenStream.tokens_look]
    cases coming : stream.tokens with
    | nil =>
      rw [coming] at fed
      simp only [List.head?_nil] at fed
      unfold parseFrom
      split <;> simp_all
    | cons token rest =>
      rw [coming] at fed
      simp only [List.head?_cons] at fed
      simp [parseFrom, fed]

/-- A parser with its results changed. -/
def map (change : First -> Second) (parser : Parser First) : Parser Second where
  State := parser.State
  start := parser.start
  feed state token := (parser.feed state token).map id change
  feed_end state next taken := by
    cases fed : parser.feed state none with
    | shift inner => exact parser.feed_end state inner fed
    | accept result => simp [fed, Verdict.map] at taken
    | reject error => simp [fed, Verdict.map] at taken

/-- One parser after another. The token at which the first stops is the first of the second. -/
def andThen (first : Parser First) (second : Parser Second) : Parser (First × Second) where
  State := first.State ⊕ (First × second.State)
  start := .inl first.start
  feed
    | .inl state, token =>
      match first.feed state token with
      | .shift next => .shift (.inl next)
      | .accept result =>
        (second.feed second.start token).map (fun next => .inr (result, next)) (result, ·)
      | .reject error => .reject error
    | .inr (result, state), token =>
      (second.feed state token).map (fun next => .inr (result, next)) (result, ·)
  feed_end state next taken := by
    cases state with
    | inl state =>
      cases fed : first.feed state none with
      | shift inner => exact first.feed_end state inner fed
      | accept result =>
        cases further : second.feed second.start none with
        | shift inner => exact second.feed_end second.start inner further
        | accept other => simp [fed, further, Verdict.map] at taken
        | reject error => simp [fed, further, Verdict.map] at taken
      | reject error => simp [fed] at taken
    | inr pair =>
      obtain ⟨result, state⟩ := pair
      cases further : second.feed state none with
      | shift inner => exact second.feed_end state inner further
      | accept other => simp [further, Verdict.map] at taken
      | reject error => simp [further, Verdict.map] at taken

/-- One of two parsers, chosen by the first token. -/
def branch (chooses : Option Token -> Bool) (chosen otherwise : Parser Result) :
    Parser Result where
  State := Option (chosen.State ⊕ otherwise.State)
  start := none
  feed
    | none, token =>
      if chooses token then
        (chosen.feed chosen.start token).map (fun next => some (.inl next)) id
      else (otherwise.feed otherwise.start token).map (fun next => some (.inr next)) id
    | some (.inl state), token => (chosen.feed state token).map (fun next => some (.inl next)) id
    | some (.inr state), token =>
      (otherwise.feed state token).map (fun next => some (.inr next)) id
  feed_end state next taken := by
    have chosenStops : forall state, (chosen.feed state none).map
        (fun next => some (Sum.inl next)) id ≠ Verdict.shift next := by
      intro state equal
      cases fed : chosen.feed state none with
      | shift inner => exact chosen.feed_end state inner fed
      | accept result => simp [fed, Verdict.map] at equal
      | reject error => simp [fed, Verdict.map] at equal
    have otherwiseStops : forall state, (otherwise.feed state none).map
        (fun next => some (Sum.inr next)) id ≠ Verdict.shift next := by
      intro state equal
      cases fed : otherwise.feed state none with
      | shift inner => exact otherwise.feed_end state inner fed
      | accept result => simp [fed, Verdict.map] at equal
      | reject error => simp [fed, Verdict.map] at equal
    cases state with
    | none =>
      dsimp only at taken
      split at taken
      · exact chosenStops _ taken
      · exact otherwiseStops _ taken
    | some side =>
      cases side with
      | inl state => exact chosenStops _ taken
      | inr state => exact otherwiseStops _ taken

/-- The parser of a single token, which carries no information. -/
def keyword (word : Token) (what : Expectation) : Parser Unit where
  State := Bool
  start := false
  feed
    | false, token => if token = some word then .shift true else .reject (.expected what token)
    | true, _ => .accept ()
  feed_end state next taken := by
    cases state <;> simp at taken

end Parser

end ExprShell
