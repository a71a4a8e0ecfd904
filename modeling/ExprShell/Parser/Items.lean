import ExprShell.Parser.Progress
/-!
# Reading whole programs

A program is read item after item up to the end of its tokens. Between items separators are
skipped; an item that cannot be read is noted, and reading goes on behind the token at which it
went wrong.
-/

namespace ExprShell

/-- The token between items. -/
def Token.itemSeparator : Token := .symbol ';'

/-- Reads all items of a stream: the items and the errors in order, and the stream at its end. -/
def readItems (operators : Operators) (stream : TokenStream) :
    List (Except SyntaxError Item) × TokenStream :=
  match _current : stream.look.head? with
  | none => ([], stream.look)
  | some token =>
    if token = .itemSeparator then readItems operators stream.look.advance
    else
      match _read : ((Parser.item operators).run stream).1 with
      | .ok item =>
        let later := readItems operators ((Parser.item operators).run stream).2
        (.ok item :: later.1, later.2)
      | .error error =>
        let later := readItems operators ((Parser.item operators).run stream).2.advance
        (.error error :: later.1, later.2)
termination_by stream.tokens.length
decreasing_by
  · rw [TokenStream.head?_look] at _current
    rw [TokenStream.tokens_advance (TokenStream.started_look stream), TokenStream.tokens_look]
    cases coming : stream.tokens with
    | nil => simp [coming] at _current
    | cons token rest => simp
  · exact (Parser.productive_item operators).run_length_lt _read
  · rw [TokenStream.head?_look] at _current
    rw [TokenStream.tokens_advance (Parser.started_run _ stream), List.length_tail]
    have bound := Parser.run_length_le (Parser.item operators) stream
    have positive : 0 < stream.tokens.length := by
      cases coming : stream.tokens with
      | nil => simp [coming] at _current
      | cons token rest => simp
    omega

end ExprShell
