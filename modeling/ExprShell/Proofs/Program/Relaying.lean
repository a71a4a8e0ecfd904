import ExprShell.Proofs.Conversation.Likeness
import ExprShell.Proofs.Source.Delivery
import ExprShell.Proofs.Stream.Pulls
import ExprShell.Proofs.Token.Layout
/-!
# Layout does not change a program

Sources that deliver texts of different layouts have the same tokens, and a stream shows them in the
same order whatever is asked of it. So a shell answers both alike.
-/

namespace ExprShell

/-- Calls of fresh streams with the same tokens return the same. -/
theorem TokenStream.head?_calls_congr {source source' : Source}
    (same : source.tokens = source'.tokens) (requests : List Call) :
    ((ofSource source).calls requests).head? = ((ofSource source').calls requests).head? := by
  cases requests with
  | nil => rfl
  | cons first others =>
    rw [calls_of_fresh rfl, calls_of_fresh rfl, head?_past, head?_past, tokens_ofSource,
      tokens_ofSource, same]

/-- Layout and comments change nothing: whichever sources deliver two texts that differ in them,
their tokens are the same, any calls of their streams return the same, and every shell writes the
same about both and counts as many errors. -/
theorem run_relaid {text text' : List Char} (relaid : Relaid text text') {source source' : Source}
    (delivers : source.Delivers (Utf8.encodeChars text))
    (delivers' : source'.Delivers (Utf8.encodeChars text')) :
    source.tokens = source'.tokens ∧
      (∀ requests, ((TokenStream.ofSource source).calls requests).head? =
        ((TokenStream.ofSource source').calls requests).head?) ∧
      ∀ shell : Shell,
        (∀ channel, Event.output channel (shell.run (.ofSource source)).events =
          Event.output channel (shell.run (.ofSource source')).events) ∧
        (shell.run (.ofSource source)).errors = (shell.run (.ofSource source')).errors := by
  have same : source.tokens = source'.tokens := by
    rw [Source.tokens_of_delivers delivers, Source.tokens_of_delivers delivers']
    exact Token.ofLines_relaid relaid
  have sameStream :
      (TokenStream.ofSource source).tokens = (TokenStream.ofSource source').tokens := by
    rw [TokenStream.tokens_ofSource, TokenStream.tokens_ofSource, same]
  exact ⟨same, TokenStream.head?_calls_congr same, fun shell => shell.run_congr sameStream⟩

/-- A call that goes on behind a space, and the same call that goes on in the next line behind an
ideographic space, with a comment at its end. The second text comes in two chunks. -/
theorem run_relaid_call_over_lines :
    let text := "f(x, y)".toList
    let text' := "f(x,\r\n\u3000y)#) # done".toList
    let source : Source := [.data (Utf8.encodeChars text)]
    let source' : Source := [.data (Utf8.encodeChars (text'.take 6)),
      .data (Utf8.encodeChars (text'.drop 6))]
    let shell : Shell := .start .standard .parsing false .unlimited
    Relaid text text' ∧ source.Delivers (Utf8.encodeChars text) ∧
      source'.Delivers (Utf8.encodeChars text') ∧ source.tokens = source'.tokens ∧
      (shell.run (.ofSource source)).errors = (shell.run (.ofSource source')).errors := by
  intro text text' source source' shell
  have gap : Relaid ("f(x,".toList ++ " ".toList ++ "y)".toList)
      ("f(x,".toList ++ "\r\n\u3000".toList ++ "y)".toList) :=
    .gap (by decide) ⟨by decide, by decide⟩ ⟨by decide, by decide⟩
  have comment : Relaid ("f(x,\r\n\u3000y)".toList ++ [])
      ("f(x,\r\n\u3000y)".toList ++ '#' :: ") # done".toList ++ []) :=
    .comment (by decide) (.inl rfl)
  have relaid : Relaid text text' := gap.trans comment
  have delivers : source.Delivers (Utf8.encodeChars text) := .single _
  have delivers' : source'.Delivers (Utf8.encodeChars text') :=
    ⟨by simp [source', Chunk.passes], rfl⟩
  obtain ⟨tokens, _, alike⟩ := run_relaid relaid delivers delivers'
  exact ⟨relaid, delivers, delivers', tokens, (alike shell).2⟩

end ExprShell
