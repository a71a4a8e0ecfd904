import ExprShell.Proofs.Parser.Origins
import ExprShell.Proofs.Stream.Lookahead
import ExprShell.Proofs.Token.Lexical
/-!
# Whatever is read is well formed

A stream holds tokens of its source only, whatever was asked of it before and under whichever
operator tables. All tokens of a source can stand in a text, and a parser makes its results of
tokens that it takes. So no byte string makes a parser return a name that is no name, a number that
is none or has a sign, or an operator that is not registered; and no text can name the function that
stands for a bare expression.
-/

namespace ExprShell

/-- The streams that reading from a source can lead to. Every request may bring its own table. -/
inductive TokenStream.ReadsFrom (source : Source) : TokenStream -> Prop
  | fresh : ReadsFrom source (.ofSource source)
  | after {stream : TokenStream} (operators : Operators) (request : Request) :
      ReadsFrom source stream → ReadsFrom source (request.leave operators stream)

/-- A request takes tokens from a stream and puts none into it. -/
theorem Request.tokens_leave_suffix (operators : Operators) (stream : TokenStream)
    (request : Request) : (request.leave operators stream).tokens <:+ stream.tokens := by
  match request with
  | .token .current => simp [leave, TokenStream.call]
  | .token .advance =>
    cases started : stream.started with
    | true => simpa [leave, TokenStream.call, TokenStream.tokens_advance started] using
        stream.tokens.tail_suffix
    | false => simp [leave, TokenStream.call, TokenStream.tokens_advance_fresh started]
  | .read construct =>
    rw [leave, Parser.tokens_run]
    obtain ⟨taken, parts⟩ := (construct.parser operators).parseFrom_suffix _ stream.tokens
    exact ⟨taken, parts⟩

theorem TokenStream.ReadsFrom.tokens_suffix {source : Source} {stream : TokenStream}
    (reads : stream.ReadsFrom source) : stream.tokens <:+ source.tokens := by
  induction reads with
  | fresh => simp
  | after operators request _ inductionHypothesis =>
    exact (request.tokens_leave_suffix operators _).trans inductionHypothesis

open TokenStream

namespace Construct

variable {operators : Operators} {construct : Construct} {result : construct.Result}

/-- That what was read is well formed: each name is an identifier and no keyword, each number is a
number without a sign, each operator is registered and neither white space nor a letter, a digit or
the comment sign; and the anonymous prototype belongs to bare expressions only. -/
structure WellFormed (operators : Operators) (construct : Construct) (result : construct.Result) :
    Prop where
  names : ∀ name, .name name ∈ construct.parts result →
    isName name = true ∧ name ≠ Prototype.anonymous.name
  numbers : ∀ value, .number value ∈ construct.parts result →
    value.isNaN = false ∧ value.negative = false
  symbols : ∀ operator, .symbol operator ∈ construct.parts result →
    (∃ precedence, operators.lookup operator = some precedence ∧ 0 ≤ precedence) ∧
      isBlank operator = false ∧ operator.isAlphanum = false ∧ operator ≠ '#'
  bare : ∀ prototype, construct.prototype? result = some prototype →
    (construct.isBare result = true → prototype = .anonymous) ∧
      (construct.isBare result = false → prototype.name ≠ Prototype.anonymous.name)

/-- A prototype that was read has its name among the parts, unless it was made for a bare
expression. -/
theorem name_mem_parts {prototype : Prototype}
    (introduced : construct.prototype? result = some prototype)
    (written : construct.isBare result = false) :
    .name prototype.name ∈ construct.parts result := by
  cases construct with
  | expression => simp [prototype?] at introduced
  | topLevel => simp [isBare] at written
  | item =>
    obtain rfl := Option.some.inj introduced
    cases result with
    | expression body => simp [isBare] at written
    | _ => simp [parts, Item.parts, Item.prototype, Prototype.parts]
  | _ =>
    obtain rfl := Option.some.inj introduced
    simp [parts, Prototype.parts]

/-- What is made of tokens that can stand in a text is well formed. -/
theorem MadeOf.wellFormed
    (made : construct.MadeOf operators (fun token => token.isLexical = true) result) :
    construct.WellFormed operators result := by
  -- The anonymous name starts with an underscore.
  have names (name : String) (member : .name name ∈ construct.parts result) :
      isName name = true ∧ name ≠ Prototype.anonymous.name := by
    have lexical : isName name = true := (made.parts _ member).1
    refine ⟨lexical, ?_⟩
    rintro rfl
    exact absurd lexical (by decide)
  refine ⟨names, fun value member => ?_, fun operator member => ?_, fun prototype introduced => ?_⟩
  · simpa [Token.isLexical] using (made.parts _ member).1
  · obtain ⟨lexical, registered⟩ := made.parts _ member
    refine ⟨?_, by simpa [Token.isLexical, isSymbol, and_assoc] using lexical⟩
    have found := registered operator rfl
    unfold Operators.Registers Operators.precedence? at found
    split at found
    · rename_i precedence entry
      refine ⟨precedence, entry, ?_⟩
      by_contra negative
      simp [negative] at found
    · simp at found
  · refine ⟨fun bare => ?_, fun written => (names _ (name_mem_parts introduced written)).2⟩
    exact Option.some.inj (introduced.symm.trans (made.bare bare))

/-- Whatever is read from a source, after whatever has been asked of its stream before, is well
formed. -/
theorem wellFormed_of_run {source : Source} {stream : TokenStream}
    (reads : stream.ReadsFrom source) (operators : Operators) (construct : Construct)
    {result : construct.Result}
    (read : ((construct.parser operators).run stream).1 = .ok result) :
    construct.WellFormed operators result := by
  refine MadeOf.wellFormed ((construct.ensures operators _).of_run (fun token member => ?_) read)
  exact Source.isLexical_of_mem_tokens (reads.tokens_suffix.mem member)

/-- A definition is read behind a separator that was passed by two calls. -/
theorem wellFormed_definition_behind_separator :
    let stream := ofSource [.data "; def f(x) x*.5 # half".toUTF8.data.toList]
    let looked := (Request.token .current).leave .empty stream
    let passed := (Request.token .advance).leave .empty looked
    let body : Expr := .binary '*' (.reference "x") (.number (.ofBits 0x3FE0000000000000))
    let half : Definition := ⟨⟨"f", ["x"]⟩, body⟩
    passed.ReadsFrom stream.source ∧
      ((Construct.definition.parser .standard).run passed).1 = .ok half ∧
      Construct.definition.WellFormed .standard half := by
  intro stream looked passed body half
  have reads : passed.ReadsFrom stream.source := .after _ _ (.after _ _ .fresh)
  have tokens : passed.tokens = [.define, .name "f", .symbol '(', .name "x", .symbol ')',
      .name "x", .symbol '*', .number (.ofBits 0x3FE0000000000000)] := by decide +kernel
  have read : ((Construct.definition.parser .standard).run passed).1 = .ok half := by
    rw [Parser.run_fst, tokens]
    rfl
  exact ⟨reads, read, wellFormed_of_run reads .standard .definition read⟩

end Construct

end ExprShell
