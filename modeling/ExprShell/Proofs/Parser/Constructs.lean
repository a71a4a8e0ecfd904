import ExprShell.Proofs.Parser.Barriers
import ExprShell.Proofs.Stream.Pulls
/-!
# Everything that can be read

The parsers of the library as one family. Each of them names in its errors the token at which it
stopped, which is the current token of the stream that it leaves.
-/

namespace ExprShell

/-- What can be read from a stream. -/
inductive Construct
  | expression
  | prototype
  | definition
  | declaration
  | topLevel
  | item
deriving DecidableEq, Repr

namespace Construct

/-- What a construct is read as. -/
def Result : Construct -> Type
  | expression => Expr
  | prototype => Prototype
  | definition => Definition
  | declaration => Prototype
  | topLevel => Definition
  | item => Item

/-- The parser of a construct. -/
def parser (operators : Operators) : (construct : Construct) -> Parser construct.Result
  | expression => Parser.expression operators
  | prototype => Parser.prototype
  | definition => Parser.definition operators
  | declaration => Parser.declaration
  | topLevel => Parser.topLevel operators
  | item => Parser.item operators

end Construct

namespace Parser

variable {Result : Type}

theorem head?_run (parser : Parser Result) (stream : TokenStream) :
    (parser.run stream).2.head? = (parser.run stream).2.tokens.head? := by
  obtain ⟨taken, _, passed⟩ := parser.exists_runFrom_past parser.start stream
  rw [run, passed, TokenStream.head?_past, TokenStream.tokens_past, List.head?_drop]

/-- That every error of a parser names the current token of the stream that it leaves. -/
def NamesCurrent (parser : Parser Result) : Prop :=
  ∀ stream error, (parser.run stream).1 = .error error →
    error.found = (parser.run stream).2.head?

theorem namesCurrent_of_meetsAlike {parser : Parser Result}
    (itself : ∀ token, parser.MeetsAlike token token) : parser.NamesCurrent := by
  intro stream error failed
  rw [head?_run, tokens_run]
  rw [run_fst] at failed
  exact found_of_parse itself (Prod.ext failed rfl)

end Parser

/-- Every parser of the library meets a token like itself. -/
theorem Construct.meetsAlike_self (operators : Operators) (construct : Construct)
    (token : Option Token) : (construct.parser operators).MeetsAlike token token := by
  have expressions := Parser.meetsAlike_expression_self operators token
  have prototypes := Parser.meetsAlike_prototype_self token
  have keywords (word : Token) (what : Expectation) :
      (Parser.keyword word what).MeetsAlike token token := Parser.meetsAlike_keyword .rfl what
  cases construct with
  | expression => exact expressions
  | prototype => exact prototypes
  | definition => exact ((keywords _ .defineWord).andThen (prototypes.andThen expressions)).map _
  | declaration => exact ((keywords _ .declareWord).andThen prototypes).map _
  | topLevel => exact expressions.map _
  | item => exact Parser.meetsAlike_item_self operators token

/-- Every parser of the library names the current token in its errors. -/
theorem Construct.namesCurrent (operators : Operators) (construct : Construct) :
    (construct.parser operators).NamesCurrent :=
  Parser.namesCurrent_of_meetsAlike (construct.meetsAlike_self operators)

end ExprShell
