import ExprShell.Parser.Expression
/-!
# Reading top-level items

A prototype is a name and parameter names in brackets. A definition is a keyword, a prototype and
an expression; a declaration is a keyword and a prototype; anything else is an expression.
-/

namespace ExprShell

/-- How much of a prototype has been read. Parameters are kept latest first. -/
inductive PrototypeState
  | name
  | opening (function : String)
  | parameters (function : String) (latestFirst : List String)
  | complete (prototype : Prototype)

/-- Goes one token on. -/
def PrototypeState.feed :
    PrototypeState -> Option Token -> Verdict PrototypeState Prototype
  | name, some (.name text) => .shift (opening text)
  | name, token => .reject (.expected .functionName token)
  | opening function, some (.symbol '(') => .shift (parameters function [])
  | opening _, token => .reject (.expected .openingOfParameters token)
  | parameters function latestFirst, some (.name text) =>
    .shift (parameters function (text :: latestFirst))
  | parameters function latestFirst, some (.symbol ')') =>
    .shift (complete ⟨function, latestFirst.reverse⟩)
  | parameters _ _, token => .reject (.expected .closingOfParameters token)
  | complete prototype, _ => .accept prototype

namespace Parser

/-- The parser of prototypes. -/
def prototype : Parser Prototype where
  State := PrototypeState
  start := .name
  feed := PrototypeState.feed
  feed_end state next taken := by
    cases state <;> simp [PrototypeState.feed] at taken

/-- The parser of definitions. -/
def definition (operators : Operators) : Parser Definition :=
  ((keyword .define .defineWord).andThen (prototype.andThen (expression operators))).map
    fun (_, prototype, body) => ⟨prototype, body⟩

/-- The parser of declarations. -/
def declaration : Parser Prototype :=
  ((keyword .declare .declareWord).andThen prototype).map fun (_, prototype) => prototype

/-- The parser of top-level expressions. -/
def topLevel (operators : Operators) : Parser Definition :=
  (expression operators).map Definition.anonymous

/-- The parser of items, which the first token tells apart. -/
def item (operators : Operators) : Parser Item :=
  branch (fun token => token == some .define) ((definition operators).map .definition)
    (branch (fun token => token == some .declare) (declaration.map .declaration)
      ((expression operators).map .expression))

end Parser

end ExprShell
