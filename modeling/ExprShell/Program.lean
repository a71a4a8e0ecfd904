import ExprShell.Number.Binary64
/-!
# Programs

Expressions, function prototypes and the top-level items of a program. Two notions of equality
live here: `=` compares number literals bit by bit, and `sameValue` compares them as numbers.
-/

namespace ExprShell

/-- An expression. The operator of a binary expression is the character it was written with. -/
inductive Expr
  | number (value : Binary64)
  | reference (name : String)
  | binary (operator : Char) (left right : Expr)
  | call (function : String) (arguments : List Expr)
deriving Repr

/-- The name of a function and the names of its parameters. -/
structure Prototype where
  name : String
  parameters : List String
deriving DecidableEq, Repr

namespace Prototype

/-- How many arguments a call has to pass. -/
def arity (prototype : Prototype) : Nat := prototype.parameters.length

/-- The prototype of a bare expression. Its name is none that can be written in a program. -/
def anonymous : Prototype := ⟨"__anon_expr", []⟩

end Prototype

/-- A function with its body. -/
structure Definition where
  prototype : Prototype
  body : Expr
deriving Repr

/-- The nameless function without parameters that computes an expression. -/
def Definition.anonymous (body : Expr) : Definition := ⟨.anonymous, body⟩

/-- A top-level item: a function defined elsewhere, a definition, or an expression to compute. -/
inductive Item
  | declaration (prototype : Prototype)
  | definition (function : Definition)
  | expression (body : Expr)
deriving Repr

/-- An item as it can be put together by hand: an expression is the body of a function, which need
not be the nameless one. -/
inductive Node
  | declaration (prototype : Prototype)
  | definition (function : Definition)
  | expression (function : Definition)
deriving Repr

namespace Item

/-- What an item is called in reports. -/
def describe : Item -> String
  | declaration _ => "an extern"
  | definition _ => "a function definition"
  | expression _ => "a top-level expression"

/-- An item with the function that stands for it. -/
def node : Item -> Node
  | declaration prototype => .declaration prototype
  | definition function => .definition function
  | expression body => .expression (.anonymous body)

/-- The prototype of the function that an item introduces. -/
def prototype : Item -> Prototype
  | declaration prototype => prototype
  | definition function => function.prototype
  | expression _ => .anonymous

end Item

mutual

/-- Whether two expressions have the same shape and equal numbers. -/
def Expr.sameValue : Expr -> Expr -> Bool
  | .number x, .number y => x.sameValue y
  | .reference name, .reference other => name == other
  | .binary operator left right, .binary operator' left' right' =>
    operator == operator' && left.sameValue left' && right.sameValue right'
  | .call function arguments, .call function' arguments' =>
    function == function' && Expr.sameValues arguments arguments'
  | _, _ => false

/-- Whether two lists of expressions agree element by element. -/
def Expr.sameValues : List Expr -> List Expr -> Bool
  | [], [] => true
  | expr :: rest, expr' :: rest' => expr.sameValue expr' && Expr.sameValues rest rest'
  | _, _ => false

end

/-- Whether two definitions have equal prototypes and bodies. -/
def Definition.sameValue (first second : Definition) : Bool :=
  first.prototype == second.prototype && first.body.sameValue second.body

/-- Whether two nodes are of one kind and have equal parts. -/
def Node.sameValue : Node -> Node -> Bool
  | .declaration prototype, .declaration other => prototype == other
  | .definition function, .definition other => function.sameValue other
  | .expression function, .expression other => function.sameValue other
  | _, _ => false

/-- Whether two items are of one kind and have equal parts. -/
def Item.sameValue (first second : Item) : Bool := first.node.sameValue second.node

end ExprShell
