import ExprShell.PrototypeTable
import ExprShell.Session.Error
/-!
# Code generation

Code is generated into a unit, which holds functions with and without a body. A function that is
called has to be in the unit; if it is not, it is declared there as the prototype table has it.
What stands between a function and its code is decided here. The code itself is the work of a
backend.
-/

namespace ExprShell

/-- A function in a unit. One without a body is declared only. -/
structure UnitFunction where
  name : String
  arity : Nat
  hasValue : Bool
  hasBody : Bool
deriving DecidableEq, Repr

/-- The function of a prototype without a body. Every function has a value. -/
def UnitFunction.declared (prototype : Prototype) : UnitFunction :=
  ⟨prototype.name, prototype.arity, true, false⟩

/-- The function, with a body if it has a given name. -/
def UnitFunction.givenBody (function : UnitFunction) (name : String) : UnitFunction :=
  if function.name = name then { function with hasBody := true } else function

/-- The functions in a unit, in the order in which they came. -/
structure CodeUnit where
  functions : List UnitFunction
deriving DecidableEq, Repr

namespace CodeUnit

/-- The unit that is open at first. -/
def empty : CodeUnit := ⟨[]⟩

/-- The function of a name. -/
def find? (unit : CodeUnit) (name : String) : Option UnitFunction :=
  unit.functions.find? fun function => function.name == name

/-- Declares a function. -/
def declare (unit : CodeUnit) (prototype : Prototype) : CodeUnit :=
  ⟨unit.functions ++ [.declared prototype]⟩

/-- Gives a function its body. -/
def giveBody (unit : CodeUnit) (name : String) : CodeUnit :=
  ⟨unit.functions.map (·.givenBody name)⟩

/-- Drops a function. -/
def drop (unit : CodeUnit) (name : String) : CodeUnit :=
  ⟨unit.functions.filter fun function => function.name != name⟩

/-- The function of a name, and the unit in which it is declared by now. -/
def provide? (unit : CodeUnit) (table : PrototypeTable) (name : String) :
    Option (UnitFunction × CodeUnit) :=
  match unit.find? name with
  | some function => some (function, unit)
  | none => (table.get? name).map fun prototype =>
    (.declared prototype, unit.declare prototype)

end CodeUnit

/-- The operators that there is code for. -/
def generatedOperators : List Char := ['+', '-', '*', '<']

mutual

/-- Provides what the code of an expression needs, with some names as variables. -/
def Expr.generate (table : PrototypeTable) (scope : List String) :
    Expr -> CodeUnit -> Except GenerationError CodeUnit
  | .number _, unit => .ok unit
  | .reference name, unit =>
    if name ∈ scope then .ok unit else .error (.unknownVariable name)
  | .binary operator left right, unit => do
    let unit ← left.generate table scope unit
    let unit ← right.generate table scope unit
    if operator ∈ generatedOperators then .ok unit else .error (.invalidOperator operator)
  | .call function arguments, unit =>
    match unit.provide? table function with
    | none => .error (.unknownFunction function)
    | some (callee, unit) => do
      if callee.arity ≠ arguments.length then
        throw (.arityMismatch function callee.arity arguments.length)
      let unit ← Expr.generateAll table scope arguments unit
      if callee.hasValue then return unit else throw (.voidCall function)

/-- Provides what the code of several expressions needs, from left to right. -/
def Expr.generateAll (table : PrototypeTable) (scope : List String) :
    List Expr -> CodeUnit -> Except GenerationError CodeUnit
  | [], unit => .ok unit
  | expr :: others, unit => do
    let unit ← expr.generate table scope unit
    Expr.generateAll table scope others unit

end

/-- Gives a function its body. A function that was declared before keeps its number of parameters,
and only as many of the names count. -/
def Definition.generate (function : Definition) (table : PrototypeTable) (unit : CodeUnit) :
    Except GenerationError CodeUnit :=
  let name := function.prototype.name
  match unit.provide? table name with
  | none => .error (.unknownFunction name)
  | some (itself, unit) =>
    if itself.hasBody then .error (.redefinition name)
    else
      function.body.generate table (function.prototype.parameters.take itself.arity)
        (unit.giveBody name)

end ExprShell
