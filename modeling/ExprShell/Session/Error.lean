/-!
# Session errors

What can go wrong between a parsed item and its value: generating code for it, and having the
execution engine run that code.
-/

namespace ExprShell

/-- Why no code can be generated for an item. -/
inductive GenerationError
  | unknownVariable (name : String)
  | invalidOperator (operator : Char)
  | unknownFunction (name : String)
  | arityMismatch (name : String) (expected found : Nat)
  | redefinition (name : String)
  | invalidFunction (name : String)
  | voidCall (name : String)
deriving DecidableEq, Repr

/-- The wording of a generation error. -/
def GenerationError.message : GenerationError -> String
  | unknownVariable name => "unknown variable referenced " ++ name
  | invalidOperator operator => "invalid binary operator " ++ String.singleton operator
  | unknownFunction name => "unknown function referenced " ++ name
  | arityMismatch name expected found =>
    "incorrect number of arguments passed to " ++ name ++ ": expected " ++ expected.repr ++
      " found " ++ found.repr
  | redefinition name => "function " ++ name ++ " cannot be redefined"
  | invalidFunction name => "failed to verify function " ++ name
  | voidCall name => "call to " ++ name ++ " produced no value"

/-- Why the execution engine does not do its work. -/
inductive EngineError
  | target (reason : String)
  | engine (reason : String)
  | load (unit : String)
  | unresolved (symbol : String)
  | unload (unit : String)
deriving DecidableEq, Repr

/-- The wording of an engine error. -/
def EngineError.message : EngineError -> String
  | target reason => "failed to initialize native target: " ++ reason
  | engine reason => "failed to create execution engine: " ++ reason
  | load unit => "execution engine refused unit " ++ unit
  | unresolved symbol => "unable to resolve symbol " ++ symbol
  | unload unit => "failed to unload unit " ++ unit

/-- An error of a session. -/
inductive SessionError
  | generation (error : GenerationError)
  | engine (error : EngineError)
deriving DecidableEq, Repr

/-- The wording of a session error is that of its cause. -/
def SessionError.message : SessionError -> String
  | generation error => error.message
  | engine error => error.message

end ExprShell
