import ExprShell.Console
import ExprShell.Number.Shortest
/-!
# Native functions

The functions that programs can declare and call without defining them. Each takes one number,
writes something about it and gives zero.
-/

namespace ExprShell

/-- A function that is built in. -/
inductive NativeFunction
  | putChar
  | printNumber
deriving DecidableEq, Repr

namespace NativeFunction

/-- All native functions. -/
def all : List NativeFunction := [putChar, printNumber]

/-- The name programs declare a native function by. -/
def name : NativeFunction -> String
  | putChar => "putchard"
  | printNumber => "printd"

/-- The native function of a name. -/
def ofName? (name : String) : Option NativeFunction :=
  all.find? fun function => function.name == name

/-- Where a native function writes. -/
def channel : NativeFunction -> Channel
  | putChar => .diagnostics
  | printNumber => .results

/-- What a native function writes: the character whose code is the whole part of its argument, or
the argument on a line of its own. -/
def output : NativeFunction -> Binary64 -> String
  | putChar, x => String.singleton (Char.ofNat x.toByte.toNat)
  | printNumber, x => x.text ++ "\n"

/-- What a native function gives. -/
def value (_function : NativeFunction) (_argument : Binary64) : Binary64 := .zero

end NativeFunction

end ExprShell
