import ExprShell.Text.Utf8
/-!
# Consoles

A console has two outputs, one for results and one for prompts and diagnostics. Each may take only
so many more bytes; a write that does not fit is cut at that point and refused.
-/

namespace ExprShell

/-- The outputs of a console. -/
inductive Channel
  | results
  | diagnostics
deriving DecidableEq, Repr

/-- How many more bytes each output takes; `none` stands for any number. -/
structure Console where
  results : Option Nat
  diagnostics : Option Nat
deriving DecidableEq, Repr

namespace Console

/-- A console that takes everything. -/
def unlimited : Console := ⟨none, none⟩

/-- How many more bytes an output takes. -/
def room (console : Console) : Channel -> Option Nat
  | .results => console.results
  | .diagnostics => console.diagnostics

/-- The console with other room on one output. -/
def withRoom (console : Console) (channel : Channel) (room : Option Nat) : Console :=
  match channel with
  | .results => { console with results := room }
  | .diagnostics => { console with diagnostics := room }

/-- How many of some bytes an output accepts. -/
def accepted (console : Console) (channel : Channel) (bytes : List UInt8) : List UInt8 :=
  match console.room channel with
  | none => bytes
  | some room => bytes.take room

/-- The console after bytes were written to an output. -/
def after (console : Console) (channel : Channel) (bytes : List UInt8) : Console :=
  console.withRoom channel ((console.room channel).map (· - bytes.length))

/-- Whether an output refuses some of the bytes. -/
def refuses (console : Console) (channel : Channel) (bytes : List UInt8) : Bool :=
  match console.room channel with
  | none => false
  | some room => decide (room < bytes.length)

end Console

end ExprShell
