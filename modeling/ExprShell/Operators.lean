import ExprShell.Token.Basic
/-!
# Operator tables

A table gives precedences to characters; a higher precedence binds tighter. A character with a
negative precedence is no binary operator, exactly as one without an entry.
-/

namespace ExprShell

/-- An operator table: entries by ascending character. -/
structure Operators where
  entries : List (Char × Int)
deriving DecidableEq, Repr

namespace Operators

/-- Puts an entry into its place among ascending ones, in place of one of the same character. -/
def insertEntry (char : Char) (precedence : Int) : List (Char × Int) -> List (Char × Int)
  | [] => [(char, precedence)]
  | (other, otherPrecedence) :: rest =>
    if char < other then (char, precedence) :: (other, otherPrecedence) :: rest
    else if char = other then (char, precedence) :: rest
    else (other, otherPrecedence) :: insertEntry char precedence rest

/-- The table with one more entry, which replaces an older one of the same character. -/
def insert (operators : Operators) (char : Char) (precedence : Int) : Operators :=
  ⟨insertEntry char precedence operators.entries⟩

/-- The entry of a character. -/
def lookup (operators : Operators) (char : Char) : Option Int := operators.entries.lookup char

/-- A table without entries. -/
def empty : Operators := ⟨[]⟩

/-- Comparison binds loosest, then sums and differences, then products. -/
def standard : Operators :=
  empty |>.insert '<' 10 |>.insert '+' 20 |>.insert '-' 20 |>.insert '*' 40

/-- The precedence of a character that is a binary operator. -/
def precedence? (operators : Operators) (char : Char) : Option Nat :=
  match operators.lookup char with
  | some precedence => if 0 ≤ precedence then some precedence.toNat else none
  | none => none

/-- A token in operator position as a binary operator, with its precedence. -/
def binary? (operators : Operators) : Option Token -> Option (Char × Nat)
  | some (.symbol char) => (operators.precedence? char).map fun precedence => (char, precedence)
  | _ => none

/-- The first entry of a character is the one that counts. -/
theorem lookup_entry_cons (char first : Char) (precedence : Int) (rest : List (Char × Int)) :
    List.lookup char ((first, precedence) :: rest) =
      if char = first then some precedence else List.lookup char rest := by
  by_cases same : char = first
  · simp [same]
  · have differs : (char == first) = false := beq_eq_false_iff_ne.mpr same
    simp [List.lookup_cons, differs, same]

/-- The entry just put in is found, and the others are as before. -/
theorem lookup_insert (operators : Operators) (char other : Char) (precedence : Int) :
    (operators.insert char precedence).lookup other =
      if other = char then some precedence else operators.lookup other := by
  obtain ⟨entries⟩ := operators
  simp only [insert, lookup]
  induction entries with
  | nil => simp [insertEntry, lookup_entry_cons]
  | cons entry rest inductionHypothesis =>
    obtain ⟨first, firstPrecedence⟩ := entry
    simp only [insertEntry]
    split
    · simp only [lookup_entry_cons]
    · split
      · rename_i same
        subst same
        by_cases found : other = char <;> simp [lookup_entry_cons, found]
      · rename_i different
        by_cases atFirst : other = first
        · simp [atFirst, Ne.symm different]
        · simp [lookup_entry_cons, atFirst, inductionHypothesis]

end Operators

end ExprShell
