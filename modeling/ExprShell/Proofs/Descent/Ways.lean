import ExprShell.Parser.Descent
import ExprShell.Proofs.Parser.Climbing
/-!
# The ways through a descent

A judgment about descents: that one ends over some tokens with a result, which tokens it leaves, and
that it uses thresholds within a limit only. It has one rule for each thing a descent is made of,
and from these one for each way through the functions of a descent.
-/

namespace ExprShell

namespace Descent

section Rules

variable {First Second : Type} {limit : Int} {tokens middle rest : List Token}

/-- That a descent over tokens ends with a result, that it advances past the tokens that it takes
and past nothing else, which tokens it leaves, and that it uses no thresholds but those from zero to
a limit. -/
def Ends (limit : Int) (descent : Descent First) (tokens : List Token)
    (result : Except SyntaxError First) (rest : List Token) : Prop :=
  ∀ noted passed, ∃ more taken, tokens = taken ++ rest ∧
    descent.on ⟨tokens, noted, passed⟩ =
      some (result, ⟨rest, more ++ noted, (taken.map some).reverse ++ passed⟩) ∧
    ∀ threshold ∈ more, 0 ≤ threshold ∧ threshold ≤ limit

theorem on_bind (descent : Descent First) (next : First -> Descent Second)
    (state : DescentState) : (descent >>= next).on state = (descent.on state).bind fun final =>
      match final.1 with
      | .ok value => (next value).on final.2
      | .error error => some (.error error, final.2) := by
  have unfolded : (descent >>= next).on state = (descent.on state).bind fun final =>
      ExceptT.bindCont next final.1 final.2 := rfl
  rw [unfolded]
  cases descent.on state with
  | none => rfl
  | some final =>
    obtain ⟨result, left⟩ := final
    cases result <;> rfl

theorem ends_pure (value : First) : Ends limit (pure value) tokens (.ok value) tokens := by
  intro noted passed
  exact ⟨[], [], rfl, rfl, by simp⟩

theorem ends_throw (error : SyntaxError) :
    Ends limit (throw error : Descent First) tokens (.error error) tokens := by
  intro noted passed
  exact ⟨[], [], rfl, rfl, by simp⟩

theorem Ends.bind {descent : Descent First} {value : First} {next : First -> Descent Second}
    {result : Except SyntaxError Second} (first : Ends limit descent tokens (.ok value) middle)
    (second : Ends limit (next value) middle result rest) :
    Ends limit (descent >>= next) tokens result rest := by
  intro noted passed
  obtain ⟨more, taken, rfl, run, within⟩ := first noted passed
  obtain ⟨later, takenLater, rfl, runLater, withinLater⟩ :=
    second (more ++ noted) ((taken.map some).reverse ++ passed)
  refine ⟨later ++ more, taken ++ takenLater, (List.append_assoc _ _ _).symm, ?_, ?_⟩
  · rw [on_bind, run, Option.bind_some, List.map_append, List.reverse_append, List.append_assoc,
      List.append_assoc]
    exact runLater
  · intro threshold member
    rcases List.mem_append.mp member with inLater | inFirst
    · exact withinLater threshold inLater
    · exact within threshold inFirst

theorem Ends.bind_error {descent : Descent First} {error : SyntaxError}
    {next : First -> Descent Second} (failed : Ends limit descent tokens (.error error) rest) :
    Ends limit (descent >>= next) tokens (.error error) rest := by
  intro noted passed
  obtain ⟨more, taken, parts, run, within⟩ := failed noted passed
  refine ⟨more, taken, parts, ?_, within⟩
  rw [on_bind, run, Option.bind_some]

theorem Ends.map {descent : Descent First} {result : Except SyntaxError First}
    (ends : Ends limit descent tokens result rest) (change : First -> Second) :
    Ends limit (do return change (← descent)) tokens (result.map change) rest := by
  cases result with
  | ok value => exact ends.bind (ends_pure _)
  | error error => exact ends.bind_error

theorem ends_current : Ends limit current tokens (.ok tokens.head?) tokens := by
  intro noted passed
  exact ⟨[], [], rfl, rfl, by simp⟩

/-- An advance is covered only where there is a token to go past. -/
theorem ends_advance {token : Token} : Ends limit advance (token :: rest) (.ok ()) rest := by
  intro noted passed
  exact ⟨[], [token], rfl, rfl, by simp⟩

theorem ends_note {threshold : Int} (natural : 0 ≤ threshold) (bounded : threshold ≤ limit) :
    Ends limit (note threshold) tokens (.ok ()) tokens := by
  intro noted passed
  exact ⟨[threshold], [], rfl, rfl, by simpa using ⟨natural, bounded⟩⟩

end Rules

/-! ## The ways through the functions of a descent -/

section Ways

variable {operators : Operators} {limit : Int} {tokens middle rest : List Token}

open ExpressionState

theorem ends_operand_number (value : Binary64) :
    Ends limit (operand operators) (.number value :: rest) (.ok (.number value)) rest := by
  rw [operand]
  exact ends_current.bind (ends_advance.bind (ends_pure _))

theorem ends_operand_reference {name : String} (uncalled : rest.head? ≠ some opening) :
    Ends limit (operand operators) (.name name :: rest) (.ok (.reference name)) rest := by
  rw [operand]
  refine ends_current.bind (ends_advance.bind (ends_current.bind ?_))
  rw [if_neg uncalled]
  exact ends_pure _

theorem ends_operand_emptyCall (function : String) :
    Ends limit (operand operators) (.name function :: opening :: closing :: rest)
      (.ok (.call function [])) rest := by
  rw [operand]
  refine ends_current.bind (ends_advance.bind (ends_current.bind ?_))
  rw [List.head?_cons, if_pos rfl]
  refine ends_advance.bind (ends_current.bind ?_)
  rw [List.head?_cons, if_pos rfl]
  exact ends_advance.bind (ends_pure _)

theorem ends_operand_call {function : String} {given : List Token}
    {result : Except SyntaxError (List Expr)} (started : given.head? ≠ some closing)
    (ends : Ends limit (arguments operators) given result rest) :
    Ends limit (operand operators) (.name function :: opening :: given)
      (result.map (.call function)) rest := by
  rw [operand]
  refine ends_current.bind (ends_advance.bind (ends_current.bind ?_))
  rw [List.head?_cons, if_pos rfl]
  refine ends_advance.bind (ends_current.bind ?_)
  rw [if_neg started]
  exact ends.map _

theorem ends_operand_group {inner : Expr}
    (ends : Ends limit (expression operators) tokens (.ok inner) (closing :: rest)) :
    Ends limit (operand operators) (opening :: tokens) (.ok inner) rest := by
  rw [operand]
  refine ends_current.bind (ends_advance.bind (ends.bind (ends_current.bind ?_)))
  rw [List.head?_cons, if_pos rfl]
  exact ends_advance.bind (ends_pure _)

theorem ends_operand_unclosed {inner : Expr}
    (ends : Ends limit (expression operators) tokens (.ok inner) rest)
    (unclosed : rest.head? ≠ some closing) :
    Ends limit (operand operators) (opening :: tokens)
      (.error (.expected .closingBracket rest.head?)) rest := by
  rw [operand]
  refine ends_current.bind (ends_advance.bind (ends.bind (ends_current.bind ?_)))
  rw [if_neg unclosed]
  exact ends_current.bind (ends_throw _)

theorem ends_operand_group_error {error : SyntaxError}
    (failed : Ends limit (expression operators) tokens (.error error) rest) :
    Ends limit (operand operators) (opening :: tokens) (.error error) rest := by
  rw [operand]
  exact ends_current.bind (ends_advance.bind failed.bind_error)

/-- Anything but a number, a name or an opening bracket starts no operand. -/
theorem ends_operand_unknown
    (unknown : ∀ token ∈ tokens.head?, token.startsOperand = false) :
    Ends limit (operand operators) tokens (.error (.unknownToken tokens.head?)) tokens := by
  rw [operand]
  refine ends_current.bind ?_
  split
  · rename_i value found
    exact absurd (unknown _ found) (by simp [Token.startsOperand])
  · rename_i name found
    exact absurd (unknown _ found) (by simp [Token.startsOperand])
  · rename_i found
    exact absurd (unknown _ found) (by simp [Token.startsOperand, opening])
  · exact ends_throw _

theorem ends_arguments_last {first : Expr}
    (ends : Ends limit (expression operators) tokens (.ok first) (closing :: rest)) :
    Ends limit (arguments operators) tokens (.ok [first]) rest := by
  rw [arguments]
  refine ends.bind (ends_current.bind ?_)
  rw [List.head?_cons, if_pos rfl]
  exact ends_advance.bind (ends_pure _)

theorem ends_arguments_more {first : Expr} {result : Except SyntaxError (List Expr)}
    (ends : Ends limit (expression operators) tokens (.ok first) (separator :: middle))
    (later : Ends limit (arguments operators) middle result rest) :
    Ends limit (arguments operators) tokens (result.map (first :: ·)) rest := by
  rw [arguments]
  refine ends.bind (ends_current.bind ?_)
  rw [List.head?_cons, if_neg (by simp [separator, closing])]
  refine ends_current.bind ?_
  rw [List.head?_cons, if_pos rfl]
  exact ends_advance.bind (later.map _)

theorem ends_arguments_misfit {first : Expr}
    (ends : Ends limit (expression operators) tokens (.ok first) rest)
    (unclosed : rest.head? ≠ some closing) (unseparated : rest.head? ≠ some separator) :
    Ends limit (arguments operators) tokens (.error (.expected .argumentEnd rest.head?)) rest := by
  rw [arguments]
  refine ends.bind (ends_current.bind ?_)
  rw [if_neg unclosed]
  refine ends_current.bind ?_
  rw [if_neg unseparated]
  exact ends_current.bind (ends_throw _)

theorem ends_arguments_error {error : SyntaxError}
    (failed : Ends limit (expression operators) tokens (.error error) rest) :
    Ends limit (arguments operators) tokens (.error error) rest := by
  rw [arguments]
  exact failed.bind_error

section Joined

variable {threshold : Int} {left first right : Expr} {operator : Char}
  {result : Except SyntaxError Expr}

theorem ends_joined_stop (below : operators.precedenceOf tokens.head? < threshold) :
    Ends limit (joined operators threshold left) tokens (.ok left) tokens := by
  rw [joined]
  refine ends_current.bind ?_
  rw [if_pos below]
  exact ends_pure _

/-- An operator is read, and its first operand; what is read then depends on what is behind it. -/
theorem ends_joined_operator
    (reached : threshold ≤ operators.precedenceOf (some (.symbol operator)))
    (operandEnds : Ends limit (operand operators) tokens (.ok first) middle)
    (onward : Ends limit
      (if operators.precedenceOf (some (.symbol operator)) < operators.precedenceOf middle.head?
        then do
          let right ← operatorTail operators
            (operators.precedenceOf (some (.symbol operator)) + 1) first
          joined operators threshold (.binary operator left right)
        else joined operators threshold (.binary operator left first)) middle result rest) :
    Ends limit (joined operators threshold left) (.symbol operator :: tokens) result rest := by
  rw [joined]
  refine ends_current.bind ?_
  rw [List.head?_cons, if_neg (Int.not_lt.mpr reached)]
  exact ends_current.bind (ends_advance.bind (operandEnds.bind (ends_current.bind onward)))

theorem ends_joined_operand_error {error : SyntaxError}
    (reached : threshold ≤ operators.precedenceOf (some (.symbol operator)))
    (failed : Ends limit (operand operators) tokens (.error error) rest) :
    Ends limit (joined operators threshold left) (.symbol operator :: tokens) (.error error)
      rest := by
  rw [joined]
  refine ends_current.bind ?_
  rw [List.head?_cons, if_neg (Int.not_lt.mpr reached)]
  exact ends_current.bind (ends_advance.bind failed.bind_error)

theorem ends_operatorTail (natural : 0 ≤ threshold) (bounded : threshold ≤ limit)
    (ends : Ends limit (joined operators threshold left) tokens result rest) :
    Ends limit (operatorTail operators threshold left) tokens result rest := by
  rw [operatorTail]
  exact (ends_note natural bounded).bind ends

end Joined

end Ways

end Descent

end ExprShell
