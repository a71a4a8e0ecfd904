import ExprShell.Text.Blank
/-!
# Character classes

How the classes of characters that the lexemes are made of exclude each other, and how a run of
elements of one class ends in front of an element outside it.
-/

namespace ExprShell

section CharacterClasses

variable {c : Char}

/-- The digits are one range of characters. -/
theorem isDigit_iff : c.isDigit = true ↔ 48 ≤ c.toNat ∧ c.toNat ≤ 57 := by
  simp [Char.isDigit, UInt32.le_iff_toNat_le]

/-- The letters are two ranges of characters, the capital ones first. -/
theorem isAlpha_iff : c.isAlpha = true ↔
    65 ≤ c.toNat ∧ c.toNat ≤ 90 ∨ 97 ≤ c.toNat ∧ c.toNat ≤ 122 := by
  have ranges : c.isAlpha = (decide (65 ≤ c.val ∧ c.val ≤ 90) ||
    decide (97 ≤ c.val) && decide (c.val ≤ 122)) := rfl
  simp [ranges, UInt32.le_iff_toNat_le]

theorem isBlank_of_isAlphanum (word : c.isAlphanum = true) : isBlank c = false := by
  rw [Char.isAlphanum, Bool.or_eq_true, isAlpha_iff, isDigit_iff] at word
  simp only [isBlank, blankRanges, List.any_cons, List.any_nil, Bool.or_false,
    Bool.or_eq_false_iff, decide_eq_false_iff_not]
  omega

theorem isAlphanum_of_isAlpha (letter : c.isAlpha = true) : c.isAlphanum = true := by
  simp [Char.isAlphanum, letter]

theorem isAlphanum_of_isDigit (digit : c.isDigit = true) : c.isAlphanum = true := by
  simp [Char.isAlphanum, digit]

theorem isDigit_eq_false_of_isAlphanum (other : c.isAlphanum = false) : c.isDigit = false := by
  simp_all [Char.isAlphanum]

theorem isAlpha_eq_false_of_isAlphanum (other : c.isAlphanum = false) : c.isAlpha = false := by
  simp_all [Char.isAlphanum]

theorem isAlpha_eq_false_of_isDigit (digit : c.isDigit = true) : c.isAlpha = false := by
  rw [isDigit_iff] at digit
  rw [← Bool.not_eq_true, isAlpha_iff]
  omega

theorem isDigit_eq_false_of_isAlpha (letter : c.isAlpha = true) : c.isDigit = false := by
  cases digit : c.isDigit with
  | false => rfl
  | true => simp [isAlpha_eq_false_of_isDigit digit] at letter

theorem isAlphanum_eq_false_of_isBlank (blank : isBlank c = true) : c.isAlphanum = false := by
  cases word : c.isAlphanum with
  | false => rfl
  | true => simp [isBlank_of_isAlphanum word] at blank

end CharacterClasses

/-- A list that does not go on with an element of some class. -/
def StartsOutside {α : Type} (inClass : α -> Bool) (rest : List α) : Prop :=
  ∀ element ∈ rest.head?, inClass element = false

section Runs

variable {α : Type} {inClass : α -> Bool} {members rest : List α}

theorem startsOutside_cons {element : α} (outside : inClass element = false) :
    StartsOutside inClass (element :: rest) := by
  rintro other found
  obtain rfl := Option.some.inj found
  exact outside

theorem StartsOutside.takeWhile (outside : StartsOutside inClass rest) :
    rest.takeWhile inClass = [] := by
  cases rest with
  | nil => rfl
  | cons c others => simp [outside c rfl]

theorem StartsOutside.dropWhile (outside : StartsOutside inClass rest) :
    rest.dropWhile inClass = rest := by
  cases rest with
  | nil => rfl
  | cons c others => simp [outside c rfl]

theorem takeWhile_append_outside (all : ∀ c ∈ members, inClass c = true)
    (outside : StartsOutside inClass rest) : (members ++ rest).takeWhile inClass = members := by
  rw [List.takeWhile_append_of_pos all, outside.takeWhile, List.append_nil]

theorem dropWhile_append_outside (all : ∀ c ∈ members, inClass c = true)
    (outside : StartsOutside inClass rest) : (members ++ rest).dropWhile inClass = rest := by
  rw [List.dropWhile_append_of_pos all, outside.dropWhile]

/-- Behind a run of a class stands nothing that belongs to it. -/
theorem startsOutside_dropWhile (inClass : α -> Bool) (members : List α) :
    StartsOutside inClass (members.dropWhile inClass) := by
  intro element found
  have head := List.head?_dropWhile_not inClass members
  rw [Option.mem_def.mp found] at head
  simpa using head

theorem outside_of_dropWhile {element : α} {behind : List α}
    (found : members.dropWhile inClass = element :: behind) : inClass element = false :=
  startsOutside_dropWhile inClass members element (by rw [found]; rfl)

/-- What does not belong to a class ends every run of it. -/
theorem takeWhile_append_cons {element : α} (outside : inClass element = false) :
    (members ++ element :: rest).takeWhile inClass = members.takeWhile inClass := by
  induction members with
  | nil => simp [outside]
  | cons first others inductionHypothesis =>
    rw [List.cons_append, List.takeWhile_cons, List.takeWhile_cons, inductionHypothesis]

theorem dropWhile_append_cons {element : α} (outside : inClass element = false) :
    (members ++ element :: rest).dropWhile inClass =
      members.dropWhile inClass ++ element :: rest := by
  induction members with
  | nil => simp [outside]
  | cons first others inductionHypothesis =>
    rw [List.cons_append, List.dropWhile_cons, List.dropWhile_cons, inductionHypothesis]
    split <;> rfl

end Runs

end ExprShell
