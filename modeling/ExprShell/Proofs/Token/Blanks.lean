import ExprShell.Proofs.Text.Classes
import ExprShell.Token.Lexeme
import Mathlib.Data.List.TakeWhile
/-!
# Blanks between lexemes

A blank ends every lexeme and starts none, so the lexemes of a text with a blank in it are those in
front of the blank and those behind it.
-/

namespace ExprShell

namespace Lexeme

theorem ofText_blank {first : Char} {rest : List Char} (blank : isBlank first = true) :
    ofText (first :: rest) = ofText rest := by
  rw [ofText]
  simp [blank]

/-- Cutting off a lexeme stops at a blank at the latest. -/
theorem split_append_blank {blank : Char} (isBlank : isBlank blank = true) (first : Char)
    (front rest : List Char) :
    split first (front ++ blank :: rest) =
      ((split first front).1, (split first front).2 ++ blank :: rest) := by
  have noWord := isAlphanum_eq_false_of_isBlank isBlank
  have noDigit := isDigit_eq_false_of_isAlphanum noWord
  have noPoint : blank ≠ '.' := by
    rintro rfl
    revert isBlank
    decide
  unfold split
  rw [takeWhile_append_cons noWord, dropWhile_append_cons noWord, takeWhile_append_cons noDigit,
    dropWhile_append_cons noDigit]
  by_cases letter : first.isAlpha = true
  · simp only [letter, if_true]
  by_cases digit : first.isDigit = true
  · simp only [letter, digit, Bool.false_eq_true, if_false, if_true]
    cases dropped : front.dropWhile Char.isDigit with
    | nil => simp [noPoint]
    | cons next after =>
      by_cases point : next = '.'
      · subst point
        simp only [List.cons_append]
        rw [takeWhile_append_cons noDigit, dropWhile_append_cons noDigit]
      · simp [point]
  · simp only [letter, digit, Bool.false_eq_true, if_false]
    split <;> rfl

/-- A blank separates what is in front of it from what is behind it. -/
theorem ofText_append_blank {blank : Char} (isBlank : ExprShell.isBlank blank = true)
    (front rest : List Char) :
    ofText (front ++ blank :: rest) = ofText front ++ ofText rest := by
  fun_induction ofText front with
  | case1 => rw [List.nil_append, List.nil_append, ofText_blank isBlank]
  | case2 first others visible inductionHypothesis =>
    rw [List.cons_append, ofText_blank visible, inductionHypothesis]
  | case3 first others visible inductionHypothesis =>
    rw [List.cons_append, ofText, if_neg visible, split_append_blank isBlank,
      inductionHypothesis, List.cons_append]

end Lexeme

/-- A text without a comment sign has nothing to leave out. -/
theorem withoutComment_eq_self {text : List Char} (noComment : '#' ∉ text) :
    withoutComment text = text := by
  have all : ∀ c ∈ text, (c != '#') = true :=
    fun c member => bne_iff_ne.mpr fun same => noComment (same ▸ member)
  rw [withoutComment, List.takeWhile_eq_self_iff.mpr all, List.dropWhile_eq_nil_iff.mpr all,
    List.dropWhile_nil, List.append_nil]

/-- A line without its newline is cut off at its first comment sign. -/
theorem withoutComment_of_notMem {line : List Char} (plain : '\n' ∉ line) :
    withoutComment line = line.takeWhile (· != '#') := by
  have rest : (line.dropWhile (· != '#')).dropWhile (· != '\n') = [] := by
    refine List.dropWhile_eq_nil_iff.mpr fun c member => bne_iff_ne.mpr ?_
    rintro rfl
    exact plain ((List.dropWhile_suffix _).mem member)
  rw [withoutComment, rest, List.append_nil]

namespace Token

/-- A comment is cut off up to the newline that ends its line. -/
theorem withoutComment_append_newline {text : List Char} (plain : '\n' ∉ text) :
    withoutComment (text ++ ['\n']) = withoutComment text ++ ['\n'] := by
  have inLine : ∀ c ∈ text, (c != '\n') = true :=
    fun c member => bne_iff_ne.mpr fun same => plain (same ▸ member)
  have before : ∀ c ∈ text.takeWhile (· != '#'), (c != '#') = true :=
    fun c member => List.mem_takeWhile_imp (p := (· != '#')) member
  have comment : (text.dropWhile (· != '#')).dropWhile (· != '\n') = [] :=
    List.dropWhile_eq_nil_iff.mpr fun c member =>
      inLine c ((List.dropWhile_suffix _).mem member)
  have parts := List.takeWhile_append_dropWhile (p := (· != '#')) (l := text)
  cases rest : text.dropWhile (· != '#') with
  | nil =>
    rw [rest, List.append_nil] at parts
    have all : ∀ c ∈ text ++ ['\n'], (c != '#') = true := by
      intro c member
      rcases List.mem_append.mp member with inside | newline
      · exact before c (parts.symm ▸ inside)
      · rw [List.mem_singleton.mp newline]
        decide
    rw [withoutComment, withoutComment, List.takeWhile_eq_self_iff.mpr all,
      List.dropWhile_eq_nil_iff.mpr all, rest, parts, List.dropWhile_nil, List.append_nil,
      List.append_nil]
  | cons sign others =>
    have outside : (sign != '#') = false := by simpa using outside_of_dropWhile rest
    have shape : text ++ ['\n'] =
        text.takeWhile (· != '#') ++ sign :: (others ++ ['\n']) := by
      calc text ++ ['\n'] = text.takeWhile (· != '#') ++ text.dropWhile (· != '#') ++ ['\n'] := by
            rw [parts]
        _ = _ := by rw [rest, List.append_assoc, List.cons_append]
    rw [rest] at comment
    rw [withoutComment, withoutComment, shape,
      takeWhile_append_outside before (startsOutside_cons outside),
      dropWhile_append_outside before (startsOutside_cons outside), rest, comment,
      List.append_nil, ← List.cons_append, dropWhile_append_cons (by decide), comment,
      List.nil_append]

/-- A newline at the end of a line is not read as anything. -/
theorem ofText_append_newline {text : List Char} (plain : '\n' ∉ text) :
    ofText (text ++ ['\n']) = ofText text := by
  have blank : isBlank '\n' = true := by decide
  have nothing : Lexeme.ofText [] = [] := by rw [Lexeme.ofText]
  rw [ofText, withoutComment_append_newline plain, Lexeme.ofText_append_blank blank, nothing,
    List.append_nil, ofText]

end Token

end ExprShell
