import ExprShell.Proofs.Token.Respelling
/-!
# Layout and comments

A comment at the end of a line is not read as anything, whatever the line holds. In a text without
comments it does not matter which blanks separate two tokens, newlines included, nor which blanks
stand in front of the first token and behind the last one: the lexemes of all lines together are
those of the whole text, since a newline is a blank and no lexeme spans one.
-/

namespace ExprShell

/-- The tokens of the lines of a text, one line after the other. -/
def Token.ofLines (text : List Char) : List Token := (text.splitOn '\n').flatMap ofText

/-- A run of blanks. -/
structure IsGap (gap : List Char) : Prop where
  nonempty : gap ≠ []
  blank : gap.all isBlank = true

/-- Texts that differ in comments at the ends of lines, or in blanks of a text without comments. -/
inductive Relaid : List Char -> List Char -> Prop
  | comment {before after comment : List Char} (inLine : '\n' ∉ comment)
      (atEnd : after = [] ∨ after.head? = some '\n') :
      Relaid (before ++ after) (before ++ '#' :: comment ++ after)
  | gap {before after gap gap' : List Char} (plain : '#' ∉ before ++ after) (isGap : IsGap gap)
      (isGap' : IsGap gap') : Relaid (before ++ gap ++ after) (before ++ gap' ++ after)
  | leading {text gap : List Char} (plain : '#' ∉ text) (isGap : IsGap gap) :
      Relaid text (gap ++ text)
  | trailing {text gap : List Char} (plain : '#' ∉ text) (isGap : IsGap gap) :
      Relaid text (text ++ gap)
  | symm {text text' : List Char} (relaid : Relaid text text') : Relaid text' text
  | trans {first middle last : List Char} (earlier : Relaid first middle)
      (later : Relaid middle last) : Relaid first last

namespace Lexeme

/-- Blanks in front of a text are no part of its lexemes. -/
theorem ofText_gap_append {gap : List Char} (blank : gap.all isBlank = true) (text : List Char) :
    ofText (gap ++ text) = ofText text := by
  induction gap with
  | nil => rfl
  | cons first others inductionHypothesis =>
    rw [List.all_cons, Bool.and_eq_true] at blank
    rw [List.cons_append, ofText_blank blank.1, inductionHypothesis blank.2]

/-- A gap separates what is in front of it from what is behind it, whatever blanks it is made of. -/
theorem ofText_append_gap {gap : List Char} (isGap : IsGap gap) (before after : List Char) :
    ofText (before ++ gap ++ after) = ofText before ++ ofText after := by
  obtain ⟨first, others, rfl⟩ := List.exists_cons_of_ne_nil isGap.nonempty
  have blank := isGap.blank
  rw [List.all_cons, Bool.and_eq_true] at blank
  rw [List.append_assoc, List.cons_append, ofText_append_blank blank.1, ofText_gap_append blank.2]

end Lexeme

/-- A gap holds no comment sign. -/
theorem IsGap.comment_notMem {gap : List Char} (isGap : IsGap gap) : '#' ∉ gap :=
  fun member => absurd (List.all_eq_true.mp isGap.blank '#' member) (by decide)

namespace Token

theorem ofLines_of_notMem {text : List Char} (plain : '\n' ∉ text) :
    ofLines text = ofText text := by
  rw [ofLines, List.splitOn_eq_singleton plain, List.flatMap_singleton]

/-- A newline separates the lines in front of it from those behind it. -/
theorem ofLines_append_newline (before after : List Char) :
    ofLines (before ++ '\n' :: after) = ofLines before ++ ofLines after := by
  rw [ofLines, List.splitOn_append_cons_self, List.flatMap_append]
  rfl

/-- A comment at the end of a line is cut off, whatever stands in front of it. -/
theorem ofText_append_comment {line comment : List Char} (plain : '\n' ∉ line)
    (inLine : '\n' ∉ comment) : ofText (line ++ '#' :: comment) = ofText line := by
  have together : '\n' ∉ line ++ '#' :: comment := by simp [plain, inLine]
  rw [ofText, ofText, withoutComment_of_notMem together, withoutComment_of_notMem plain,
    takeWhile_append_cons (by decide)]

/-- So is one at the end of the last line of a text. -/
theorem ofLines_append_comment {comment : List Char} (inLine : '\n' ∉ comment)
    (text : List Char) : ofLines (text ++ '#' :: comment) = ofLines text := by
  by_cases plain : '\n' ∈ text
  · obtain ⟨line, rest, rfl, first⟩ := List.eq_append_cons_of_mem plain
    rw [List.append_assoc, List.cons_append, ofLines_append_newline, ofLines_append_newline,
      ofLines_append_comment inLine rest]
  · have together : '\n' ∉ text ++ '#' :: comment := by simp [plain, inLine]
    rw [ofLines_of_notMem plain, ofLines_of_notMem together, ofText_append_comment plain inLine]
termination_by text.length
decreasing_by
  subst_vars
  simp only [List.length_append, List.length_cons]
  omega

/-- Without comments, the tokens of the lines of a text are those of the whole text. -/
theorem ofLines_of_comment_notMem {text : List Char} (plain : '#' ∉ text) :
    ofLines text = (Lexeme.ofText text).map Lexeme.token := by
  by_cases newline : '\n' ∈ text
  · obtain ⟨line, rest, rfl, first⟩ := List.eq_append_cons_of_mem newline
    obtain ⟨plainLine, plainRest⟩ : '#' ∉ line ∧ '#' ∉ rest := by
      simpa [not_or] using plain
    rw [ofLines_append_newline, ofLines_of_notMem first, ofText_of_notMem plainLine,
      ofLines_of_comment_notMem plainRest, Lexeme.ofText_append_blank (by decide),
      List.map_append]
  · rw [ofLines_of_notMem newline, ofText_of_notMem plain]
termination_by text.length
decreasing_by
  subst_vars
  simp only [List.length_append, List.length_cons]
  omega

/-- Texts that differ in their layout have the same tokens. -/
theorem ofLines_relaid {text text' : List Char} (relaid : Relaid text text') :
    ofLines text = ofLines text' := by
  induction relaid with
  | comment inLine atEnd =>
    rename_i before after comment
    rcases atEnd with rfl | newline
    · rw [List.append_nil, List.append_nil, ofLines_append_comment inLine]
    · obtain ⟨rest, rfl⟩ := List.head?_eq_some_iff.mp newline
      rw [ofLines_append_newline, ofLines_append_newline, ofLines_append_comment inLine]
  | gap plain isGap isGap' =>
    obtain ⟨before, after⟩ := not_or.mp (List.mem_append.not.mp plain)
    rw [ofLines_of_comment_notMem (by simp [before, after, isGap.comment_notMem]),
      ofLines_of_comment_notMem (by simp [before, after, isGap'.comment_notMem]),
      Lexeme.ofText_append_gap isGap, Lexeme.ofText_append_gap isGap']
  | leading plain isGap =>
    rw [ofLines_of_comment_notMem plain,
      ofLines_of_comment_notMem (by simp [plain, isGap.comment_notMem]),
      Lexeme.ofText_gap_append isGap.blank]
  | trailing plain isGap =>
    rename_i text gap
    have nothing : Lexeme.ofText [] = [] := by rw [Lexeme.ofText]
    have separated := Lexeme.ofText_append_gap isGap text []
    rw [List.append_nil, nothing, List.append_nil] at separated
    rw [ofLines_of_comment_notMem plain,
      ofLines_of_comment_notMem (by simp [plain, isGap.comment_notMem]), separated]
  | symm _ inductionHypothesis => exact inductionHypothesis.symm
  | trans _ _ earlier later => exact earlier.trans later

end Token

end ExprShell
