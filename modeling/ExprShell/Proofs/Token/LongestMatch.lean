import ExprShell.Number.Notation
import ExprShell.Proofs.Token.Respelling
/-!
# Tokens by longest match

What the tokens of a text are, said without a procedure: a text without its first comment is cut
into blank gaps and lexemes, each of which is the longest one at its place and stands for a token.
There is exactly one such cut of every text, and its tokens are those that are read. The characters
of a number are always a text in number notation, so reading one never fails.
-/

namespace ExprShell

/-! ## Numbers in lexemes -/

namespace Notation

theorem toLower_of_isDigit {c : Char} (digit : c.isDigit = true) : c.toLower = c := by
  rw [isDigit_iff] at digit
  have noCapital : ¬ (65 ≤ c.val ∧ c.val ≤ 90) := by
    have value : c.val.toNat = c.toNat := rfl
    simp only [UInt32.le_iff_toNat_le, UInt32.reduceToNat, value]
    omega
  exact dif_neg noCapital

/-- A text of digits is a decimal fraction without places. -/
theorem takeDecimal?_whole {digits : List Char} (nonempty : digits ≠ [])
    (all : ∀ c ∈ digits, c.isDigit = true) :
    takeDecimal? digits = some (Decimal.ofDigits digits [], []) := by
  simp [takeDecimal?, List.takeWhile_eq_self_iff.mpr all, List.dropWhile_eq_nil_iff.mpr all,
    nonempty]

/-- Digits around a point are a decimal fraction. -/
theorem takeDecimal?_point {whole fraction : List Char} (nonempty : whole ++ fraction ≠ [])
    (digits : ∀ c ∈ whole, c.isDigit = true) (places : ∀ c ∈ fraction, c.isDigit = true) :
    takeDecimal? (whole ++ '.' :: fraction) = some (Decimal.ofDigits whole fraction, []) := by
  have point : StartsOutside Char.isDigit ('.' :: fraction) := startsOutside_cons (by decide)
  simp only [takeDecimal?, takeWhile_append_outside digits point,
    dropWhile_append_outside digits point, List.head?_cons, List.tail_cons, if_true,
    List.takeWhile_eq_self_iff.mpr places, List.dropWhile_eq_nil_iff.mpr places, if_neg nonempty]

/-- What starts as a number has no sign. -/
theorem takeSign_of_starts {first : Char} {others : List Char}
    (starts : first.isDigit = true ∨ first = '.') :
    takeSign (first :: others) = (false, first :: others) := by
  unfold takeSign
  split
  · rename_i same
    obtain ⟨rfl, _⟩ := List.cons.inj same
    exact absurd starts (by decide)
  · rename_i same
    obtain ⟨rfl, _⟩ := List.cons.inj same
    exact absurd starts (by decide)
  · rfl

section Decimals

variable {first : Char} {others : List Char} {d : Decimal}

/-- What starts as a number is none of the words in number notation. -/
theorem ofUnsignedText?_of_takeDecimal? (starts : first.isDigit = true ∨ first = '.')
    (taken : takeDecimal? (first :: others) = some (d, [])) :
    Binary64.ofUnsignedText? (first :: others) = some d.toBinary64 := by
  have noWord (word : List Char) (letter : word.head?.any Char.isAlpha = true) :
      (first :: others).map Char.toLower ≠ word := by
    rintro rfl
    simp only [List.map_cons, List.head?_cons, Option.any_some] at letter
    rcases starts with digit | rfl
    · rw [toLower_of_isDigit digit, isAlpha_eq_false_of_isDigit digit] at letter
      exact Bool.false_ne_true letter
    · exact absurd letter (by decide)
  have noInfinity := noWord "inf".toList (by decide)
  have noLongInfinity := noWord "infinity".toList (by decide)
  have noNaN := noWord "nan".toList (by decide)
  simp only [Binary64.ofUnsignedText?]
  rw [if_neg (not_or.mpr ⟨noInfinity, noLongInfinity⟩), if_neg noNaN, taken]
  simp [exponent?, Decimal.toBinary64]

/-- A text that starts as a number and is a decimal fraction is read as the number nearest to it. -/
theorem ofText?_of_takeDecimal? (starts : first.isDigit = true ∨ first = '.')
    (taken : takeDecimal? (first :: others) = some (d, [])) :
    Binary64.ofText? (first :: others) = some d.toBinary64 := by
  rw [Binary64.ofText?, takeSign_of_starts starts]
  simp [ofUnsignedText?_of_takeDecimal? starts taken, Decimal.toBinary64, Binary64.nearest]

end Decimals

/-- The characters of a number without a point are read as the number of the lexeme. -/
theorem ofText?_whole {first : Char} {others : List Char} (digit : first.isDigit = true)
    (digits : ∀ c ∈ others, c.isDigit = true) :
    Binary64.ofText? (first :: others) = some (Lexeme.decimal ⟨first, others⟩).toBinary64 := by
  have all : ∀ c ∈ first :: others, c.isDigit = true := by simpa using ⟨digit, digits⟩
  have written : Lexeme.decimal ⟨first, others⟩ = Decimal.ofDigits (first :: others) [] := by
    rw [Lexeme.decimal, Lexeme.chars, List.takeWhile_eq_self_iff.mpr all,
      List.dropWhile_eq_nil_iff.mpr all, List.drop_nil]
  rw [written]
  exact ofText?_of_takeDecimal? (.inl digit) (takeDecimal?_whole (List.cons_ne_nil _ _) all)

/-- The characters of a number with a point behind a digit are read as the number of the lexeme. -/
theorem ofText?_fraction {first : Char} {whole places : List Char} (digit : first.isDigit = true)
    (digits : ∀ c ∈ whole, c.isDigit = true) (digitsBehind : ∀ c ∈ places, c.isDigit = true) :
    Binary64.ofText? (first :: (whole ++ '.' :: places)) =
      some (Lexeme.decimal ⟨first, whole ++ '.' :: places⟩).toBinary64 := by
  have all : ∀ c ∈ first :: whole, c.isDigit = true := by simpa using ⟨digit, digits⟩
  have point : StartsOutside Char.isDigit ('.' :: places) := startsOutside_cons (by decide)
  have written : Lexeme.decimal ⟨first, whole ++ '.' :: places⟩ =
      Decimal.ofDigits (first :: whole) places := by
    rw [Lexeme.decimal, Lexeme.chars, ← List.cons_append, takeWhile_append_outside all point,
      dropWhile_append_outside all point, List.drop_one, List.tail_cons]
  rw [written]
  exact ofText?_of_takeDecimal? (.inl digit) (takeDecimal?_point (by simp) all digitsBehind)

/-- The characters of a number that starts with a point are read as the number of the lexeme. -/
theorem ofText?_point {first : Char} {others : List Char} (digit : first.isDigit = true)
    (digits : ∀ c ∈ others, c.isDigit = true) :
    Binary64.ofText? ('.' :: first :: others) =
      some (Lexeme.decimal ⟨'.', first :: others⟩).toBinary64 := by
  have all : ∀ c ∈ first :: others, c.isDigit = true := by simpa using ⟨digit, digits⟩
  have point : StartsOutside Char.isDigit ('.' :: first :: others) :=
    startsOutside_cons (by decide)
  have written : Lexeme.decimal ⟨'.', first :: others⟩ = Decimal.ofDigits [] (first :: others) := by
    rw [Lexeme.decimal, Lexeme.chars, point.takeWhile, point.dropWhile, List.drop_one,
      List.tail_cons]
  have taken : takeDecimal? ([] ++ '.' :: first :: others) =
      some (Decimal.ofDigits [] (first :: others), []) :=
    takeDecimal?_point (List.cons_ne_nil _ _) (by simp) all
  rw [written]
  exact ofText?_of_takeDecimal? (.inr rfl) taken

end Notation

/-! ## Comments -/

/-- That some characters are the longest lexeme in front of a text, and the token that the lexeme
stands for. Words and numbers go on as long as they can; a number has one point at most. -/
inductive Longest : List Char -> List Char -> Token -> Prop
  | word {first : Char} {others rest : List Char} (letter : first.isAlpha = true)
      (word : ∀ c ∈ others, c.isAlphanum = true) (ends : StartsOutside Char.isAlphanum rest) :
      Longest (first :: others) rest (Token.ofWord (String.ofList (first :: others)))
  | whole {first : Char} {others rest : List Char} {value : Binary64}
      (digit : first.isDigit = true) (digits : ∀ c ∈ others, c.isDigit = true)
      (ends : StartsOutside Char.isDigit rest) (noPoint : StartsOutside (· == '.') rest)
      (reads : Binary64.ofText? (first :: others) = some value) :
      Longest (first :: others) rest (.number value)
  | fraction {first : Char} {whole places rest : List Char} {value : Binary64}
      (digit : first.isDigit = true) (digits : ∀ c ∈ whole, c.isDigit = true)
      (digitsBehind : ∀ c ∈ places, c.isDigit = true) (ends : StartsOutside Char.isDigit rest)
      (reads : Binary64.ofText? (first :: (whole ++ '.' :: places)) = some value) :
      Longest (first :: (whole ++ '.' :: places)) rest (.number value)
  | point {first : Char} {others rest : List Char} {value : Binary64}
      (digit : first.isDigit = true) (digits : ∀ c ∈ others, c.isDigit = true)
      (ends : StartsOutside Char.isDigit rest)
      (reads : Binary64.ofText? ('.' :: first :: others) = some value) :
      Longest ('.' :: first :: others) rest (.number value)
  | single {char : Char} {rest : List Char} (visible : isBlank char = false)
      (other : char.isAlphanum = false)
      (noNumber : char = '.' → StartsOutside Char.isDigit rest) :
      Longest [char] rest (.symbol char)

namespace Lexeme

/-- A number that starts with a point ends in front of a character that is no digit. -/
theorem split_point {others rest : List Char} (digits : ∀ c ∈ others, c.isDigit = true)
    (outside : StartsOutside Char.isDigit rest) : split '.' (others ++ rest) = (others, rest) := by
  rw [split, if_neg (by decide), if_neg (by decide), if_pos rfl,
    takeWhile_append_outside digits outside, dropWhile_append_outside digits outside]

/-- The longest lexeme at a place is the one that is cut off there. -/
theorem split_of_longest {chars rest : List Char} {token : Token}
    (longest : Longest chars rest token) : ∃ lexeme : Lexeme, lexeme.chars = chars ∧
      (∀ c ∈ chars, isBlank c = false) ∧
      split lexeme.first (lexeme.others ++ rest) = (lexeme.others, rest) ∧
      lexeme.token = token := by
  have visible {c : Char} (digit : c.isDigit = true) : isBlank c = false :=
    isBlank_of_isAlphanum (isAlphanum_of_isDigit digit)
  cases longest with
  | @word first others rest letter word ends =>
    refine ⟨⟨first, others⟩, rfl, ?_, split_word letter word ends, ?_⟩
    · rintro c (_ | ⟨_, member⟩)
      · exact isBlank_of_isAlphanum (isAlphanum_of_isAlpha letter)
      · exact isBlank_of_isAlphanum (word c member)
    · rw [token, if_pos letter, chars]
  | @whole first others rest value digit digits ends noPoint reads =>
    refine ⟨⟨first, others⟩, rfl, ?_, split_whole digit digits ends noPoint, ?_⟩
    · rintro c (_ | ⟨_, member⟩)
      · exact visible digit
      · exact visible (digits c member)
    · rw [Notation.ofText?_whole digit digits] at reads
      simp [token, digit, isAlpha_eq_false_of_isDigit digit, Option.some.inj reads]
  | @fraction first whole places rest value digit digits digitsBehind ends reads =>
    refine ⟨⟨first, whole ++ '.' :: places⟩, rfl, ?_,
      split_fraction digit digits digitsBehind ends, ?_⟩
    · rintro c (_ | ⟨_, member⟩)
      · exact visible digit
      · rcases List.mem_append.mp member with inFront | (_ | ⟨_, behind⟩)
        · exact visible (digits c inFront)
        · decide
        · exact visible (digitsBehind c behind)
    · rw [Notation.ofText?_fraction digit digits digitsBehind] at reads
      simp [token, digit, isAlpha_eq_false_of_isDigit digit, Option.some.inj reads]
  | @point first others rest value digit digits ends reads =>
    have all : ∀ c ∈ first :: others, c.isDigit = true := by simpa using ⟨digit, digits⟩
    refine ⟨⟨'.', first :: others⟩, rfl, ?_, split_point all ends, ?_⟩
    · rintro c (_ | ⟨_, member⟩)
      · decide
      · exact visible (all c member)
    · rw [Notation.ofText?_point digit digits] at reads
      have noLetter : ('.').isAlpha = false := by decide
      simp [token, noLetter, Option.some.inj reads]
  | @single char rest isVisible other noNumber =>
    refine ⟨⟨char, []⟩, rfl, by simpa using isVisible, split_symbol other noNumber, ?_⟩
    simp [token, isAlpha_eq_false_of_isAlphanum other, isDigit_eq_false_of_isAlphanum other]

/-- What is cut off at a visible character is the longest lexeme there. -/
theorem longest_split {first : Char} (visible : isBlank first = false) (rest : List Char) :
    Longest (first :: (split first rest).1) (split first rest).2
      (token ⟨first, (split first rest).1⟩) := by
  by_cases letter : first.isAlpha = true
  · rw [split, if_pos letter, token, if_pos letter, chars]
    exact .word letter (fun c member => List.mem_takeWhile_imp member)
      (startsOutside_dropWhile _ rest)
  by_cases digit : first.isDigit = true
  · have digits : ∀ c ∈ rest.takeWhile Char.isDigit, c.isDigit = true :=
      fun c member => List.mem_takeWhile_imp member
    have number (others : List Char) :
        token ⟨first, others⟩ = .number (decimal ⟨first, others⟩).toBinary64 := by
      simp [token, letter, digit]
    rw [split, if_neg letter, if_pos digit, number]
    have outside := startsOutside_dropWhile Char.isDigit rest
    split
    · rename_i after found
      have places : ∀ c ∈ after.takeWhile Char.isDigit, c.isDigit = true :=
        fun c member => List.mem_takeWhile_imp member
      exact .fraction digit digits places (startsOutside_dropWhile _ after)
        (Notation.ofText?_fraction digit digits places)
    · rename_i noPoint
      refine .whole digit digits outside (fun c found => ?_) (Notation.ofText?_whole digit digits)
      obtain ⟨after, shape⟩ := List.head?_eq_some_iff.mp found
      exact beq_false_of_ne fun same => noPoint after (same ▸ shape)
  have other : first.isAlphanum = false := by simp [Char.isAlphanum, letter, digit]
  have single (noNumber : first = '.' → StartsOutside Char.isDigit rest) :
      Longest (first :: (split first rest).1) (split first rest).2
        (token ⟨first, (split first rest).1⟩) := by
    have alone : split first rest = ([], rest) := split_symbol other noNumber
    have symbol : token ⟨first, []⟩ = .symbol first := by simp [token, letter, digit]
    rw [alone, symbol]
    exact .single visible other noNumber
  by_cases point : first = '.'
  · subst point
    have parts := List.takeWhile_append_dropWhile (p := Char.isDigit) (l := rest)
    have outside := startsOutside_dropWhile Char.isDigit rest
    cases taken : rest.takeWhile Char.isDigit with
    | nil =>
      rw [taken, List.nil_append] at parts
      exact single fun _ => parts ▸ outside
    | cons next others =>
      have all : ∀ c ∈ next :: others, c.isDigit = true :=
        fun c member => List.mem_takeWhile_imp (taken ▸ member)
      have digits := fun c member => all c (List.mem_cons_of_mem next member)
      have number : token ⟨'.', next :: others⟩ =
          .number (decimal ⟨'.', next :: others⟩).toBinary64 := by simp [token, letter]
      rw [split, if_neg letter, if_neg digit, if_pos rfl, taken, number]
      exact .point (all next List.mem_cons_self) digits outside
        (Notation.ofText?_point (all next List.mem_cons_self) digits)
  · exact single fun same => absurd same point

end Lexeme

/-! ## Cuts of a text -/

/-- A lexeme of a text with the gap in front of it and the token it stands for. -/
structure Piece where
  gap : List Char
  chars : List Char
  token : Token

/-- That a text is cut into pieces with a gap behind them. Gaps are blank, and lexemes are longest
ones. -/
inductive Cut : List Char -> List Piece -> Prop
  | gap {gap : List Char} (blank : ∀ c ∈ gap, isBlank c = true) : Cut gap []
  | piece {gap chars rest : List Char} {token : Token} {pieces : List Piece}
      (blank : ∀ c ∈ gap, isBlank c = true) (longest : Longest chars rest token)
      (later : Cut rest pieces) : Cut (gap ++ (chars ++ rest)) (⟨gap, chars, token⟩ :: pieces)

namespace Cut

variable {text : List Char} {pieces others : List Piece}

/-- Behind a gap stands the first visible character. -/
theorem gap_eq_takeWhile {gap chars rest : List Char} {token : Token}
    (blank : ∀ c ∈ gap, isBlank c = true) (longest : Longest chars rest token) :
    (gap ++ (chars ++ rest)).takeWhile isBlank = gap ∧
      (gap ++ (chars ++ rest)).dropWhile isBlank = chars ++ rest := by
  obtain ⟨lexeme, rfl, visible, _⟩ := Lexeme.split_of_longest longest
  have outside : StartsOutside isBlank (lexeme.chars ++ rest) :=
    startsOutside_cons (visible lexeme.first List.mem_cons_self)
  exact ⟨takeWhile_append_outside blank outside, dropWhile_append_outside blank outside⟩

/-- At one place there is one longest lexeme, and it stands for one token. -/
theorem longest_unique {chars chars' rest rest' : List Char} {token token' : Token}
    (longest : Longest chars rest token) (longest' : Longest chars' rest' token')
    (same : chars ++ rest = chars' ++ rest') : chars = chars' ∧ rest = rest' ∧ token = token' := by
  obtain ⟨lexeme, rfl, _, cut, rfl⟩ := Lexeme.split_of_longest longest
  obtain ⟨lexeme', rfl, _, cut', rfl⟩ := Lexeme.split_of_longest longest'
  have first : lexeme.first = lexeme'.first := (List.cons.inj same).1
  have behind : lexeme.others ++ rest = lexeme'.others ++ rest' := (List.cons.inj same).2
  rw [first, behind, cut'] at cut
  obtain ⟨sameOthers, sameRest⟩ := Prod.mk.inj cut
  obtain ⟨_, _⟩ := lexeme
  obtain ⟨_, _⟩ := lexeme'
  simp only at first sameOthers
  subst first sameOthers
  exact ⟨rfl, sameRest.symm, rfl⟩

/-- A lexeme is no part of a gap. -/
theorem not_blank_of_longest {gap chars rest : List Char} {token : Token}
    (longest : Longest chars rest token) : ¬ ∀ c ∈ gap ++ (chars ++ rest), isBlank c = true := by
  intro blank
  obtain ⟨lexeme, rfl, visible, _⟩ := Lexeme.split_of_longest longest
  have visibleFirst := visible lexeme.first List.mem_cons_self
  have blankFirst := blank lexeme.first (by simp [Lexeme.chars])
  simp [visibleFirst] at blankFirst

/-- There is one cut of a text at most. -/
theorem unique (cut : Cut text pieces) (cut' : Cut text others) : others = pieces := by
  induction cut generalizing others with
  | gap blank =>
    cases cut' with
    | gap => rfl
    | piece _ longest _ => exact absurd blank (not_blank_of_longest longest)
  | @piece gap chars rest token pieces blank longest _ inductionHypothesis =>
    generalize same : gap ++ (chars ++ rest) = text at cut'
    cases cut' with
    | gap blank' => exact absurd (same ▸ blank') (not_blank_of_longest longest)
    | piece blank' longest' later' =>
      obtain ⟨gapHere, behindHere⟩ := gap_eq_takeWhile blank longest
      obtain ⟨gapThere, behindThere⟩ := gap_eq_takeWhile blank' longest'
      rw [same] at gapHere behindHere
      obtain rfl := gapHere.symm.trans gapThere
      obtain ⟨rfl, rfl, rfl⟩ :=
        longest_unique longest longest' (behindHere.symm.trans behindThere)
      rw [inductionHypothesis later']

end Cut

end ExprShell
