import ExprShell.Proofs.Number.ReadBack
import ExprShell.Proofs.Token.Blanks
import ExprShell.Token.Spelling
/-!
# Spelled tokens are read back

The spelling of a token is one lexeme wherever the character behind it cannot belong to that lexeme,
and the lexeme stands for the token. `Token.EndsBefore` says in front of which texts that is so.
-/

namespace ExprShell

namespace Lexeme

variable {first : Char} {others rest : List Char}

/-- A lexeme is cut off if it is what belongs to its first character. -/
theorem ofText_cons_append (visible : isBlank first = false)
    (cut : split first (others ++ rest) = (others, rest)) :
    ofText (first :: (others ++ rest)) = ⟨first, others⟩ :: ofText rest := by
  rw [ofText]
  simp [visible, cut]

/-- A word ends in front of a character that is neither letter nor digit. -/
theorem split_word (letter : first.isAlpha = true) (word : ∀ c ∈ others, c.isAlphanum = true)
    (outside : StartsOutside Char.isAlphanum rest) :
    split first (others ++ rest) = (others, rest) := by
  rw [split, if_pos letter, takeWhile_append_outside word outside,
    dropWhile_append_outside word outside]

/-- A number without a point ends in front of a character that is neither digit nor point. -/
theorem split_whole (digit : first.isDigit = true) (digits : ∀ c ∈ others, c.isDigit = true)
    (outside : StartsOutside Char.isDigit rest) (noPoint : StartsOutside (· == '.') rest) :
    split first (others ++ rest) = (others, rest) := by
  have noLetter := isAlpha_eq_false_of_isDigit digit
  simp only [split, noLetter, digit, takeWhile_append_outside digits outside,
    dropWhile_append_outside digits outside, Bool.false_eq_true, if_false, if_true]
  cases rest with
  | nil => rfl
  | cons c after =>
    have differs : c ≠ '.' := by simpa using noPoint c rfl
    split
    · rename_i equal
      exact absurd (List.cons.inj equal).1 differs
    · rfl

/-- A number with a point ends in front of a character that is no digit. -/
theorem split_fraction {whole fraction : List Char} (digit : first.isDigit = true)
    (digits : ∀ c ∈ whole, c.isDigit = true) (places : ∀ c ∈ fraction, c.isDigit = true)
    (outside : StartsOutside Char.isDigit rest) :
    split first (whole ++ '.' :: fraction ++ rest) = (whole ++ '.' :: fraction, rest) := by
  have noLetter := isAlpha_eq_false_of_isDigit digit
  have point : StartsOutside Char.isDigit ('.' :: (fraction ++ rest)) :=
    startsOutside_cons (by decide)
  simp only [split, noLetter, digit, List.append_assoc, List.cons_append,
    takeWhile_append_outside digits point, dropWhile_append_outside digits point,
    takeWhile_append_outside places outside, dropWhile_append_outside places outside,
    Bool.false_eq_true, if_false, if_true]

/-- Any other character is a lexeme of its own, a point only if no digit is behind it. -/
theorem split_symbol (other : first.isAlphanum = false)
    (outside : first = '.' -> StartsOutside Char.isDigit rest) : split first rest = ([], rest) := by
  have noLetter := isAlpha_eq_false_of_isAlphanum other
  have noDigit := isDigit_eq_false_of_isAlphanum other
  rw [split, noLetter, noDigit]
  by_cases point : first = '.'
  · simp [point, (outside point).takeWhile, (outside point).dropWhile]
  · simp [point]

end Lexeme

namespace Token

/-- The texts in front of which the spelling of a token ends. -/
def EndsBefore : Token -> List Char -> Prop
  | number value, rest =>
    StartsOutside Char.isDigit rest ∧
      ('.' ∉ value.text.toList -> StartsOutside (· == '.') rest)
  | symbol char, rest => char = '.' -> StartsOutside Char.isDigit rest
  | _, rest => StartsOutside Char.isAlphanum rest

/-- Every token ends at the end of the text. -/
theorem endsBefore_nil (token : Token) : token.EndsBefore [] := by
  cases token <;> simp [EndsBefore, StartsOutside]

/-- A word of letters and digits is read as the token it stands for. -/
theorem map_token_word_append {word rest : List Char} (nonempty : word ≠ [])
    (letter : word.head?.all Char.isAlpha = true) (all : word.all Char.isAlphanum = true)
    (ends : StartsOutside Char.isAlphanum rest) :
    (Lexeme.ofText (word ++ rest)).map Lexeme.token =
      ofWord (String.ofList word) :: (Lexeme.ofText rest).map Lexeme.token := by
  obtain ⟨first, others, rfl⟩ := List.exists_cons_of_ne_nil nonempty
  have isLetter : first.isAlpha = true := letter
  rw [List.all_eq_true] at all
  have visible := isBlank_of_isAlphanum (isAlphanum_of_isAlpha isLetter)
  have others' := fun c member => all c (List.mem_cons_of_mem _ member)
  have cut := Lexeme.split_word isLetter others' ends
  rw [List.cons_append, Lexeme.ofText_cons_append visible cut, List.map_cons]
  simp [Lexeme.token, isLetter, Lexeme.chars]

/-- The digits of a decimal fraction are read as the number nearest to it. -/
theorem map_token_decimal_append (d : Decimal) {rest : List Char}
    (ends : StartsOutside Char.isDigit rest)
    (noPoint : d.places = 0 -> StartsOutside (· == '.') rest) :
    (Lexeme.ofText (d.text ++ rest)).map Lexeme.token =
      number d.toBinary64 :: (Lexeme.ofText rest).map Lexeme.token := by
  obtain ⟨first, others, whole⟩ := List.exists_cons_of_ne_nil d.whole_ne_nil
  have isDigit : first.isDigit = true := d.isDigit_of_mem_whole (by simp [whole])
  have digits : ∀ c ∈ others, c.isDigit = true :=
    fun c member => d.isDigit_of_mem_whole (by simp [whole, member])
  have visible := isBlank_of_isAlphanum (isAlphanum_of_isDigit isDigit)
  have noLetter := isAlpha_eq_false_of_isDigit isDigit
  by_cases integral : d.places = 0
  · have cut := Lexeme.split_whole isDigit digits ends (noPoint integral)
    have noFraction : d.fraction = [] := List.length_eq_zero_iff.mp (by simp [integral])
    have written : Lexeme.decimal ⟨first, others⟩ = d := by
      have all : ∀ c ∈ first :: others, c.isDigit = true := by simpa using ⟨isDigit, digits⟩
      have outside : StartsOutside Char.isDigit [] := by simp [StartsOutside]
      have taken := takeWhile_append_outside all outside
      have dropped := dropWhile_append_outside all outside
      rw [List.append_nil] at taken dropped
      rw [Lexeme.decimal, Lexeme.chars, taken, dropped, List.drop_nil, ← noFraction, ← whole,
        d.ofDigits_whole_fraction]
    rw [Decimal.text, if_pos integral, whole, List.cons_append,
      Lexeme.ofText_cons_append visible cut, List.map_cons, Lexeme.token, written]
    simp [noLetter, isDigit]
  · have cut := Lexeme.split_fraction isDigit digits
      (fun c member => d.isDigit_of_mem_fraction member) ends
    have written : Lexeme.decimal ⟨first, others ++ '.' :: d.fraction⟩ = d := by
      have all : ∀ c ∈ first :: others, c.isDigit = true := by simpa using ⟨isDigit, digits⟩
      have outside : StartsOutside Char.isDigit ('.' :: d.fraction) :=
        startsOutside_cons (by decide)
      rw [Lexeme.decimal, Lexeme.chars, ← List.cons_append, takeWhile_append_outside all outside,
        dropWhile_append_outside all outside, List.drop_one, List.tail_cons, ← whole,
        d.ofDigits_whole_fraction]
    rw [Decimal.text, if_neg integral, whole, List.cons_append, List.cons_append,
      Lexeme.ofText_cons_append visible cut, List.map_cons, Lexeme.token, written]
    simp [noLetter, isDigit]

/-- The text of a fraction has no point exactly if it has no places. -/
theorem point_notMem_text_iff (d : Decimal) : '.' ∉ d.text ↔ d.places = 0 := by
  have noDigit : ('.').isDigit = false := by decide
  by_cases integral : d.places = 0
  · simp only [Decimal.text, integral, if_true, iff_true]
    intro member
    simp [d.isDigit_of_mem_whole member] at noDigit
  · simp [Decimal.text, integral]

/-- The spelling of a token is read as that token in front of every text where it ends. -/
theorem map_token_spelling_append {token : Token} (spellable : token.isSpellable = true)
    {rest : List Char} (ends : token.EndsBefore rest) :
    (Lexeme.ofText (token.spelling ++ rest)).map Lexeme.token =
      token :: (Lexeme.ofText rest).map Lexeme.token := by
  cases token with
  | define => exact map_token_word_append (by decide) (by decide) (by decide) ends
  | declare => exact map_token_word_append (by decide) (by decide) (by decide) ends
  | name text =>
    obtain ⟨first, others, shape⟩ : ∃ first others, text.toList = first :: others := by
      cases shape : text.toList with
      | nil => simp [isSpellable, isName, shape] at spellable
      | cons first others => exact ⟨first, others, rfl⟩
    simp only [isSpellable, isName, shape, Bool.and_eq_true, bne_iff_ne, ne_eq] at spellable
    obtain ⟨⟨⟨letter, word⟩, notDefine⟩, notDeclare⟩ := spellable
    have all : (first :: others).all Char.isAlphanum = true := by
      rw [List.all_cons, isAlphanum_of_isAlpha letter, word, Bool.true_and]
    have read := map_token_word_append (List.cons_ne_nil first others) letter all ends
    rw [← shape, String.ofList_toList, ofWord, if_neg notDefine, if_neg notDeclare] at read
    exact read
  | number value =>
    simp only [isSpellable, Bool.and_eq_true, Bool.not_eq_true'] at spellable
    have written := Binary64.text_of_finite spellable.1 spellable.2
    have noPoint := ends.2
    rw [written, point_notMem_text_iff] at noPoint
    rw [spelling, written, map_token_decimal_append _ ends.1 noPoint,
      Binary64.toBinary64_shortestDecimal spellable.1 spellable.2]
  | symbol char =>
    simp only [isSpellable, isSymbol, Bool.and_eq_true, Bool.not_eq_true'] at spellable
    obtain ⟨⟨visible, other⟩, _⟩ := spellable
    have cut : Lexeme.split char ([] ++ rest) = ([], rest) := Lexeme.split_symbol other ends
    rw [spelling, List.singleton_append, ← List.nil_append rest,
      Lexeme.ofText_cons_append visible cut, List.map_cons]
    simp [Lexeme.token, isAlpha_eq_false_of_isAlphanum other,
      isDigit_eq_false_of_isAlphanum other]

/-- A spelling is made of letters, digits and symbols. -/
theorem isAlphanum_or_isSymbol_of_mem_spelling {token : Token}
    (spellable : token.isSpellable = true) {c : Char} (member : c ∈ token.spelling) :
    c.isAlphanum = true ∨ isSymbol c = true := by
  cases token with
  | define =>
    have word : define.spelling.all Char.isAlphanum = true := by decide
    exact .inl (List.all_eq_true.mp word c member)
  | declare =>
    have word : declare.spelling.all Char.isAlphanum = true := by decide
    exact .inl (List.all_eq_true.mp word c member)
  | name text =>
    left
    simp only [spelling] at member
    cases shape : text.toList with
    | nil => simp [shape] at member
    | cons first others =>
      simp only [isSpellable, isName, shape, Bool.and_eq_true] at spellable
      rcases List.mem_cons.mp (shape ▸ member) with rfl | later
      · exact isAlphanum_of_isAlpha spellable.1.1.1
      · exact List.all_eq_true.mp spellable.1.1.2 c later
  | number value =>
    simp only [isSpellable, Bool.and_eq_true, Bool.not_eq_true'] at spellable
    rw [spelling, Binary64.text_of_finite spellable.1 spellable.2, Decimal.text] at member
    split at member
    · exact .inl (isAlphanum_of_isDigit (Decimal.isDigit_of_mem_whole _ member))
    · rcases List.mem_append.mp member with whole | later
      · exact .inl (isAlphanum_of_isDigit (Decimal.isDigit_of_mem_whole _ whole))
      · rcases List.mem_cons.mp later with rfl | fraction
        · exact .inr (by decide)
        · exact .inl (isAlphanum_of_isDigit (Decimal.isDigit_of_mem_fraction _ fraction))
  | symbol char =>
    obtain rfl := List.mem_singleton.mp member
    exact .inr spellable

/-- A text without a comment sign is read as it stands. -/
theorem ofText_of_notMem {text : List Char} (plain : '#' ∉ text) :
    ofText text = (Lexeme.ofText text).map Lexeme.token := by
  rw [ofText, withoutComment_eq_self plain]

end Token

end ExprShell
