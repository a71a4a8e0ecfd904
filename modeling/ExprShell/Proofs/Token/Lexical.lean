import ExprShell.Proofs.Source.Lines
import ExprShell.Proofs.Text.Decoding
import ExprShell.Proofs.Token.Blanks
import ExprShell.Token.Spelling
/-!
# The tokens of a source

Whatever bytes a source gives, its names are names and no keywords, its numbers are numbers without
a sign, and its symbols are visible characters that start neither a word, nor a number, nor a
comment. A line holds one comment at most, so leaving out the first comment of each line leaves out
all of them.
-/

namespace ExprShell

/-- Whether a token can stand in a text. A number with too many digits is an infinity, which can
stand in a text but has no spelling. -/
def Token.isLexical : Token -> Bool
  | define => true
  | declare => true
  | name text => isName text
  | number value => !value.isNaN && !value.negative
  | symbol char => isSymbol char

namespace Lexeme

variable {text : List Char} {lexeme : Lexeme}

/-- A lexeme starts with a visible character of its text, and a word goes on with letters and
digits. -/
theorem of_mem_ofText (member : lexeme ∈ ofText text) :
    isBlank lexeme.first = false ∧ lexeme.first ∈ text ∧
      (lexeme.first.isAlpha = true → ∀ c ∈ lexeme.others, c.isAlphanum = true) := by
  fun_induction ofText text with
  | case1 => simp at member
  | case2 first rest blank inductionHypothesis =>
    obtain ⟨visible, inRest, word⟩ := inductionHypothesis member
    exact ⟨visible, List.mem_cons_of_mem first inRest, word⟩
  | case3 first rest visible inductionHypothesis =>
    rcases List.mem_cons.mp member with rfl | later
    · refine ⟨by simpa using visible, List.mem_cons_self, fun letter c inside => ?_⟩
      rw [split, if_pos letter] at inside
      exact List.mem_takeWhile_imp inside
    · obtain ⟨visible, inRest, word⟩ := inductionHypothesis later
      have suffix : (split first rest).2 <:+ rest := ⟨_, split_append first rest⟩
      exact ⟨visible, List.mem_cons_of_mem first (suffix.mem inRest), word⟩

/-- A word is a keyword or a name. -/
theorem isLexical_ofWord {first : Char} {others : List Char} (letter : first.isAlpha = true)
    (word : ∀ c ∈ others, c.isAlphanum = true) :
    (Token.ofWord (String.ofList (first :: others))).isLexical = true := by
  unfold Token.ofWord
  split
  · rfl
  · split
    · rfl
    · rename_i notDefine notDeclare
      simp only [Token.isLexical, isName, String.toList_ofList, Bool.and_eq_true, bne_iff_ne,
        List.all_eq_true]
      exact ⟨⟨⟨letter, word⟩, notDefine⟩, notDeclare⟩

/-- A lexeme outside comments stands for a token that can stand in a text. -/
theorem isLexical_token (visible : isBlank lexeme.first = false) (noComment : lexeme.first ≠ '#')
    (word : lexeme.first.isAlpha = true → ∀ c ∈ lexeme.others, c.isAlphanum = true) :
    lexeme.token.isLexical = true := by
  unfold token
  split
  · rename_i letter
    exact isLexical_ofWord letter (word letter)
  · split
    · simp [Token.isLexical, Decimal.toBinary64]
    · rename_i noLetter noNumber
      simp only [Bool.or_eq_true, not_or, Bool.not_eq_true] at noLetter noNumber
      simp [Token.isLexical, isSymbol, visible, Char.isAlphanum, noLetter, noNumber.1, noComment]

end Lexeme

/-- A line without its comment has no comment sign. -/
theorem comment_notMem_withoutComment {line : List Char} (plain : '\n' ∉ line) :
    '#' ∉ withoutComment line := by
  rw [withoutComment_of_notMem plain]
  intro member
  simpa using List.mem_takeWhile_imp member

/-- The tokens of a line can stand in a text. -/
theorem Token.isLexical_of_mem_ofText {line : List Char} (plain : '\n' ∉ line) {token : Token}
    (member : token ∈ ofText line) : token.isLexical = true := by
  obtain ⟨lexeme, inside, rfl⟩ := List.mem_map.mp member
  obtain ⟨visible, first, word⟩ := Lexeme.of_mem_ofText inside
  refine Lexeme.isLexical_token visible ?_ word
  rintro same
  exact comment_notMem_withoutComment plain (same ▸ first)

/-- The text of a line is what its bytes are decoded to. -/
theorem RawLine.decode?_of_line {raw : RawLine} {text : List Char}
    (read : raw.result = .line text) : Utf8.decode? raw.bytes = some text := by
  unfold RawLine.result at read
  split at read
  · simp at read
  · split at read
    · simp at read
    · split at read
      · rename_i decoded
        rw [decoded, LineResult.line.inj read]
      · simp at read

namespace Source

/-- A newline can only be the last byte that is taken for a line. -/
theorem exists_takeLine_bytes (source : Source) :
    ∃ front, newline ∉ front ∧
      ((takeLine source).bytes = front ∨ (takeLine source).bytes = front ++ [newline]) := by
  fun_induction takeLine source with
  | case1 => exact ⟨[], by simp, .inl rfl⟩
  | case2 => exact ⟨[], by simp, .inl rfl⟩
  | case3 fault rest interrupted inductionHypothesis => exact inductionHypothesis
  | case4 => exact ⟨[], by simp, .inl rfl⟩
  | case5 bytes rest complete later inductionHypothesis =>
    obtain ⟨front, inLine, taken⟩ := inductionHypothesis
    have noNewline : newline ∉ bytes := by
      intro member
      simpa using List.dropWhile_eq_nil_iff.mp complete newline member
    refine ⟨bytes ++ front, by simp [noNewline, inLine], ?_⟩
    rcases taken with taken | taken
    · exact .inl (by rw [taken])
    · exact .inr (by rw [taken, List.append_assoc])
  | case6 bytes rest ending after found =>
    have isNewline : ending = newline := by simpa using outside_of_dropWhile found
    refine ⟨bytes.takeWhile (· != newline), fun member => ?_, .inr (by rw [isNewline])⟩
    simpa using List.mem_takeWhile_imp member

/-- The tokens of a line are those of a text without a newline. -/
theorem exists_plain_of_mem_lines {source : Source} {line : Line} (member : line ∈ source.lines) :
    ∃ plain, '\n' ∉ plain ∧ line.tokens = Token.ofText plain := by
  obtain ⟨count, found⟩ := List.mem_iff_getElem?.mp member
  have within : count < source.lines.length := (List.getElem?_eq_some_iff.mp found).1
  obtain ⟨same, next, read, _⟩ := takeLine_afterLines within
  obtain rfl := Option.some.inj (found.symm.trans next)
  have encoded := Utf8.eq_encodeChars_of_decode? (RawLine.decode?_of_line read)
  obtain ⟨front, inLine, taken⟩ := (source.afterLines count).exists_takeLine_bytes
  have plainOf (text : List Char) (same : Utf8.encodeChars text = front) : '\n' ∉ text := by
    intro newlineInside
    refine inLine (same ▸ List.mem_flatMap.mpr ⟨_, newlineInside, ?_⟩)
    decide
  rcases taken with taken | taken
  · exact ⟨line.text, plainOf _ (encoded.symm.trans taken), rfl⟩
  · obtain ⟨before, after, parts, same, none⟩ :=
      Utf8.exists_newline_of_encodeChars (encoded.symm.trans taken)
    have last : after = [] := by
      cases after with
      | nil => rfl
      | cons c others => simp [String.utf8EncodeChar_ne_nil] at none
    have plain := plainOf _ same
    refine ⟨before, plain, ?_⟩
    rw [Line.tokens, parts, last, Token.ofText_append_newline plain]

/-- The tokens of a source can stand in a text. -/
theorem isLexical_of_mem_tokens {source : Source} {token : Token} (member : token ∈ source.tokens) :
    token.isLexical = true := by
  rw [tokens_eq_flatMap_lines] at member
  obtain ⟨line, inLines, inLine⟩ := List.mem_flatMap.mp member
  obtain ⟨plain, noNewline, tokens⟩ := exists_plain_of_mem_lines inLines
  exact Token.isLexical_of_mem_ofText noNewline (tokens ▸ inLine)

end Source

end ExprShell
