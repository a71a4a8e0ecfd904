import ExprShell.Proofs.Token.LongestMatch
import ExprShell.Token.Pattern
/-!
# Lexemes are what the patterns match

The match of the token pattern at a visible character is the longest lexeme there, kept under the
name of its kind, and there is no match at a blank. The first match of the comment pattern is the
first comment. So the tokens of a text are those of the matches of the two patterns.
-/

namespace ExprShell

/-! ## Classes -/

namespace CharClass

theorem le_iff_toNat_le {c other : Char} : c ≤ other ↔ c.toNat ≤ other.toNat :=
  UInt32.le_iff_toNat_le

theorem contains_letters : letters.contains = Char.isAlpha := by
  funext c
  rw [Bool.eq_iff_iff, isAlpha_iff]
  simp [contains, letters, le_iff_toNat_le]

theorem contains_digits : digits.contains = Char.isDigit := by
  funext c
  rw [Bool.eq_iff_iff, isDigit_iff]
  simp [contains, digits, le_iff_toNat_le]

theorem contains_lettersAndDigits : lettersAndDigits.contains = Char.isAlphanum := by
  funext c
  rw [Bool.eq_iff_iff, Char.isAlphanum, Bool.or_eq_true, isAlpha_iff, isDigit_iff]
  simp [contains, lettersAndDigits, le_iff_toNat_le, or_assoc]

theorem contains_just (single : Char) : (just single).contains = (· == single) := by
  funext c
  rw [Bool.eq_iff_iff, beq_iff_eq, Char.ext_iff, ← UInt32.toNat_inj]
  simp only [contains, just, le_iff_toNat_le, List.any_cons, List.any_nil, Bool.or_false,
    Bool.bne_false, decide_eq_true_eq]
  change _ ↔ c.toNat = single.toNat
  omega

theorem contains_just_self (single : Char) : (just single).contains single = true := by
  simp [contains_just]

theorem contains_inLine : inLine.contains = (· != '\n') := by
  funext c
  have newline : inLine.contains c = !(just '\n').contains c := by simp [contains, inLine, just]
  rw [newline, contains_just]
  rfl

theorem contains_visible : visible.contains = fun c => !isBlank c := by
  funext c
  simp [contains, visible, isBlank, blankRanges, le_iff_toNat_le]

end CharClass

/-! ## What patterns match -/

namespace Pattern

section Laws

variable {first second : Pattern} {charClass : CharClass} {text rest : List Char}
  {found next : Found}

theorem ways_one_of_outside (outside : StartsOutside charClass.contains text) :
    (one charClass).ways text = [] := by
  cases text with
  | nil => rfl
  | cons c others => simp [outside c rfl]

theorem head?_ways_one {c : Char} (member : charClass.contains c = true) (rest : List Char) :
    ((one charClass).ways (c :: rest)).head? = some ⟨[c], rest, []⟩ := by
  simp [member]

/-- A repetition goes on up to the first character that is outside its class. -/
theorem head?_ways_many {members : List Char} (all : ∀ c ∈ members, charClass.contains c = true)
    (ends : StartsOutside charClass.contains rest) :
    ((many charClass).ways (members ++ rest)).head? = some ⟨members, rest, []⟩ := by
  induction members with
  | nil =>
    cases rest with
    | nil => rfl
    | cons c others => simp [ends c rfl, Found.nothing]
  | cons c others inductionHypothesis =>
    have more := inductionHypothesis fun other member => all other (List.mem_cons_of_mem c member)
    rw [List.cons_append, ways_many_cons, if_pos (all c List.mem_cons_self), List.head?_append,
      List.head?_map, more]
    rfl

theorem head?_ways_many_of_outside (outside : StartsOutside charClass.contains text) :
    ((many charClass).ways text).head? = some (.nothing text) :=
  head?_ways_many (List.forall_mem_nil _) outside

theorem ways_seq_of_nil (none : first.ways text = []) : (seq first second).ways text = [] := by
  simp [none]

/-- A match and the one right behind it are the match of a sequence. -/
theorem head?_ways_seq (matched : (first.ways text).head? = some found)
    (behind : (second.ways found.rest).head? = some next) :
    ((seq first second).ways text).head? = some (found.followedBy next) := by
  obtain ⟨others, parts⟩ := List.head?_eq_some_iff.mp matched
  simp [parts, List.head?_append, behind]

theorem head?_ways_optional (matched : (first.ways text).head? = some found) :
    ((optional first).ways text).head? = some found := by
  simp [List.head?_append, matched]

theorem head?_ways_optional_of_nil (none : first.ways text = []) :
    ((optional first).ways text).head? = some (.nothing text) := by
  simp [none]

theorem head?_ways_either (matched : (first.ways text).head? = some found) (second : Pattern) :
    ((either first second).ways text).head? = some found := by
  simp [List.head?_append, matched]

/-- The second alternative counts where the first one has no match. -/
theorem ways_either_of_nil (none : first.ways text = []) (second : Pattern) :
    (either first second).ways text = second.ways text := by
  simp [none]

theorem ways_group_of_nil (none : first.ways text = []) (name : String) :
    (group name first).ways text = [] := by
  simp [none]

theorem head?_ways_group (matched : (first.ways text).head? = some found) (name : String) :
    ((group name first).ways text).head? = some (found.keptAs name) := by
  simp [matched]

/-- One character at least is taken as soon as the first one is in the class. -/
theorem head?_ways_atLeastOne {c : Char} {others : List Char}
    (member : charClass.contains c = true) (all : ∀ c ∈ others, charClass.contains c = true)
    (ends : StartsOutside charClass.contains rest) :
    ((atLeastOne charClass).ways (c :: (others ++ rest))).head? =
      some ⟨c :: others, rest, []⟩ :=
  head?_ways_seq (head?_ways_one member _) (head?_ways_many all ends)

theorem find?_of_head? (matched : (first.ways text).head? = some found) :
    first.find? text = some ([], found) := by
  cases text with
  | nil => simp [find?, matched]
  | cons c others => simp [find?, matched]

/-- Where there is no match, the search goes on behind the next character. -/
theorem find?_cons_of_nil {c : Char} (none : first.ways (c :: text) = []) :
    first.find? (c :: text) = (first.find? text).map fun (skipped, found) =>
      (c :: skipped, found) := by
  simp [find?, none]

/-- Matches that take something are found one behind the other. -/
theorem findAll_of_find? {skipped : List Char} (here : first.find? text = some (skipped, found))
    (shorter : found.rest.length < text.length) :
    first.findAll text = found :: first.findAll found.rest := by
  rw [findAll, here]
  simp [shorter]

end Laws

/-! ## The token pattern -/

section Tokens

variable {chars text rest : List Char}

theorem head?_ways_token_word {first : Char} {others : List Char} (letter : first.isAlpha = true)
    (all : ∀ c ∈ others, c.isAlphanum = true) (ends : StartsOutside Char.isAlphanum rest) :
    (token.ways (first :: (others ++ rest))).head? =
      some ⟨first :: others, rest, [("ident", first :: others)]⟩ := by
  rw [← CharClass.contains_letters] at letter
  rw [← CharClass.contains_lettersAndDigits] at all ends
  have matched : (word.ways (first :: (others ++ rest))).head? =
      some ⟨first :: others, rest, []⟩ :=
    head?_ways_seq (head?_ways_one letter _) (head?_ways_many all ends)
  exact head?_ways_either (head?_ways_group matched _) _

theorem ways_word_of_outside (noLetter : StartsOutside Char.isAlpha text) :
    word.ways text = [] :=
  ways_seq_of_nil (ways_one_of_outside (CharClass.contains_letters ▸ noLetter))

theorem head?_ways_token_number (noLetter : StartsOutside Char.isAlpha text)
    (matched : (number.ways text).head? = some ⟨chars, rest, []⟩) :
    (token.ways text).head? = some ⟨chars, rest, [("number", chars)]⟩ := by
  rw [token, ways_either_of_nil (ways_group_of_nil (ways_word_of_outside noLetter) _)]
  exact head?_ways_either (head?_ways_group matched _) _

/-- A point alone, or no point, is no number. -/
theorem ways_number_of_outside (noDigit : StartsOutside Char.isDigit text)
    (noFraction : ∀ rest, text = '.' :: rest → StartsOutside Char.isDigit rest) :
    number.ways text = [] := by
  have whole : (atLeastOne .digits).ways text = [] :=
    ways_seq_of_nil (ways_one_of_outside (CharClass.contains_digits ▸ noDigit))
  rw [number, ways_either_of_nil (ways_seq_of_nil whole)]
  cases text with
  | nil => rfl
  | cons c rest =>
    by_cases point : c = '.'
    · subst point
      have digits : (atLeastOne .digits).ways rest = [] :=
        ways_seq_of_nil (ways_one_of_outside (CharClass.contains_digits ▸ noFraction rest rfl))
      simp [CharClass.contains_just_self, digits]
    · apply ways_seq_of_nil
      apply ways_one_of_outside
      apply startsOutside_cons
      simp [CharClass.contains_just, point]

/-- A match that is kept as a number stands for the number that its characters write. -/
theorem ofFound?_number {value : Binary64} (reads : Binary64.ofText? chars = some value) :
    Token.ofFound? ⟨chars, rest, [("number", chars)]⟩ = some (.number value) := by
  change (Binary64.ofText? chars).map Token.number = some (.number value)
  rw [reads]
  rfl

/-- The match of the token pattern at a place is the longest lexeme there, and what is kept under
the name of its kind tells its token. -/
theorem head?_ways_of_longest {stands : Token} (longest : Longest chars rest stands) :
    ∃ found, (token.ways (chars ++ rest)).head? = some found ∧ found.taken = chars ∧
      found.rest = rest ∧ Token.ofFound? found = some stands := by
  have digitsClass := CharClass.contains_digits
  have pointClass := CharClass.contains_just '.'
  cases longest with
  | word letter word ends => exact ⟨_, head?_ways_token_word letter word ends, rfl, rfl, rfl⟩
  | @whole first others rest value digit digits ends noPoint reads =>
    rw [← digitsClass] at digit digits ends
    have noFraction : (one (.just '.')).ways rest = [] :=
      ways_one_of_outside (pointClass ▸ noPoint)
    have matched := head?_ways_either
      (head?_ways_seq (head?_ways_atLeastOne digit digits ends)
        (head?_ways_seq (head?_ways_optional_of_nil noFraction)
          (head?_ways_many_of_outside ends)))
      (seq (one (.just '.')) (atLeastOne .digits))
    simp only [Found.followedBy, Found.nothing, List.append_nil] at matched
    rw [digitsClass] at digit
    have noLetter : StartsOutside Char.isAlpha (first :: (others ++ rest)) :=
      startsOutside_cons (isAlpha_eq_false_of_isDigit digit)
    exact ⟨_, head?_ways_token_number noLetter matched, rfl, rfl, ofFound?_number reads⟩
  | @fraction first whole places rest value digit digits digitsBehind ends reads =>
    rw [← digitsClass] at digit digits digitsBehind ends
    have noDigit : StartsOutside CharClass.digits.contains ('.' :: (places ++ rest)) :=
      startsOutside_cons rfl
    have matched := head?_ways_either
      (head?_ways_seq (head?_ways_atLeastOne digit digits noDigit)
        (head?_ways_seq (head?_ways_optional (head?_ways_one (CharClass.contains_just_self '.') _))
          (head?_ways_many digitsBehind ends)))
      (seq (one (.just '.')) (atLeastOne .digits))
    simp only [Found.followedBy, List.append_nil] at matched
    rw [digitsClass] at digit
    have noLetter : StartsOutside Char.isAlpha (first :: (whole ++ '.' :: (places ++ rest))) :=
      startsOutside_cons (isAlpha_eq_false_of_isDigit digit)
    have shape : first :: (whole ++ '.' :: places) ++ rest =
        first :: (whole ++ '.' :: (places ++ rest)) := by simp
    rw [shape]
    exact ⟨_, head?_ways_token_number noLetter matched, by simp, rfl,
      ofFound?_number (by simpa using reads)⟩
  | @point first others rest value digit digits ends reads =>
    rw [← digitsClass] at digit digits ends
    have noDigit : StartsOutside CharClass.digits.contains ('.' :: first :: (others ++ rest)) :=
      startsOutside_cons rfl
    have matched := head?_ways_seq (head?_ways_one (CharClass.contains_just_self '.') _)
      (head?_ways_atLeastOne digit digits ends)
    have noWhole : (seq (atLeastOne .digits) (seq (optional (one (.just '.'))) (many .digits))).ways
        ('.' :: first :: (others ++ rest)) = [] :=
      ways_seq_of_nil (ways_seq_of_nil (ways_one_of_outside noDigit))
    rw [← ways_either_of_nil noWhole] at matched
    have noLetter : StartsOutside Char.isAlpha ('.' :: first :: (others ++ rest)) :=
      startsOutside_cons rfl
    exact ⟨_, head?_ways_token_number noLetter matched, rfl, rfl, ofFound?_number reads⟩
  | @single char rest visible other noNumber =>
    have noLetter : StartsOutside Char.isAlpha (char :: rest) :=
      startsOutside_cons (isAlpha_eq_false_of_isAlphanum other)
    have noDigit : StartsOutside Char.isDigit (char :: rest) :=
      startsOutside_cons (isDigit_eq_false_of_isAlphanum other)
    have outside := ways_number_of_outside noDigit fun behind same => by
      obtain ⟨rfl, rfl⟩ := List.cons.inj same
      exact noNumber rfl
    have isVisible : CharClass.visible.contains char = true := by
      simp [CharClass.contains_visible, visible]
    have matched := head?_ways_group (head?_ways_one isVisible rest) "char"
    rw [← ways_either_of_nil (ways_group_of_nil outside "number"),
      ← ways_either_of_nil (ways_group_of_nil (ways_word_of_outside noLetter) "ident")] at matched
    exact ⟨_, matched, rfl, rfl, rfl⟩

theorem ways_token_of_blank {blank : Char} (isBlank : isBlank blank = true) (rest : List Char) :
    token.ways (blank :: rest) = [] := by
  have other := isAlphanum_eq_false_of_isBlank isBlank
  have noLetter : StartsOutside Char.isAlpha (blank :: rest) :=
    startsOutside_cons (isAlpha_eq_false_of_isAlphanum other)
  have noDigit : StartsOutside Char.isDigit (blank :: rest) :=
    startsOutside_cons (isDigit_eq_false_of_isAlphanum other)
  have outside := ways_number_of_outside noDigit fun behind same => by
    obtain ⟨rfl, rfl⟩ := List.cons.inj same
    exact absurd isBlank (by decide)
  have noVisible : StartsOutside CharClass.visible.contains (blank :: rest) :=
    startsOutside_cons (by simp [CharClass.contains_visible, isBlank])
  rw [token, ways_either_of_nil (ways_group_of_nil (ways_word_of_outside noLetter) _),
    ways_either_of_nil (ways_group_of_nil outside _)]
  exact ways_group_of_nil (ways_one_of_outside noVisible) _

end Tokens

/-! ## All matches -/

/-- A visible character starts the first match, which takes what the lexeme there takes. -/
theorem exists_find?_token {first : Char} (visible : isBlank first = false) (rest : List Char) :
    ∃ found, token.find? (first :: rest) = some ([], found) ∧
      found.taken = first :: (Lexeme.split first rest).1 ∧
      found.rest = (Lexeme.split first rest).2 ∧
      Token.ofFound? found = some (Lexeme.token ⟨first, (Lexeme.split first rest).1⟩) := by
  obtain ⟨found, matched, taken, behind, stands⟩ :=
    head?_ways_of_longest (Lexeme.longest_split visible rest)
  rw [List.cons_append, Lexeme.split_append] at matched
  exact ⟨found, find?_of_head? matched, taken, behind, stands⟩

theorem find?_token_shorter {text skipped : List Char} {found : Found}
    (here : token.find? text = some (skipped, found)) : found.rest.length < text.length := by
  induction text generalizing skipped with
  | nil => simp [find?, token, word, number, atLeastOne] at here
  | cons first rest inductionHypothesis =>
    cases visible : isBlank first with
    | false =>
      obtain ⟨_, itself, _, behind, _⟩ := exists_find?_token visible rest
      obtain ⟨-, rfl⟩ := Prod.mk.inj (Option.some.inj (itself.symm.trans here))
      rw [behind]
      exact Nat.lt_succ_of_le (Lexeme.split_length_le first rest)
    | true =>
      rw [find?_cons_of_nil (ways_token_of_blank visible rest), Option.map_eq_some_iff] at here
      obtain ⟨⟨_, _⟩, there, same⟩ := here
      obtain ⟨-, rfl⟩ := Prod.mk.inj same
      exact Nat.lt_succ_of_lt (inductionHypothesis there)

theorem findAll_token_of_blank {blank : Char} (isBlank : isBlank blank = true) (rest : List Char) :
    token.findAll (blank :: rest) = token.findAll rest := by
  have behind := find?_cons_of_nil (ways_token_of_blank isBlank rest)
  cases there : token.find? rest with
  | none =>
    rw [there] at behind
    rw [findAll, findAll, there, behind]
    rfl
  | some here =>
    have shorter := find?_token_shorter there
    rw [there] at behind
    rw [findAll_of_find? behind (Nat.lt_succ_of_lt shorter), findAll_of_find? there shorter]

/-- The matches of the token pattern in a text are its lexemes. -/
theorem findAll_token (text : List Char) :
    (token.findAll text).map Found.taken = (Lexeme.ofText text).map Lexeme.chars ∧
      (token.findAll text).map Token.ofFound? =
        (Lexeme.ofText text).map fun lexeme => some lexeme.token := by
  fun_induction Lexeme.ofText text with
  | case1 => simp [findAll, find?, token, word, number, atLeastOne]
  | case2 first rest blank inductionHypothesis =>
    rwa [findAll_token_of_blank blank]
  | case3 first rest visible inductionHypothesis =>
    obtain ⟨found, here, taken, behind, stands⟩ :=
      exists_find?_token (by simpa using visible) rest
    have shorter := find?_token_shorter here
    rw [findAll_of_find? here shorter, behind]
    simp only [List.map_cons, taken, stands, inductionHypothesis, Lexeme.chars, and_self]

/-! ## The comment pattern -/

/-- The first match of the comment pattern is what is left out of a text as its comment. -/
theorem removeFirst_comment (text : List Char) :
    comment.removeFirst text = withoutComment text := by
  induction text with
  | nil => rfl
  | cons first rest inductionHypothesis =>
    by_cases sign : first = '#'
    · subst sign
      have inLine : ∀ c ∈ rest.takeWhile (· != '\n'), CharClass.inLine.contains c = true :=
        fun c member => by simpa [CharClass.contains_inLine] using List.mem_takeWhile_imp member
      have ends := startsOutside_dropWhile (· != '\n') rest
      have atEnd : (rest.dropWhile (· != '\n')).head?.all (· == '\n') = true := by
        cases behind : rest.dropWhile (· != '\n') with
        | nil => rfl
        | cons c others => simpa using outside_of_dropWhile behind
      have stops : (lineEnd.ways (rest.dropWhile (· != '\n'))).head? =
          some (.nothing (rest.dropWhile (· != '\n'))) := by simp [atEnd]
      have matched := head?_ways_seq (head?_ways_one (CharClass.contains_just_self '#') _)
        (head?_ways_seq (head?_ways_many inLine (CharClass.contains_inLine ▸ ends)) stops)
      rw [List.takeWhile_append_dropWhile] at matched
      rw [removeFirst, comment, find?_of_head? matched]
      simp [withoutComment, Found.followedBy, Found.nothing]
    · have noSign : StartsOutside (CharClass.just '#').contains (first :: rest) :=
        startsOutside_cons (by simp [CharClass.contains_just, sign])
      have outside : comment.ways (first :: rest) = [] :=
        ways_seq_of_nil (ways_one_of_outside noSign)
      have goesOn : comment.removeFirst (first :: rest) = first :: comment.removeFirst rest := by
        rw [removeFirst, removeFirst, find?_cons_of_nil outside]
        cases comment.find? rest <;> rfl
      rw [goesOn, inductionHypothesis]
      simp [withoutComment, sign]

end Pattern

/-- The tokens of a text are those of the matches of the token pattern, in what is left of the text
without the first match of the comment pattern. Every match stands for a token. -/
theorem Token.ofText_eq_matches (text : List Char) :
    (Pattern.token.findAll (Pattern.comment.removeFirst text)).map Token.ofFound? =
      (Token.ofText text).map some := by
  rw [Pattern.removeFirst_comment, (Pattern.findAll_token _).2, Token.ofText, List.map_map]
  rfl

end ExprShell
