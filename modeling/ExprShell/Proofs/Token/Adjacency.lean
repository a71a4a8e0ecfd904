import ExprShell.Proofs.Token.Respelling
/-!
# Neighbouring tokens

Which tokens need a space in between: a word, a number or a point in front of a number, a word in
front of a word, and a number without a point in front of a point. In front of every other token the
spelling of a token ends by itself, and a blank ends every lexeme. So a list of tokens is read back
from any text that spells the tokens in order, with single spaces between neighbours at least where
they are needed.
-/

namespace ExprShell

namespace Token

/-- Whether a token is a keyword or a name. -/
def isWord : Token -> Bool
  | define => true
  | declare => true
  | name _ => true
  | _ => false

/-- Whether a token is a number. -/
def isNumber : Token -> Bool
  | number _ => true
  | _ => false

/-- Whether a token is a number spelled without a point. -/
def isPointless : Token -> Bool
  | number value => !value.text.toList.contains '.'
  | _ => false

/-- Whether two neighbouring tokens need a space in between. -/
def clashes (first next : Token) : Bool :=
  (first.isWord || first.isNumber || first == .symbol '.') && next.isNumber ||
    first.isWord && next.isWord || first.isPointless && next == .symbol '.'

end Token

/-- That a text spells some tokens: in order, with one space between neighbours or, where they do
not clash, with none. -/
inductive Spells : List Token -> List Char -> Prop
  | nil : Spells [] []
  | single (token : Token) : Spells [token] token.spelling
  | spaced {token next : Token} {others : List Token} {text : List Char}
      (later : Spells (next :: others) text) :
      Spells (token :: next :: others) (token.spelling ++ ' ' :: text)
  | joined {token next : Token} {others : List Token} {text : List Char}
      (apart : token.clashes next = false) (later : Spells (next :: others) text) :
      Spells (token :: next :: others) (token.spelling ++ text)

namespace Token

variable {first next : Token} {rest : List Char}

/-- What does not clash with a word is no word. -/
theorem isWord_eq_false_of_apart (word : next.isWord = true) (apart : first.clashes next = false) :
    first.isWord = false := by
  simp only [clashes, word, Bool.or_eq_false_iff, Bool.and_true] at apart
  exact apart.1.2

/-- A word starts with a letter. -/
theorem startsOutside_of_isWord (word : next.isWord = true) (spellable : next.isSpellable = true)
    {inClass : Char -> Bool} (noLetters : ∀ c, c.isAlpha = true → inClass c = false) :
    StartsOutside inClass (next.spelling ++ rest) := by
  cases next with
  | define => exact startsOutside_cons (noLetters 'd' (by decide))
  | declare => exact startsOutside_cons (noLetters 'e' (by decide))
  | name text =>
    simp only [isSpellable, isName] at spellable
    cases shape : text.toList with
    | nil => simp [shape] at spellable
    | cons letter others =>
      simp only [shape, Bool.and_eq_true] at spellable
      rw [spelling, shape]
      exact startsOutside_cons (noLetters letter spellable.1.1.1)
  | number value => simp [isWord] at word
  | symbol char => simp [isWord] at word

/-- A token ends in front of the spelling of one that it does not clash with. -/
theorem endsBefore_of_apart (spellable : next.isSpellable = true)
    (apart : first.clashes next = false) : first.EndsBefore (next.spelling ++ rest) := by
  by_cases word : next.isWord = true
  · have noDigit : StartsOutside Char.isDigit (next.spelling ++ rest) :=
      startsOutside_of_isWord word spellable fun c letter => isDigit_eq_false_of_isAlpha letter
    have noPoint : StartsOutside (· == '.') (next.spelling ++ rest) :=
      startsOutside_of_isWord word spellable fun c letter => beq_false_of_ne fun same => by
        subst same
        exact absurd letter (by decide)
    have noWord := isWord_eq_false_of_apart word apart
    cases first with
    | number value => exact ⟨noDigit, fun _ => noPoint⟩
    | symbol char => exact fun _ => noDigit
    | define | declare | name _ => simp [isWord] at noWord
  cases next with
  | number value =>
    cases first with
    | symbol char =>
      rintro rfl
      simp [clashes, isNumber] at apart
    | define | declare | name _ | number _ => simp [clashes, isWord, isNumber] at apart
  | symbol char =>
    simp only [isSpellable, isSymbol, Bool.and_eq_true, Bool.not_eq_true'] at spellable
    have other : char.isAlphanum = false := spellable.1.2
    have noDigit : StartsOutside Char.isDigit (char :: rest) :=
      startsOutside_cons (isDigit_eq_false_of_isAlphanum other)
    cases first with
    | number value =>
      refine ⟨noDigit, fun pointless => startsOutside_cons (beq_false_of_ne ?_)⟩
      rintro rfl
      simp [clashes, isPointless, pointless] at apart
    | symbol _ => exact fun _ => noDigit
    | define | declare | name _ => exact startsOutside_cons other
  | define | declare | name _ => exact absurd rfl word

end Token

namespace Spells

variable {tokens : List Token} {text : List Char}

/-- The text of some tokens starts with the spelling of the first. -/
theorem exists_append {token : Token} (spells : Spells (token :: tokens) text) :
    ∃ rest, text = token.spelling ++ rest := by
  cases spells with
  | single => exact ⟨[], (List.append_nil _).symm⟩
  | spaced later => exact ⟨_, rfl⟩
  | joined apart later => exact ⟨_, rfl⟩

/-- Apart from spaces, a text of tokens is made of letters, digits and symbols. -/
theorem notMem (spells : Spells tokens text)
    (spellable : ∀ token ∈ tokens, token.isSpellable = true) {c : Char}
    (noWord : c.isAlphanum = false) (noSymbol : isSymbol c = false) (noSpace : c ≠ ' ') :
    c ∉ text := by
  have outside {token : Token} (possible : token.isSpellable = true) : c ∉ token.spelling := by
    intro inside
    rcases Token.isAlphanum_or_isSymbol_of_mem_spelling possible inside with word | symbol
    · simp [noWord] at word
    · simp [noSymbol] at symbol
  induction spells with
  | nil => exact List.not_mem_nil
  | single token => exact outside (spellable token List.mem_cons_self)
  | spaced later inductionHypothesis =>
    have first := outside (spellable _ List.mem_cons_self)
    have rest := inductionHypothesis fun token member => spellable token (.tail _ member)
    simp [first, noSpace, rest]
  | joined apart later inductionHypothesis =>
    have first := outside (spellable _ List.mem_cons_self)
    have rest := inductionHypothesis fun token member => spellable token (.tail _ member)
    simp [first, rest]

/-- The lexemes of a text of tokens stand for these tokens. -/
theorem map_token_ofText (spells : Spells tokens text)
    (spellable : ∀ token ∈ tokens, token.isSpellable = true) :
    (Lexeme.ofText text).map Lexeme.token = tokens := by
  have nothing : Lexeme.ofText [] = [] := by rw [Lexeme.ofText]
  have alone {token : Token} (possible : token.isSpellable = true) :
      (Lexeme.ofText token.spelling).map Lexeme.token = [token] := by
    have read := Token.map_token_spelling_append possible token.endsBefore_nil
    rwa [List.append_nil, nothing, List.map_nil] at read
  induction spells with
  | nil => rw [nothing, List.map_nil]
  | single token => exact alone (spellable token List.mem_cons_self)
  | spaced later inductionHypothesis =>
    have rest := inductionHypothesis fun token member => spellable token (.tail _ member)
    rw [Lexeme.ofText_append_blank (by decide), List.map_append, rest,
      alone (spellable _ List.mem_cons_self), List.singleton_append]
  | @joined token next others text apart later inductionHypothesis =>
    have rest := inductionHypothesis fun token member => spellable token (.tail _ member)
    obtain ⟨behind, rfl⟩ := later.exists_append
    have ends : token.EndsBefore (next.spelling ++ behind) :=
      Token.endsBefore_of_apart (spellable next (by simp)) apart
    rw [Token.map_token_spelling_append (spellable token List.mem_cons_self) ends, rest]

/-- Reading a text of tokens gives the tokens back. -/
theorem ofText_eq (spells : Spells tokens text)
    (spellable : ∀ token ∈ tokens, token.isSpellable = true) : Token.ofText text = tokens := by
  have plain := spells.notMem spellable (c := '#') (by decide) (by decide) (by decide)
  rw [Token.ofText_of_notMem plain, spells.map_token_ofText spellable]

/-- A spaced list of tokens is a text of them. -/
theorem of_spaced (tokens : List Token) : Spells tokens (Token.spaced tokens) := by
  induction tokens with
  | nil => exact .nil
  | cons token rest inductionHypothesis =>
    cases rest with
    | nil => simpa [Token.spaced] using Spells.single token
    | cons next others =>
      have shape : Token.spaced (token :: next :: others) =
          token.spelling ++ ' ' :: Token.spaced (next :: others) := by
        simp [Token.spaced, List.intercalate_cons_cons]
      rw [shape]
      exact .spaced inductionHypothesis

end Spells

namespace Token

variable {tokens : List Token}

/-- Apart from the spaces, a spaced list of tokens is made of letters, digits and symbols. -/
theorem notMem_spaced (spellable : ∀ token ∈ tokens, token.isSpellable = true) {c : Char}
    (noWord : c.isAlphanum = false) (noSymbol : isSymbol c = false) (noSpace : c ≠ ' ') :
    c ∉ spaced tokens :=
  (Spells.of_spaced tokens).notMem spellable noWord noSymbol noSpace

/-- Reading a text undoes spelling a list of tokens. -/
theorem ofText_spaced (spellable : ∀ token ∈ tokens, token.isSpellable = true) :
    ofText (spaced tokens) = tokens :=
  (Spells.of_spaced tokens).ofText_eq spellable

end Token

/-- A list of tokens is read back from its spaced text, and from every other text of these tokens
that leaves spaces out between neighbours that do not clash. -/
theorem Token.ofText_of_spells {tokens : List Token}
    (spellable : ∀ token ∈ tokens, token.isSpellable = true) :
    Token.ofText (Token.spaced tokens) = tokens ∧
      ∀ text, Spells tokens text → Token.ofText text = tokens :=
  ⟨ofText_spaced spellable, fun _ spells => spells.ofText_eq spellable⟩

/-- A number with a point in it needs no space in front of a point, and no symbol does. -/
theorem Token.ofText_of_spells_number_between_points :
    Token.ofText "def f . x 2.5 . (".toList = [.define, .name "f", .symbol '.', .name "x",
        .number (.ofBits 0x4004000000000000), .symbol '.', .symbol '('] ∧
      Token.ofText "def f.x 2.5.(".toList = [.define, .name "f", .symbol '.', .name "x",
        .number (.ofBits 0x4004000000000000), .symbol '.', .symbol '('] := by
  have spellable : ∀ token ∈ [Token.define, .name "f", .symbol '.', .name "x",
      .number (.ofBits 0x4004000000000000), .symbol '.', .symbol '('],
      token.isSpellable = true := by decide +kernel
  have spells : Spells [Token.define, .name "f", .symbol '.', .name "x",
      .number (.ofBits 0x4004000000000000), .symbol '.', .symbol '('] _ :=
    .spaced (.joined (by decide) (.joined (by decide) (.spaced
      (.joined (by decide +kernel) (.joined (by decide) (.single _))))))
  obtain ⟨spaced, joined⟩ := Token.ofText_of_spells spellable
  have spacedText : Token.spaced [.define, .name "f", .symbol '.', .name "x",
      .number (.ofBits 0x4004000000000000), .symbol '.', .symbol '('] =
      "def f . x 2.5 . (".toList := by decide +kernel
  have joinedText : Token.define.spelling ++ ' ' :: ((Token.name "f").spelling ++
      ((Token.symbol '.').spelling ++ ((Token.name "x").spelling ++
        ' ' :: ((Token.number (.ofBits 0x4004000000000000)).spelling ++
          ((Token.symbol '.').spelling ++ (Token.symbol '(').spelling))))) =
      "def f.x 2.5.(".toList := by decide +kernel
  exact ⟨spacedText ▸ spaced, joinedText ▸ joined _ spells⟩

end ExprShell
