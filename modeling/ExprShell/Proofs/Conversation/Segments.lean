import ExprShell.Parser.Items
/-!
# Segments of the tokens to come

A conversation takes the tokens of its stream in segments. A segment is a separator in front of an
item, the tokens of an item that is read, or the tokens that were taken for an item that is none,
with the token at which that was found. Any tokens can be cut into segments, and none is left over.
-/

namespace ExprShell

/-- The tokens that belong together. What an item parser takes before it fails is followed by the
offending token, unless that is the end of the input. -/
inductive Segment
  | separator
  | accepted (taken : List Token) (item : Item)
  | rejected (taken : List Token) (offending : Option Token) (error : SyntaxError)

namespace Segment

/-- All tokens of a segment. -/
def tokens : Segment -> List Token
  | separator => [.itemSeparator]
  | accepted taken _ => taken
  | rejected taken offending _ => taken ++ offending.toList

/-- That tokens start with a segment, and which tokens are left behind it. -/
inductive Cuts (operators : Operators) : Segment -> List Token -> List Token -> Prop
  | separator (rest : List Token) : Cuts operators .separator (.itemSeparator :: rest) rest
  | accepted {taken rest : List Token} {item : Item}
      (unseparated : (taken ++ rest).head? ≠ some .itemSeparator)
      (read : (Parser.item operators).parse (taken ++ rest) = (.ok item, rest)) :
      Cuts operators (.accepted taken item) (taken ++ rest) rest
  | rejected {taken rest : List Token} {error : SyntaxError}
      (nonempty : taken ++ rest ≠ [])
      (unseparated : (taken ++ rest).head? ≠ some .itemSeparator)
      (failed : (Parser.item operators).parse (taken ++ rest) = (.error error, rest)) :
      Cuts operators (.rejected taken rest.head? error) (taken ++ rest) rest.tail

variable {operators : Operators} {segment : Segment} {tokens rest : List Token}

/-- Nothing is lost between a segment and what it leaves. -/
theorem Cuts.tokens_eq (cuts : segment.Cuts operators tokens rest) :
    tokens = segment.tokens ++ rest := by
  cases cuts with
  | separator => rfl
  | accepted => rfl
  | rejected =>
    rename_i taken rest error nonempty unseparated failed
    cases rest <;> simp [Segment.tokens]

/-- A segment has a token: an accepted item has one, and where no token was taken there is one that
offends. -/
theorem Cuts.tokens_ne_nil (cuts : segment.Cuts operators tokens rest) : segment.tokens ≠ [] := by
  cases cuts with
  | separator => simp [Segment.tokens]
  | accepted unseparated read =>
    rintro rfl
    have shorter := (Parser.productive_item operators).parse_length_lt read
    simp at shorter
  | rejected nonempty =>
    rename_i taken rest error unseparated failed
    cases taken with
    | cons token others => simp [Segment.tokens]
    | nil =>
      cases rest with
      | nil => exact absurd rfl nonempty
      | cons token others => simp [Segment.tokens]

theorem Cuts.ne_nil (cuts : segment.Cuts operators tokens rest) : tokens ≠ [] := by
  rw [cuts.tokens_eq]
  exact List.append_ne_nil_of_left_ne_nil cuts.tokens_ne_nil rest

/-- Tokens start with a segment unless there are none. -/
theorem exists_cuts (operators : Operators) (nonempty : tokens ≠ []) :
    ∃ segment rest, Cuts operators segment tokens rest := by
  by_cases separated : tokens.head? = some .itemSeparator
  · obtain ⟨others, rfl⟩ := List.head?_eq_some_iff.mp separated
    exact ⟨.separator, others, .separator others⟩
  · rcases parsed : (Parser.item operators).parse tokens with ⟨result, left⟩
    obtain ⟨taken, parts⟩ := (Parser.item operators).parseFrom_suffix _ tokens
    rw [← Parser.parse, parsed] at parts
    obtain rfl : taken ++ left = tokens := parts
    cases result with
    | ok item => exact ⟨_, left, .accepted separated parsed⟩
    | error error => exact ⟨_, left.tail, .rejected nonempty separated parsed⟩

theorem Cuts.length_lt (cuts : segment.Cuts operators tokens rest) :
    rest.length < tokens.length := by
  have positive := List.length_pos_iff.mpr cuts.tokens_ne_nil
  rw [cuts.tokens_eq, List.length_append]
  omega

end Segment

/-- Tokens cut into segments to their end. -/
inductive Segmentation (operators : Operators) : List Token -> List Segment -> Prop
  | done : Segmentation operators [] []
  | cut {segment : Segment} {segments : List Segment} {tokens rest : List Token}
      (cuts : segment.Cuts operators tokens rest) (later : Segmentation operators rest segments) :
      Segmentation operators tokens (segment :: segments)

variable {operators : Operators} {tokens : List Token} {segments : List Segment}

/-- Any tokens can be cut into segments. -/
theorem exists_segmentation (operators : Operators) (tokens : List Token) :
    ∃ segments, Segmentation operators tokens segments := by
  by_cases nonempty : tokens = []
  · exact ⟨[], nonempty ▸ .done⟩
  · obtain ⟨segment, rest, cuts⟩ := Segment.exists_cuts operators nonempty
    have shorter := cuts.length_lt
    obtain ⟨segments, later⟩ := exists_segmentation operators rest
    exact ⟨segment :: segments, .cut cuts later⟩
termination_by tokens.length

/-- Segments in order make up the tokens that they were cut from. -/
theorem Segmentation.flatMap_tokens (segmentation : Segmentation operators tokens segments) :
    segments.flatMap Segment.tokens = tokens := by
  induction segmentation with
  | done => rfl
  | cut cuts later inductionHypothesis =>
    rw [List.flatMap_cons, inductionHypothesis, ← cuts.tokens_eq]

theorem Segmentation.tokens_ne_nil (segmentation : Segmentation operators tokens segments) :
    ∀ segment ∈ segments, segment.tokens ≠ [] := by
  induction segmentation with
  | done => simp
  | cut cuts later inductionHypothesis =>
    rw [List.forall_mem_cons]
    exact ⟨cuts.tokens_ne_nil, inductionHypothesis⟩

end ExprShell
