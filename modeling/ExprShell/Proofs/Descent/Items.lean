import ExprShell.Proofs.Descent.Agreement
import ExprShell.Proofs.Parser.Items
/-!
# Descents for prototypes and items

The functions that read prototypes, definitions, declarations and items come to an end over any
tokens, and give what their parsers give. Parameters are read in a loop that goes past one name in
each round. It stops in front of the first token that is no name, and in front of the end.
-/

namespace ExprShell

namespace Parser

/-- A keyword is missed where another token stands, or none. -/
theorem parse_keyword_of_ne {word : Token} {what : Expectation} {tokens : List Token}
    (differs : tokens.head? ≠ some word) :
    (keyword word what).parse tokens = (.error (.expected what tokens.head?), tokens) := by
  refine parseFrom_of_stop _ ?_
  simp [keyword, differs, Verdict.stop]

/-- Names are taken as parameters. -/
theorem parseFrom_parameters_append {function : String} {latestFirst : List String}
    (names : List String) (rest : List Token) :
    prototype.parseFrom (.parameters function latestFirst) (names.map .name ++ rest) =
      prototype.parseFrom (.parameters function (names.reverse ++ latestFirst)) rest := by
  induction names generalizing latestFirst with
  | nil => rfl
  | cons name others inductionHypothesis =>
    have taken : prototype.feed (.parameters function latestFirst) (some (.name name)) =
        .shift (.parameters function (name :: latestFirst)) := rfl
    rw [List.map_cons, List.cons_append, parseFrom_of_shift _ _ taken, inductionHypothesis,
      List.reverse_cons, List.append_assoc, List.singleton_append]

end Parser

namespace Descent

open ExpressionState

variable {operators : Operators} {limit : Int} {tokens rest : List Token}

/-! ## Prototypes -/

/-- Tokens start with some names, maybe none, and go on with something else. -/
theorem exists_names (tokens : List Token) :
    ∃ (names : List String) (rest : List Token), tokens = names.map .name ++ rest ∧
      ∀ name, rest.head? ≠ some (.name name) := by
  induction tokens with
  | nil => exact ⟨[], [], rfl, by simp⟩
  | cons token others inductionHypothesis =>
    cases token with
    | name name =>
      obtain ⟨names, rest, parts, stops⟩ := inductionHypothesis
      exact ⟨name :: names, rest, congrArg (.name name :: ·) parts, stops⟩
    | define | declare | number _ | symbol _ => exact ⟨[], _, rfl, by simp⟩

/-- Behind a token, the names up to the first other token are the parameters. -/
theorem ends_parameters (token : Token) (names : List String)
    (stops : ∀ name, rest.head? ≠ some (.name name)) :
    Ends limit parameters (token :: (names.map .name ++ rest)) (.ok names) rest := by
  induction names generalizing token with
  | nil =>
    rw [parameters]
    refine ends_advance.bind (ends_current.bind ?_)
    split
    · rename_i name found
      exact absurd found (stops name)
    · exact ends_pure _
  | cons name others inductionHypothesis =>
    rw [parameters]
    exact ends_advance.bind (ends_current.bind ((inductionHypothesis (.name name)).map _))

theorem ends_prototype_unnamed (unnamed : ∀ name, tokens.head? ≠ some (.name name)) :
    Ends limit prototype tokens (.error (.expected .functionName tokens.head?)) tokens := by
  rw [prototype]
  refine ends_current.bind ?_
  split
  · rename_i name found
    exact absurd found (unnamed name)
  · exact ends_throw _

theorem ends_prototype_unopened {name : String} (unopened : rest.head? ≠ some opening) :
    Ends limit prototype (.name name :: rest)
      (.error (.expected .openingOfParameters rest.head?)) rest := by
  rw [prototype]
  refine ends_current.bind (ends_advance.bind (ends_current.bind ?_))
  rw [if_neg unopened]
  exact ends_current.bind (ends_throw _)

section Opened

variable {function : String} {names : List String}

theorem ends_prototype_complete :
    Ends limit prototype (.name function :: opening :: (names.map .name ++ closing :: rest))
      (.ok ⟨function, names⟩) rest := by
  rw [prototype]
  refine ends_current.bind (ends_advance.bind (ends_current.bind ?_))
  rw [List.head?_cons, if_pos rfl]
  refine (ends_parameters opening names (by simp [closing])).bind (ends_current.bind ?_)
  rw [List.head?_cons, if_pos rfl]
  exact ends_advance.bind (ends_pure _)

theorem ends_prototype_unclosed (stops : ∀ name, rest.head? ≠ some (.name name))
    (unclosed : rest.head? ≠ some closing) :
    Ends limit prototype (.name function :: opening :: (names.map .name ++ rest))
      (.error (.expected .closingOfParameters rest.head?)) rest := by
  rw [prototype]
  refine ends_current.bind (ends_advance.bind (ends_current.bind ?_))
  rw [List.head?_cons, if_pos rfl]
  refine (ends_parameters opening names stops).bind (ends_current.bind ?_)
  rw [if_neg unclosed]
  exact ends_current.bind (ends_throw _)

end Opened

/-- A prototype is read by descent as it is by its parser. -/
theorem ends_prototype (tokens : List Token) :
    Ends limit prototype tokens (Parser.prototype.parse tokens).1
      (Parser.prototype.parse tokens).2 := by
  by_cases named : ∃ name, tokens.head? = some (.name name)
  · obtain ⟨name, head⟩ := named
    obtain ⟨behindName, rfl⟩ := List.head?_eq_some_iff.mp head
    have named : Parser.prototype.feed Parser.prototype.start (some (.name name)) =
        .shift (.opening name) := rfl
    rw [Parser.parse, Parser.parseFrom_of_shift _ _ named]
    by_cases opened : behindName.head? = some opening
    · obtain ⟨given, rfl⟩ := List.head?_eq_some_iff.mp opened
      obtain ⟨names, later, rfl, stops⟩ := exists_names given
      have opened : Parser.prototype.feed (.opening name) (some opening) =
          .shift (.parameters name []) := rfl
      rw [Parser.parseFrom_of_shift _ _ opened]
      by_cases closed : later.head? = some closing
      · obtain ⟨last, rfl⟩ := List.head?_eq_some_iff.mp closed
        rw [Parser.parseFrom_parameters]
        exact ends_prototype_complete
      · rw [Parser.parseFrom_parameters_append, Parser.parse_parameters_of_head stops closed]
        exact ends_prototype_unclosed stops closed
    · rw [Parser.parse_opening_of_head opened]
      exact ends_prototype_unopened opened
  · have unnamed : ∀ name, tokens.head? ≠ some (.name name) :=
      fun name found => named ⟨name, found⟩
    rw [Parser.parse_prototype_of_head unnamed]
    exact ends_prototype_unnamed unnamed

/-! ## Items -/

/-- A definition is read by descent as it is by its parser. -/
theorem ends_definition (bounded : operators.Bounded limit) (tokens : List Token) :
    Ends limit (definition operators) tokens ((Parser.definition operators).parse tokens).1
      ((Parser.definition operators).parse tokens).2 := by
  rw [Parser.definition, Parser.parse_map, Parser.parse_andThen, definition]
  refine ends_current.bind ?_
  by_cases defines : tokens.head? = some .define
  · obtain ⟨rest, rfl⟩ := List.head?_eq_some_iff.mp defines
    rw [if_pos defines, Parser.parse_keyword_cons]
    simp only [Parser.parse_andThen]
    refine ends_advance.bind ?_
    have first : Ends limit prototype rest _ _ := ends_prototype rest
    rcases read : Parser.prototype.parse rest with ⟨result, later⟩
    rw [read] at first
    cases result with
    | error error => exact first.bind_error
    | ok prototype =>
      dsimp only
      have second := ends_expression bounded later
      rcases body : (Parser.expression operators).parse later with ⟨result, last⟩
      rw [body] at second
      cases result <;> exact first.bind (second.map (Definition.mk prototype))
  · rw [if_neg defines, Parser.parse_keyword_of_ne defines]
    exact ends_current.bind (ends_throw _)

/-- A declaration is read by descent as it is by its parser. -/
theorem ends_declaration (tokens : List Token) :
    Ends limit declaration tokens (Parser.declaration.parse tokens).1
      (Parser.declaration.parse tokens).2 := by
  rw [Parser.declaration, Parser.parse_map, Parser.parse_andThen, declaration]
  refine ends_current.bind ?_
  by_cases declares : tokens.head? = some .declare
  · obtain ⟨rest, rfl⟩ := List.head?_eq_some_iff.mp declares
    rw [if_pos declares, Parser.parse_keyword_cons]
    dsimp only
    have whole : Ends limit prototype rest _ _ := ends_prototype rest
    rcases read : Parser.prototype.parse rest with ⟨result, later⟩
    rw [read] at whole
    cases result <;> exact ends_advance.bind whole
  · rw [if_neg declares, Parser.parse_keyword_of_ne declares]
    exact ends_current.bind (ends_throw _)

/-- A top-level expression is read by descent as it is by its parser. -/
theorem ends_topLevel (bounded : operators.Bounded limit) (tokens : List Token) :
    Ends limit (topLevel operators) tokens ((Parser.topLevel operators).parse tokens).1
      ((Parser.topLevel operators).parse tokens).2 := by
  rw [Parser.topLevel, Parser.parse_map, topLevel]
  exact (ends_expression bounded tokens).map Definition.anonymous

/-- An item is read by descent as it is by its parser. -/
theorem ends_item (bounded : operators.Bounded limit) (tokens : List Token) :
    Ends limit (item operators) tokens ((Parser.item operators).parse tokens).1
      ((Parser.item operators).parse tokens).2 := by
  rw [Parser.item, Parser.parse_branch, Parser.parse_branch, item]
  refine ends_current.bind ?_
  split
  · rename_i defines
    rw [if_pos (by simp [defines]), Parser.parse_map]
    exact (ends_definition bounded tokens).map Item.definition
  · rename_i declares
    rw [if_neg (by simp [declares]), if_pos (by simp [declares]), Parser.parse_map]
    exact (ends_declaration tokens).map Item.declaration
  · rename_i notDefine notDeclare
    rw [if_neg (by simpa using notDefine), if_neg (by simpa using notDeclare), Parser.parse_map]
    exact (ends_expression bounded tokens).map Item.expression

end Descent

end ExprShell
