import ExprShell.Proofs.Program.WellFormed
/-!
# Equality of values

Two nodes have the same value if they have the same shape and equal numbers in the same places.
Numbers are compared as numbers, so this is no equivalence: a NaN differs from itself, and the two
zeros are the same. Both are told by a canonical form, in which every zero is positive: nodes have
the same value exactly if no number of theirs is a NaN and their canonical forms are identical. All
laws follow from that. Whatever is read from a source holds no NaN, so it has the same value as
itself.
-/

namespace ExprShell

/-! ## Numbers -/

/-- The same number with a positive sign if it is zero. -/
def Binary64.canonical (x : Binary64) : Binary64 := if x.magnitude = 0 then zero else x

/-- Numbers are equal if none is a NaN and their canonical forms are the same. -/
theorem Binary64.sameValue_iff (x y : Binary64) :
    x.sameValue y = true ↔ x.isNaN = false ∧ y.isNaN = false ∧ x.canonical = y.canonical := by
  have same : (x.magnitude = 0 ∧ y.magnitude = 0 ∨ x = y) ↔ x.canonical = y.canonical := by
    have zeroMagnitude : zero.magnitude = 0 := rfl
    unfold canonical
    by_cases first : x.magnitude = 0 <;> by_cases second : y.magnitude = 0 <;> grind
  simp [sameValue, and_assoc, ← same]

/-- That a part is no NaN. -/
def Token.IsProper (part : Token) : Prop := ∀ value, part = .number value → value.isNaN = false

/-- That a part is no zero of either sign. -/
def Token.IsNonzero (part : Token) : Prop := ∀ value, part = .number value → value.magnitude ≠ 0

namespace Token

@[simp] theorem isProper_number {value : Binary64} :
    (number value).IsProper ↔ value.isNaN = false := by
  simp [IsProper]

@[simp] theorem isProper_name (text : String) : (name text).IsProper := by simp [IsProper]

@[simp] theorem isProper_symbol (char : Char) : (symbol char).IsProper := by simp [IsProper]

@[simp] theorem isNonzero_number {value : Binary64} :
    (number value).IsNonzero ↔ value.magnitude ≠ 0 := by
  simp [IsNonzero]

end Token

/-! ## The laws of an equality of values -/

/-- That a comparison of values is symmetric and transitive, that a value equals itself exactly if
none of its numbers is a NaN, and that equal values in which no number is zero are identical. -/
structure ComparesValues {Value : Type} (same : Value -> Value -> Bool)
    (parts : Value -> List Token) : Prop where
  symm : ∀ first second, same first second = true → same second first = true
  trans : ∀ first second third, same first second = true → same second third = true →
    same first third = true
  self : ∀ value, same value value = true ↔
    ∀ number, .number number ∈ parts value → number.isNaN = false
  exact : ∀ first second, same first second = true →
    (∀ number, .number number ∈ parts first ++ parts second → number.magnitude ≠ 0) →
    first = second

/-- That a comparison goes by canonical forms, which differ from the values in their zeros only. -/
structure ComparesForms {Value : Type} (same : Value -> Value -> Bool)
    (parts : Value -> List Token) (canonical : Value -> Value) : Prop where
  iff : ∀ first second, same first second = true ↔ (∀ part ∈ parts first, part.IsProper) ∧
    (∀ part ∈ parts second, part.IsProper) ∧ canonical first = canonical second
  fixed : ∀ value, (∀ part ∈ parts value, part.IsNonzero) → canonical value = value

/-- A comparison by canonical forms has all the laws. -/
theorem ComparesForms.comparesValues {Value : Type} {same : Value -> Value -> Bool}
    {parts : Value -> List Token} {canonical : Value -> Value}
    (compares : ComparesForms same parts canonical) : ComparesValues same parts where
  symm first second equal := by
    obtain ⟨proper, proper', forms⟩ := (compares.iff first second).mp equal
    exact (compares.iff second first).mpr ⟨proper', proper, forms.symm⟩
  trans first second third equal equal' := by
    obtain ⟨proper, _, forms⟩ := (compares.iff first second).mp equal
    obtain ⟨_, proper', forms'⟩ := (compares.iff second third).mp equal'
    exact (compares.iff first third).mpr ⟨proper, proper', forms.trans forms'⟩
  self value := by
    rw [compares.iff]
    constructor
    · rintro ⟨proper, -⟩ number member
      exact proper _ member number rfl
    · intro noNaN
      have proper : ∀ part ∈ parts value, part.IsProper := by
        rintro part member number rfl
        exact noNaN number member
      exact ⟨proper, proper, rfl⟩
  exact first second equal nonzero := by
    have fixed (value : Value) (within : ∀ part ∈ parts value, part ∈ parts first ++ parts second) :
        canonical value = value := by
      refine compares.fixed value ?_
      rintro part member number rfl
      exact nonzero number (within _ member)
    calc first
        = canonical first := (fixed first fun _ => List.mem_append_left _).symm
      _ = canonical second := ((compares.iff first second).mp equal).2.2
      _ = second := fixed second fun _ => List.mem_append_right _

/-! ## Expressions -/

mutual

/-- An expression with all its zeros positive. -/
def Expr.canonical : Expr -> Expr
  | .number value => .number value.canonical
  | .reference name => .reference name
  | .binary operator left right => .binary operator left.canonical right.canonical
  | .call function arguments => .call function (Expr.canonicals arguments)

/-- Expressions with all their zeros positive. -/
def Expr.canonicals : List Expr -> List Expr
  | [] => []
  | expr :: rest => expr.canonical :: Expr.canonicals rest

end

mutual

/-- Expressions have the same value if none holds a NaN and their canonical forms are the same. -/
theorem Expr.sameValue_iff : ∀ first second : Expr, first.sameValue second = true ↔
    first.MadeOf Token.IsProper ∧ second.MadeOf Token.IsProper ∧
      first.canonical = second.canonical
  | .number value, second => by
    cases second <;> simp [sameValue, canonical, Binary64.sameValue_iff]
  | .reference name, second => by
    cases second <;> simp [sameValue, canonical]
  | .binary operator left right, second => by
    cases second with
    | binary operator' left' right' =>
      have lefts := Expr.sameValue_iff left left'
      have rights := Expr.sameValue_iff right right'
      simp only [sameValue, Bool.and_eq_true, beq_iff_eq, lefts, rights, madeOf_binary, canonical,
        Token.isProper_symbol, true_and, Expr.binary.injEq]
      grind
    | _ => simp [sameValue, canonical]
  | .call function arguments, second => by
    cases second with
    | call function' arguments' =>
      have all := Expr.sameValues_iff arguments arguments'
      simp only [sameValue, Bool.and_eq_true, beq_iff_eq, all, madeOf_call, canonical,
        Token.isProper_name, true_and, Expr.call.injEq]
      grind
    | _ => simp [sameValue, canonical]

theorem Expr.sameValues_iff : ∀ firsts seconds : List Expr, Expr.sameValues firsts seconds = true ↔
    (∀ first ∈ firsts, first.MadeOf Token.IsProper) ∧
      (∀ second ∈ seconds, second.MadeOf Token.IsProper) ∧
        Expr.canonicals firsts = Expr.canonicals seconds
  | [], [] => by simp [sameValues, canonicals]
  | [], _ :: _ => by simp [sameValues, canonicals]
  | _ :: _, [] => by simp [sameValues, canonicals]
  | first :: firsts, second :: seconds => by
    have head := Expr.sameValue_iff first second
    have rest := Expr.sameValues_iff firsts seconds
    simp only [sameValues, Bool.and_eq_true, head, rest, List.forall_mem_cons, canonicals,
      List.cons.injEq]
    grind

end

mutual

/-- Without a zero, an expression is in canonical form. -/
theorem Expr.canonical_eq_self : ∀ expr : Expr, expr.MadeOf Token.IsNonzero → expr.canonical = expr
  | .number value, nonzero => by
    rw [madeOf_number, Token.isNonzero_number] at nonzero
    rw [canonical, Binary64.canonical, if_neg nonzero]
  | .reference name, _ => by rw [canonical]
  | .binary operator left right, nonzero => by
    rw [madeOf_binary] at nonzero
    rw [canonical, Expr.canonical_eq_self left nonzero.1,
      Expr.canonical_eq_self right nonzero.2.2]
  | .call function arguments, nonzero => by
    rw [madeOf_call] at nonzero
    rw [canonical, Expr.canonicals_eq_self arguments nonzero.2]

theorem Expr.canonicals_eq_self : ∀ exprs : List Expr,
    (∀ expr ∈ exprs, expr.MadeOf Token.IsNonzero) → Expr.canonicals exprs = exprs
  | [], _ => by rw [canonicals]
  | expr :: rest, nonzero => by
    rw [List.forall_mem_cons] at nonzero
    rw [canonicals, Expr.canonical_eq_self expr nonzero.1, Expr.canonicals_eq_self rest nonzero.2]

end

/-! ## Definitions and nodes -/

/-- The parts of a definition. -/
def Definition.parts (function : Definition) : List Token :=
  function.prototype.parts ++ function.body.parts

/-- A definition with all its zeros positive. -/
def Definition.canonical (function : Definition) : Definition :=
  ⟨function.prototype, function.body.canonical⟩

/-- All parts of a prototype are names. -/
theorem Prototype.isProper_parts (prototype : Prototype) :
    ∀ part ∈ prototype.parts, part.IsProper := by
  simp [Prototype.parts]

theorem Definition.isProper_parts (function : Definition) :
    (∀ part ∈ function.parts, part.IsProper) ↔ function.body.MadeOf Token.IsProper := by
  rw [parts, List.forall_mem_append]
  exact and_iff_right function.prototype.isProper_parts

theorem Definition.comparesForms :
    ComparesForms Definition.sameValue Definition.parts Definition.canonical where
  iff first second := by
    rw [sameValue, Bool.and_eq_true, beq_iff_eq, Expr.sameValue_iff, isProper_parts, isProper_parts,
      canonical, canonical, Definition.mk.injEq]
    grind
  fixed function nonzero := by
    rw [parts, List.forall_mem_append] at nonzero
    rw [canonical, Expr.canonical_eq_self _ nonzero.2]

namespace Node

/-- The parts of a node. -/
def parts : Node -> List Token
  | declaration prototype => prototype.parts
  | definition function => function.parts
  | expression function => function.parts

/-- A node with all its zeros positive. -/
def canonical : Node -> Node
  | declaration prototype => declaration prototype
  | definition function => definition function.canonical
  | expression function => expression function.canonical

theorem comparesForms : ComparesForms Node.sameValue Node.parts Node.canonical where
  iff first second := by
    have functions := Definition.comparesForms.iff
    have names (prototype : Prototype) := iff_true_intro prototype.isProper_parts
    cases first <;> cases second <;> simp [sameValue, canonical, parts, functions, names]
  fixed node nonzero := by
    cases node with
    | declaration prototype => rfl
    | definition function => exact congrArg _ (Definition.comparesForms.fixed function nonzero)
    | expression function => exact congrArg _ (Definition.comparesForms.fixed function nonzero)

end Node

/-! ## What is read -/

namespace Construct

/-- Whether two results of reading a construct have the same value. -/
def sameValue : (construct : Construct) -> construct.Result -> construct.Result -> Bool
  | expression, first, second => Expr.sameValue first second
  | prototype, (first : Prototype), (second : Prototype) => first == second
  | definition, first, second => Definition.sameValue first second
  | declaration, (first : Prototype), (second : Prototype) => first == second
  | topLevel, first, second => Definition.sameValue first second
  | item, first, second => Item.sameValue first second

/-- What holds no NaN has the same value as itself. -/
theorem sameValue_self {construct : Construct} {result : construct.Result}
    (noNaN : ∀ value, .number value ∈ construct.parts result → value.isNaN = false) :
    construct.sameValue result result = true := by
  have proper : ∀ part ∈ construct.parts result, part.IsProper := by
    rintro part member value rfl
    exact noNaN value member
  cases construct with
  | expression => exact (Expr.sameValue_iff _ _).mpr ⟨proper, proper, rfl⟩
  | prototype => exact beq_iff_eq.mpr (rfl : (result : Prototype) = result)
  | definition => exact (Definition.comparesForms.iff _ _).mpr ⟨proper, proper, rfl⟩
  | declaration => exact beq_iff_eq.mpr (rfl : (result : Prototype) = result)
  | topLevel =>
    have whole := (Definition.isProper_parts _).mpr proper
    exact (Definition.comparesForms.iff _ _).mpr ⟨whole, whole, rfl⟩
  | item =>
    cases result with
    | declaration prototype => simp [sameValue, Item.sameValue, Item.node, Node.sameValue]
    | definition function => exact (Definition.comparesForms.iff _ _).mpr ⟨proper, proper, rfl⟩
    | expression body =>
      have whole := (Definition.isProper_parts (.anonymous body)).mpr proper
      exact (Definition.comparesForms.iff _ _).mpr ⟨whole, whole, rfl⟩

end Construct

/-- Comparing nodes by value is symmetric and transitive, and it is reflexive exactly for the nodes
without a NaN. Nodes without a zero have the same value only if they are identical. Whatever is read
from a source, after whatever has been asked of its stream before, has the same value as itself and
as what is read again from any stream with the same tokens to come. -/
theorem sameValue_partial_equivalence :
    ComparesValues Node.sameValue Node.parts ∧
      ∀ (source : Source) (stream : TokenStream), stream.ReadsFrom source →
        ∀ (operators : Operators) (construct : Construct) (result : construct.Result),
          ((construct.parser operators).run stream).1 = .ok result →
          construct.sameValue result result = true ∧
          ∀ other : TokenStream, other.tokens = stream.tokens →
            ∃ again, ((construct.parser operators).run other).1 = .ok again ∧
              construct.sameValue result again = true := by
  refine ⟨Node.comparesForms.comparesValues, ?_⟩
  intro source stream reads operators construct result read
  have itself : construct.sameValue result result = true :=
    Construct.sameValue_self fun value member =>
      ((Construct.wellFormed_of_run reads operators construct read).numbers value member).1
  refine ⟨itself, fun other sameTokens => ⟨result, ?_, itself⟩⟩
  rw [Parser.run_fst] at read ⊢
  rw [sameTokens, read]

/-- Zeros of both signs in a call, a NaN that no text can name, and an expression that is read. -/
theorem sameValue_partial_equivalence_zeros_and_nan :
    let zero : Expr := .number (.ofBits 0)
    let negated : Expr := .number (.ofBits 0x8000000000000000)
    let first : Node := .expression (.anonymous (.call "f" [zero, negated]))
    let second : Node := .expression (.anonymous (.call "f" [negated, zero]))
    let broken : Node := .definition ⟨⟨"g", ["x"]⟩,
      .binary '+' (.reference "x") (.number (.ofBits 0x7FF8000000000000))⟩
    let stream := TokenStream.ofSource [.data ".5(x".toUTF8.data.toList]
    let half : Item := .expression (.number (.ofBits 0x3FE0000000000000))
    first.sameValue second = true ∧ second.sameValue first = true ∧ first ≠ second ∧
      broken.sameValue broken = false ∧
      ((Construct.item.parser .standard).run stream).1 = .ok half ∧ half.sameValue half = true := by
  intro zero negated first second broken stream half
  obtain ⟨compares, reading⟩ := sameValue_partial_equivalence
  have equal : first.sameValue second = true := by decide +kernel
  have differ : first ≠ second := by
    simp only [first, second, zero, negated, Definition.anonymous, ne_eq, Node.expression.injEq,
      Definition.mk.injEq, Expr.call.injEq, List.cons.injEq, Expr.number.injEq]
    decide
  have unequal : broken.sameValue broken = false := by
    rw [← Bool.not_eq_true, compares.self]
    intro noNaN
    exact absurd (noNaN (.ofBits 0x7FF8000000000000) (.tail _ (.tail _ (.tail _ (.tail _
      (.head _)))))) (by decide)
  have tokens : stream.tokens =
      [.number (.ofBits 0x3FE0000000000000), .symbol '(', .name "x"] := by decide +kernel
  have read : ((Construct.item.parser .standard).run stream).1 = .ok half := by
    rw [Parser.run_fst, tokens]
    rfl
  exact ⟨equal, compares.symm _ _ equal, differ, unequal, read,
    (reading _ stream .fresh .standard .item half read).1⟩

end ExprShell
