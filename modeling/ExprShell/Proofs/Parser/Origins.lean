import ExprShell.Proofs.Grammar.Sentences
import ExprShell.Proofs.Parser.Constructs
/-!
# What results are made of

The numbers, names and operators of an expression are its parts, each taken as the token that it is
written with. A parser makes its results of the tokens that it takes: whatever holds of these tokens
holds of the parts of the result, and every operator among the parts is registered. The law is
stated for a single answer of a parser, is kept by every combinator, and holds of a run because it
holds of each of its steps.
-/

namespace ExprShell

/-! ## Parts -/

mutual

/-- The numbers, names and operators of an expression, as tokens. -/
def Expr.parts : Expr -> List Token
  | .number value => [.number value]
  | .reference name => [.name name]
  | .binary operator left right => left.parts ++ .symbol operator :: right.parts
  | .call function arguments => .name function :: Expr.argumentParts arguments

/-- The numbers, names and operators of some expressions, as tokens. -/
def Expr.argumentParts : List Expr -> List Token
  | [] => []
  | expr :: rest => expr.parts ++ Expr.argumentParts rest

end

theorem Expr.argumentParts_eq_flatMap (exprs : List Expr) :
    Expr.argumentParts exprs = exprs.flatMap Expr.parts := by
  induction exprs with
  | nil => rw [argumentParts, List.flatMap_nil]
  | cons expr rest inductionHypothesis =>
    rw [argumentParts, inductionHypothesis, List.flatMap_cons]

/-- The name of a function and those of its parameters, as tokens. -/
def Prototype.parts (prototype : Prototype) : List Token :=
  .name prototype.name :: prototype.parameters.map .name

/-- The parts of an item. A bare expression has no prototype of its own. -/
def Item.parts : Item -> List Token
  | declaration prototype => prototype.parts
  | definition function => function.prototype.parts ++ function.body.parts
  | expression body => body.parts

namespace Construct

/-- The parts of what was read. -/
def parts : (construct : Construct) -> construct.Result -> List Token
  | expression, expr => expr.parts
  | prototype, read => read.parts
  | definition, function => function.prototype.parts ++ function.body.parts
  | declaration, read => read.parts
  | topLevel, function => function.body.parts
  | item, read => read.parts

/-- The prototype of what was read, unless it is a mere expression. -/
def prototype? : (construct : Construct) -> construct.Result -> Option Prototype
  | expression, _ => none
  | prototype, read => some read
  | definition, function => some function.prototype
  | declaration, read => some read
  | topLevel, function => some function.prototype
  | item, read => some read.prototype

/-- Whether what was read is a bare expression that stands for a function. -/
def isBare : (construct : Construct) -> construct.Result -> Bool
  | topLevel, _ => true
  | item, .expression _ => true
  | _, _ => false

end Construct

/-! ## Answers -/

/-- That something holds of the state that a parser goes on in, or something of its result. -/
def Verdict.Keeps {State Result : Type} (holds : State -> Prop) (ensured : Result -> Prop) :
    Verdict State Result -> Prop
  | shift next => holds next
  | accept result => ensured result
  | reject _ => True

theorem Verdict.keeps_map {State State' Result Result' : Type} {onState : State -> State'}
    {onResult : Result -> Result'} {holds : State' -> Prop} {ensured : Result' -> Prop}
    {verdict : Verdict State Result} :
    (verdict.map onState onResult).Keeps holds ensured ↔
      verdict.Keeps (fun next => holds (onState next)) fun result => ensured (onResult result) := by
  cases verdict <;> rfl

theorem Verdict.Keeps.imp {State Result : Type} {holds : State -> Prop}
    {ensured ensured' : Result -> Prop} {verdict : Verdict State Result}
    (keeps : verdict.Keeps holds ensured) (weaker : ∀ result, ensured result → ensured' result) :
    verdict.Keeps holds ensured' := by
  cases verdict with
  | shift next => exact keeps
  | accept result => exact weaker result keeps
  | reject error => trivial

namespace Parser

variable {Result First Second : Type} {good : Token -> Prop}

/-- That a parser that is fed good tokens ensures something of its results: there is an invariant of
its states that every answer keeps. -/
def Ensures (parser : Parser Result) (good : Token -> Prop) (ensured : Result -> Prop) : Prop :=
  ∃ holds : parser.State -> Prop, holds parser.start ∧
    ∀ state token, holds state → (∀ found ∈ token, good found) →
      (parser.feed state token).Keeps holds ensured

theorem Ensures.imp {parser : Parser Result} {ensured ensured' : Result -> Prop}
    (ensures : parser.Ensures good ensured) (weaker : ∀ result, ensured result → ensured' result) :
    parser.Ensures good ensured' := by
  obtain ⟨holds, start, keeps⟩ := ensures
  refine ⟨holds, start, fun state token held fine => ?_⟩
  exact (keeps state token held fine).imp weaker

theorem Ensures.map {parser : Parser First} {ensured : Second -> Prop} {change : First -> Second}
    (ensures : parser.Ensures good fun result => ensured (change result)) :
    (parser.map change).Ensures good ensured := by
  obtain ⟨holds, start, keeps⟩ := ensures
  refine ⟨holds, start, fun state token held fine => ?_⟩
  exact Verdict.keeps_map.mpr (keeps state token held fine)

theorem Ensures.andThen {first : Parser First} {second : Parser Second}
    {ensured : First -> Prop} {ensured' : Second -> Prop} (ensures : first.Ensures good ensured)
    (ensures' : second.Ensures good ensured') :
    (first.andThen second).Ensures good fun result => ensured result.1 ∧ ensured' result.2 := by
  obtain ⟨holds, start, keeps⟩ := ensures
  obtain ⟨holds', start', keeps'⟩ := ensures'
  let both : first.State ⊕ (First × second.State) -> Prop :=
    Sum.elim holds fun pair => ensured pair.1 ∧ holds' pair.2
  -- Behind the first part its result is settled, and the second part keeps its own invariant.
  have later (result : First) (settled : ensured result) (state : second.State)
      (held : holds' state) (token : Option Token) (fine : ∀ found ∈ token, good found) :
      ((second.feed state token).map (fun next => Sum.inr (result, next)) (result, ·)).Keeps both
        fun result => ensured result.1 ∧ ensured' result.2 := by
    have answer := keeps' state token held fine
    generalize second.feed state token = verdict at answer ⊢
    cases verdict with
    | shift next => exact ⟨settled, answer⟩
    | accept value => exact ⟨settled, answer⟩
    | reject error => trivial
  refine ⟨both, start, fun state token held fine => ?_⟩
  match state with
  | .inl state =>
    have answer := keeps state token held fine
    simp only [Parser.andThen]
    generalize first.feed state token = verdict at answer ⊢
    cases verdict with
    | shift next => exact answer
    | accept result => exact later result answer second.start start' token fine
    | reject error => trivial
  | .inr (result, state) => exact later result held.1 state held.2 token fine

theorem Ensures.branch {chosen otherwise : Parser Result} {chooses : Option Token -> Bool}
    {ensured : Result -> Prop} (ensures : chosen.Ensures good ensured)
    (ensures' : otherwise.Ensures good ensured) :
    (Parser.branch chooses chosen otherwise).Ensures good ensured := by
  obtain ⟨holds, start, keeps⟩ := ensures
  obtain ⟨holds', start', keeps'⟩ := ensures'
  let either (state : (Parser.branch chooses chosen otherwise).State) : Prop :=
    state.elim True (Sum.elim holds holds')
  refine ⟨either, trivial, fun state token held fine => ?_⟩
  match state with
  | none =>
    simp only [Parser.branch]
    split
    · exact Verdict.keeps_map.mpr (keeps chosen.start token start fine)
    · exact Verdict.keeps_map.mpr (keeps' otherwise.start token start' fine)
  | some (.inl state) => exact Verdict.keeps_map.mpr (keeps state token held fine)
  | some (.inr state) => exact Verdict.keeps_map.mpr (keeps' state token held fine)

theorem ensures_keyword (word : Token) (what : Expectation) :
    (keyword word what).Ensures good fun _ => True := by
  refine ⟨fun _ => True, trivial, fun state token _ _ => ?_⟩
  cases (keyword word what).feed state token <;> trivial

/-- A run over good tokens from a state with an invariant ensures what every answer does. -/
theorem parseFrom_of_keeps {parser : Parser Result} {holds : parser.State -> Prop}
    {ensured : Result -> Prop}
    (keeps : ∀ state token, holds state → (∀ found ∈ token, good found) →
      (parser.feed state token).Keeps holds ensured)
    {state : parser.State} (held : holds state) {tokens rest : List Token} {result : Result}
    (fine : ∀ token ∈ tokens, good token)
    (read : parser.parseFrom state tokens = (.ok result, rest)) : ensured result := by
  have answer := keeps state tokens.head? held
    fun found first => fine found (List.mem_of_mem_head? first)
  rcases parser.parseFrom_cases state tokens with
    ⟨token, others, next, rfl, fed, run⟩ | ⟨stop, stopped, run⟩
  · rw [List.head?_cons, fed] at answer
    exact parseFrom_of_keeps keeps answer (fun found member => fine found (.tail token member))
      (run.symm.trans read)
  · obtain ⟨rfl, _⟩ := Prod.mk.inj (run.symm.trans read)
    rwa [stopped] at answer
termination_by tokens.length

/-- A run over good tokens ensures what the parser ensures. -/
theorem Ensures.of_run {parser : Parser Result} {ensured : Result -> Prop}
    (ensures : parser.Ensures good ensured) {stream : TokenStream} {result : Result}
    (fine : ∀ token ∈ stream.tokens, good token) (read : (parser.run stream).1 = .ok result) :
    ensured result := by
  obtain ⟨holds, start, keeps⟩ := ensures
  rw [run_fst] at read
  exact parseFrom_of_keeps keeps start fine (Prod.ext read rfl)

end Parser

/-! ## Expressions -/

/-- That something holds of all parts of an expression. -/
def Expr.MadeOf (suits : Token -> Prop) (expr : Expr) : Prop := ∀ part ∈ expr.parts, suits part

/-- That something holds of all parts of a waiting operator and its left operand. -/
structure Pending.MadeOf (suits : Token -> Prop) (pending : Pending) : Prop where
  left : pending.left.MadeOf suits
  operator : suits (.symbol pending.operator)

/-- That something holds of all parts of an open bracket. -/
def Bracket.MadeOf (suits : Token -> Prop) : Bracket -> Prop
  | group => True
  | call function arguments =>
    suits (.name function) ∧ ∀ argument ∈ arguments, argument.MadeOf suits

/-- That something holds of all parts of an open bracket and of what waits in front of it. -/
structure Level.MadeOf (suits : Token -> Prop) (level : Level) : Prop where
  bracket : level.bracket.MadeOf suits
  waiting : ∀ pending ∈ level.waiting, pending.MadeOf suits

/-- That something holds of all parts of the current operand. -/
def Focus.MadeOf (suits : Token -> Prop) : Focus -> Prop
  | operand => True
  | name found => suits (.name found)
  | firstArgument function => suits (.name function)
  | value expr => expr.MadeOf suits

/-- That something holds of all parts that have been read. -/
structure ExpressionState.MadeOf (suits : Token -> Prop) (state : ExpressionState) : Prop where
  outer : ∀ level ∈ state.outer, level.MadeOf suits
  waiting : ∀ pending ∈ state.waiting, pending.MadeOf suits
  focus : state.focus.MadeOf suits

/-- That a token suits as a part: it is good, and if it is a symbol, it is an operator. -/
def Operators.Suits (operators : Operators) (good : Token -> Prop) (part : Token) : Prop :=
  good part ∧ ∀ operator, part = .symbol operator → operators.Registers operator

section Expressions

variable {suits : Token -> Prop}

@[simp] theorem Expr.madeOf_number {value : Binary64} :
    (Expr.number value).MadeOf suits ↔ suits (.number value) := by
  simp [MadeOf, parts]

@[simp] theorem Expr.madeOf_reference {name : String} :
    (Expr.reference name).MadeOf suits ↔ suits (.name name) := by
  simp [MadeOf, parts]

@[simp] theorem Expr.madeOf_binary {operator : Char} {left right : Expr} :
    (Expr.binary operator left right).MadeOf suits ↔
      left.MadeOf suits ∧ suits (.symbol operator) ∧ right.MadeOf suits := by
  simp [MadeOf, parts, or_imp, forall_and]

@[simp] theorem Expr.madeOf_call {function : String} {arguments : List Expr} :
    (Expr.call function arguments).MadeOf suits ↔
      suits (.name function) ∧ ∀ argument ∈ arguments, argument.MadeOf suits := by
  simp only [MadeOf, parts, argumentParts_eq_flatMap, List.forall_mem_cons, List.mem_flatMap]
  grind

/-- Completing an operator makes one operand of its parts and those of the right one. -/
theorem Pending.MadeOf.complete {pending : Pending} (made : pending.MadeOf suits) {right : Expr}
    (rightMade : right.MadeOf suits) : (pending.complete right).MadeOf suits :=
  Expr.madeOf_binary.mpr ⟨made.left, made.operator, rightMade⟩

theorem Pending.madeOf_completeAll {waiting : List Pending}
    (made : ∀ pending ∈ waiting, pending.MadeOf suits) {value : Expr}
    (valueMade : value.MadeOf suits) : (completeAll waiting value).MadeOf suits := by
  induction waiting generalizing value with
  | nil => exact valueMade
  | cons pending rest inductionHypothesis =>
    rw [List.forall_mem_cons] at made
    exact inductionHypothesis made.2 (made.1.complete valueMade)

theorem Pending.madeOf_reduce {waiting : List Pending} (precedence : Nat)
    (made : ∀ pending ∈ waiting, pending.MadeOf suits) {value : Expr}
    (valueMade : value.MadeOf suits) :
    (∀ pending ∈ (reduce precedence waiting value).1, pending.MadeOf suits) ∧
      (reduce precedence waiting value).2.MadeOf suits := by
  fun_induction reduce precedence waiting value with
  | case1 => exact ⟨by simp, valueMade⟩
  | case2 pending rest value tight inductionHypothesis =>
    rw [List.forall_mem_cons] at made
    exact inductionHypothesis made.2 (made.1.complete valueMade)
  | case3 => exact ⟨made, valueMade⟩

namespace ExpressionState

variable {outer : List Level} {waiting : List Pending} {value : Expr} {token : Option Token}
  {operators : Operators} {good : Token -> Prop}

theorem keeps_feedOperand (outerMade : ∀ level ∈ outer, level.MadeOf (operators.Suits good))
    (waitingMade : ∀ pending ∈ waiting, pending.MadeOf (operators.Suits good))
    (fine : ∀ found ∈ token, good found) :
    (feedOperand outer waiting token).Keeps (MadeOf (operators.Suits good))
      (Expr.MadeOf (operators.Suits good)) := by
  unfold feedOperand
  split
  · exact ⟨outerMade, waitingMade, Expr.madeOf_number.mpr ⟨fine _ rfl, by simp⟩⟩
  · exact ⟨outerMade, waitingMade, fine _ rfl, by simp⟩
  · exact ⟨List.forall_mem_cons.mpr ⟨⟨trivial, waitingMade⟩, outerMade⟩, by simp [inside], trivial⟩
  · trivial

theorem keeps_close (outerMade : ∀ level ∈ outer, level.MadeOf suits)
    (waitingMade : ∀ pending ∈ waiting, pending.MadeOf suits) (valueMade : value.MadeOf suits) :
    (close outer waiting value token).Keeps (MadeOf suits) (Expr.MadeOf suits) := by
  have inner := Pending.madeOf_completeAll waitingMade valueMade
  unfold close
  split
  · exact inner
  · rename_i before outer
    rw [List.forall_mem_cons] at outerMade
    split
    · exact ⟨outerMade.2, outerMade.1.waiting, inner⟩
    · trivial
  · rename_i function arguments before outer
    rw [List.forall_mem_cons] at outerMade
    obtain ⟨⟨⟨called, argumentsMade⟩, beforeMade⟩, outerMade⟩ := outerMade
    have all : ∀ argument ∈ Pending.completeAll waiting value :: arguments,
        argument.MadeOf suits := List.forall_mem_cons.mpr ⟨inner, argumentsMade⟩
    split
    · refine ⟨outerMade, beforeMade, Expr.madeOf_call.mpr ⟨called, fun argument member => ?_⟩⟩
      exact all argument (List.mem_reverse.mp member)
    · split
      · exact ⟨List.forall_mem_cons.mpr ⟨⟨⟨called, all⟩, beforeMade⟩, outerMade⟩,
          by simp [inside], trivial⟩
      · trivial

theorem keeps_feedBehind (least : Nat)
    (outerMade : ∀ level ∈ outer, level.MadeOf (operators.Suits good))
    (waitingMade : ∀ pending ∈ waiting, pending.MadeOf (operators.Suits good))
    (valueMade : value.MadeOf (operators.Suits good)) (fine : ∀ found ∈ token, good found) :
    (feedBehind operators least outer waiting value token).Keeps (MadeOf (operators.Suits good))
      (Expr.MadeOf (operators.Suits good)) := by
  unfold feedBehind
  split
  · rename_i operator precedence found
    split
    · obtain ⟨leftWaiting, leftMade⟩ := Pending.madeOf_reduce precedence waitingMade valueMade
      obtain ⟨rfl, registered⟩ := Operators.eq_symbol_of_binary? found
      have symbol := fine _ rfl
      refine ⟨outerMade, List.forall_mem_cons.mpr ⟨⟨leftMade, symbol, ?_⟩, leftWaiting⟩, trivial⟩
      rintro other same
      obtain rfl := Token.symbol.inj same
      simp [Operators.Registers, registered]
    · exact keeps_close outerMade waitingMade valueMade
  · exact keeps_close outerMade waitingMade valueMade

/-- An answer to a good token keeps what holds of all parts read so far. -/
theorem keeps_feed (least : Nat) {state : ExpressionState}
    (made : state.MadeOf (operators.Suits good)) (fine : ∀ found ∈ token, good found) :
    (feed operators least state token).Keeps (MadeOf (operators.Suits good))
      (Expr.MadeOf (operators.Suits good)) := by
  obtain ⟨outer, waiting, focus⟩ := state
  obtain ⟨outerMade, waitingMade, focusMade⟩ := made
  cases focus with
  | operand => exact keeps_feedOperand outerMade waitingMade fine
  | name name =>
    simp only [feed]
    split
    · exact ⟨outerMade, waitingMade, focusMade⟩
    · exact keeps_feedBehind least outerMade waitingMade (Expr.madeOf_reference.mpr focusMade) fine
  | firstArgument function =>
    simp only [feed]
    split
    · exact ⟨outerMade, waitingMade, Expr.madeOf_call.mpr ⟨focusMade, by simp⟩⟩
    · refine keeps_feedOperand (List.forall_mem_cons.mpr ⟨⟨⟨focusMade, by simp⟩, waitingMade⟩,
        outerMade⟩) (by simp) fine
  | value value => exact keeps_feedBehind least outerMade waitingMade focusMade fine

end ExpressionState

end Expressions

/-! ## All constructs -/

/-- That something holds of all names of a prototype that have been read. -/
inductive PrototypeState.MadeOf (good : Token -> Prop) : PrototypeState -> Prop
  | name : MadeOf good .name
  | opening {function : String} (known : good (.name function)) : MadeOf good (.opening function)
  | parameters {function : String} {latestFirst : List String} (known : good (.name function))
      (read : ∀ parameter ∈ latestFirst, good (.name parameter)) :
      MadeOf good (.parameters function latestFirst)
  | complete {made : Prototype} (all : ∀ part ∈ made.parts, good part) :
      MadeOf good (.complete made)

namespace Parser

theorem ensures_expression (operators : Operators) (good : Token -> Prop) :
    (expression operators).Ensures good (Expr.MadeOf (operators.Suits good)) := by
  refine ⟨ExpressionState.MadeOf (operators.Suits good), ⟨by simp [expression, expressionFrom],
    by simp [expression, expressionFrom], trivial⟩, fun state token made fine => ?_⟩
  exact ExpressionState.keeps_feed 0 made fine

theorem ensures_prototype (good : Token -> Prop) :
    prototype.Ensures good fun made => ∀ part ∈ made.parts, good part := by
  refine ⟨PrototypeState.MadeOf good, .name, fun state token made fine => ?_⟩
  simp only [prototype]
  unfold PrototypeState.feed
  split
  · exact .opening (fine _ rfl)
  · trivial
  · cases made with
    | opening known => exact .parameters known (by simp)
  · trivial
  · cases made with
    | parameters known read =>
      exact .parameters known (List.forall_mem_cons.mpr ⟨fine _ rfl, read⟩)
  · cases made with
    | parameters known read =>
      exact .complete (List.forall_mem_cons.mpr ⟨known, by simpa using read⟩)
  · trivial
  · cases made with
    | complete all => exact all

end Parser

/-- Names suit whatever the operators are, so the parts of a prototype do if they are good. -/
theorem Operators.suits_of_mem_prototype (operators : Operators) {good : Token -> Prop}
    {prototype : Prototype} (fine : ∀ part ∈ prototype.parts, good part) :
    ∀ part ∈ prototype.parts, operators.Suits good part := by
  refine fun part member => ⟨fine part member, ?_⟩
  rintro operator rfl
  simp [Prototype.parts] at member

namespace Parser

theorem ensures_definition (operators : Operators) (good : Token -> Prop) :
    (definition operators).Ensures good fun function =>
      ∀ part ∈ function.prototype.parts ++ function.body.parts, operators.Suits good part := by
  have parts := (ensures_keyword .define .defineWord).andThen
    ((ensures_prototype good).andThen (ensures_expression operators good))
  refine Ensures.map (parts.imp ?_)
  rintro ⟨_, made, body⟩ ⟨_, fine, bodyMade⟩
  exact List.forall_mem_append.mpr ⟨operators.suits_of_mem_prototype fine, bodyMade⟩

theorem ensures_declaration (operators : Operators) (good : Token -> Prop) :
    declaration.Ensures good fun made => ∀ part ∈ made.parts, operators.Suits good part := by
  have parts := (ensures_keyword .declare .declareWord).andThen (ensures_prototype good)
  refine Ensures.map (parts.imp ?_)
  rintro ⟨_, made⟩ ⟨_, fine⟩
  exact operators.suits_of_mem_prototype fine

end Parser

namespace Construct

/-- That all parts of what was read suit, and that a bare expression got the anonymous prototype. -/
structure MadeOf (operators : Operators) (good : Token -> Prop) (construct : Construct)
    (result : construct.Result) : Prop where
  parts : ∀ part ∈ construct.parts result, operators.Suits good part
  bare : construct.isBare result = true → construct.prototype? result = some .anonymous

/-- Every parser of the library makes its results of the tokens it takes and of registered
operators. -/
theorem ensures (operators : Operators) (good : Token -> Prop) (construct : Construct) :
    (construct.parser operators).Ensures good (construct.MadeOf operators good) := by
  have expressions := Parser.ensures_expression operators good
  have definitions := Parser.ensures_definition operators good
  have declarations := Parser.ensures_declaration operators good
  cases construct with
  | expression => exact expressions.imp fun _ made => ⟨made, by simp [isBare]⟩
  | prototype =>
    refine (Parser.ensures_prototype good).imp fun _ fine => ?_
    exact ⟨operators.suits_of_mem_prototype fine, by simp [isBare]⟩
  | definition => exact definitions.imp fun _ made => ⟨made, by simp [isBare]⟩
  | declaration => exact declarations.imp fun _ made => ⟨made, by simp [isBare]⟩
  | topLevel => exact Parser.Ensures.map (expressions.imp fun _ made => ⟨made, fun _ => rfl⟩)
  | item =>
    refine Parser.Ensures.branch (Parser.Ensures.map (definitions.imp fun _ made => ?_))
      (Parser.Ensures.branch (Parser.Ensures.map (declarations.imp fun _ made => ?_))
        (Parser.Ensures.map (expressions.imp fun _ made => ⟨made, fun _ => rfl⟩)))
    · exact ⟨made, by simp [isBare]⟩
    · exact ⟨made, by simp [isBare]⟩

end Construct

end ExprShell
