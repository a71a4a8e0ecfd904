import ExprShell.Proofs.PrototypeTable.Undo
import ExprShell.Session.Generation
/-!
# What there is code for

A called function is looked up in the open unit, and among the prototypes if it is not there.
Generating code adds nothing to a unit but declarations, and these answer as their prototypes did.
So it does not matter which parts of an expression come first: there is code for it if and only if
its variables are parameters, its operators are known, and its calls pass as many arguments as the
functions they name have parameters.
-/

namespace ExprShell

variable {table : PrototypeTable} {scope : List String}

/-- What a call of a function depends on: how many parameters it has, and whether it has a value. -/
def UnitFunction.signature (function : UnitFunction) : Nat × Bool :=
  (function.arity, function.hasValue)

/-- What a name stands for in one way, it stands for in another that has the same signatures. -/
theorem UnitFunction.exists_of_map_signature {first second : String -> Option UnitFunction}
    (same : ∀ name, (first name).map signature = (second name).map signature) {name : String}
    {callee : UnitFunction} (found : first name = some callee) :
    ∃ other, second name = some other ∧ other.arity = callee.arity ∧
      other.hasValue = callee.hasValue := by
  have alike := same name
  rw [found] at alike
  obtain ⟨other, resolved, signature⟩ := Option.map_eq_some_iff.mp alike.symm
  obtain ⟨sameArity, sameValue⟩ := Prod.mk.inj signature
  exact ⟨other, resolved, sameArity, sameValue⟩

@[simp] theorem UnitFunction.name_givenBody (function : UnitFunction) (name : String) :
    (function.givenBody name).name = function.name := by
  unfold givenBody
  split <;> rfl

@[simp] theorem UnitFunction.signature_givenBody (function : UnitFunction) (name : String) :
    (function.givenBody name).signature = function.signature := by
  unfold givenBody
  split <;> rfl

namespace CodeUnit

variable {unit first second third after : CodeUnit} {name : String} {function : UnitFunction}

/-- The function that a name stands for: the one in the unit, or else the one that its prototype
declares. -/
def resolve? (unit : CodeUnit) (table : PrototypeTable) (name : String) : Option UnitFunction :=
  (unit.find? name).or ((table.get? name).map .declared)

/-- That a unit is another one with prototypes of a table declared behind it. -/
def Extends (table : PrototypeTable) (first second : CodeUnit) : Prop :=
  ∃ declared : List Prototype,
    second.functions = first.functions ++ declared.map .declared ∧
      ∀ prototype ∈ declared, table.get? prototype.name = some prototype

theorem Extends.refl (table : PrototypeTable) (unit : CodeUnit) : Extends table unit unit :=
  ⟨[], by simp⟩

theorem Extends.trans (start : Extends table first second) (rest : Extends table second third) :
    Extends table first third := by
  obtain ⟨earlier, begun, known⟩ := start
  obtain ⟨later, continued, knownLater⟩ := rest
  refine ⟨earlier ++ later, by rw [continued, begun, List.map_append, List.append_assoc], ?_⟩
  intro prototype member
  rcases List.mem_append.mp member with early | late
  · exact known prototype early
  · exact knownLater prototype late

/-- Declaring prototypes of the table changes nothing about what names stand for. -/
theorem Extends.resolve?_eq (extends_ : Extends table first second) :
    second.resolve? table = first.resolve? table := by
  obtain ⟨declared, functions, known⟩ := extends_
  funext name
  rw [resolve?, resolve?, find?, find?, functions, List.find?_append]
  cases first.functions.find? fun function => function.name == name with
  | some function => rfl
  | none =>
    rw [Option.none_or, Option.none_or]
    cases found : (declared.map UnitFunction.declared).find? fun function =>
        function.name == name with
    | none => rfl
    | some function =>
      obtain ⟨prototype, member, rfl⟩ := List.mem_map.mp (List.mem_of_find?_eq_some found)
      have named : prototype.name = name := by
        simpa [UnitFunction.declared] using List.find?_some found
      rw [← named, known prototype member]
      rfl

theorem resolve?_eq_none_iff :
    unit.resolve? table name = none ↔ unit.provide? table name = none := by
  rw [resolve?, provide?]
  cases unit.find? name <;> simp

/-- That a unit holds functions with a value and a prototype only. -/
def Covered (table : PrototypeTable) (unit : CodeUnit) : Prop :=
  ∀ function ∈ unit.functions, table.contains function.name = true ∧ function.hasValue = true

theorem Covered.extends (covered : unit.Covered table) (extends_ : Extends table unit after) :
    after.Covered table := by
  obtain ⟨declared, functions, known⟩ := extends_
  intro function member
  rw [functions, List.mem_append, List.mem_map] at member
  rcases member with former | ⟨prototype, declaring, rfl⟩
  · exact covered function former
  · refine ⟨?_, rfl⟩
    rw [PrototypeTable.contains_eq_isSome_get?]
    exact Option.isSome_of_eq_some (known prototype declaring)

theorem Covered.giveBody (covered : unit.Covered table) (name : String) :
    (unit.giveBody name).Covered table := by
  intro function member
  obtain ⟨former, formerMember, rfl⟩ := List.mem_map.mp member
  have sameValue : (former.givenBody name).hasValue = former.hasValue :=
    congrArg Prod.snd (former.signature_givenBody name)
  rw [UnitFunction.name_givenBody, sameValue]
  exact covered former formerMember

theorem Covered.insert (covered : unit.Covered table) (prototype : Prototype) :
    unit.Covered (table.insert prototype).1 := by
  intro function member
  obtain ⟨known, valued⟩ := covered function member
  refine ⟨?_, valued⟩
  rw [PrototypeTable.contains_eq_isSome_get?] at known ⊢
  rw [PrototypeTable.get?_insert]
  split
  · rfl
  · exact known

/-- Without a function, a unit needs no prototype of it. -/
theorem Covered.drop (covered : unit.Covered table) (name : String) :
    (unit.drop name).Covered (table.remove name).1 := by
  intro function member
  obtain ⟨former, kept⟩ := List.mem_filter.mp member
  obtain ⟨known, valued⟩ := covered function former
  refine ⟨?_, valued⟩
  rw [PrototypeTable.contains_eq_isSome_get?] at known ⊢
  rwa [PrototypeTable.get?_remove, if_neg (bne_iff_ne.mp kept).symm]

/-- Providing the function of a name declares it if it is not in the unit yet. -/
theorem provide?_eq_some (wellNamed : table.WellNamed)
    (provided : unit.provide? table name = some (function, after)) :
    unit.resolve? table name = some function ∧ Extends table unit after := by
  rw [provide?] at provided
  rw [resolve?]
  split at provided
  · rename_i found
    obtain ⟨rfl, rfl⟩ := Prod.mk.inj (Option.some.inj provided)
    exact ⟨by rw [found, Option.some_or], .refl table unit⟩
  · rename_i missing
    obtain ⟨prototype, held, same⟩ := Option.map_eq_some_iff.mp provided
    obtain ⟨rfl, rfl⟩ := Prod.mk.inj same
    refine ⟨by rw [missing, held]; rfl, [prototype], rfl, ?_⟩
    simpa [wellNamed name prototype held] using held

/-- Giving a function its body changes no signature. -/
theorem map_signature_resolve?_giveBody (unit : CodeUnit) (table : PrototypeTable)
    (given name : String) :
    ((unit.giveBody given).resolve? table name).map UnitFunction.signature =
      (unit.resolve? table name).map UnitFunction.signature := by
  have sameName : ((fun found : UnitFunction => found.name == name) ∘
      fun found : UnitFunction => found.givenBody given) = fun found => found.name == name := by
    funext found
    simp
  rw [resolve?, resolve?, find?, find?, giveBody, List.find?_map, sameName]
  cases unit.functions.find? fun found => found.name == name with
  | none => rfl
  | some found => exact congrArg some (found.signature_givenBody given)

/-- So does providing the function first. -/
theorem map_signature_of_provide? (wellNamed : table.WellNamed) {given : String}
    (provided : unit.provide? table given = some (function, after)) (name : String) :
    ((after.giveBody given).resolve? table name).map UnitFunction.signature =
      (unit.resolve? table name).map UnitFunction.signature := by
  rw [map_signature_resolve?_giveBody, (provide?_eq_some wellNamed provided).2.resolve?_eq]

end CodeUnit

/-- A computation that succeeds in two parts. -/
theorem Except.bind_eq_ok_iff {ε α β : Type} {start : Except ε α} {rest : α -> Except ε β}
    {result : β} :
    (start >>= rest) = .ok result ↔ ∃ middle, start = .ok middle ∧ rest middle = .ok result := by
  cases start with
  | error error => simp [bind, Except.bind]
  | ok value => simp [bind, Except.bind]

namespace Expr

variable {unit after : CodeUnit}

theorem generate_reference_eq_ok_iff {name : String} :
    (reference name).generate table scope unit = .ok after ↔
      name ∈ scope ∧ unit = after := by
  rw [generate]
  split <;> simp [*]

theorem generate_binary_eq_ok_iff {operator : Char} {left right : Expr} :
    (binary operator left right).generate table scope unit = .ok after ↔
      operator ∈ generatedOperators ∧ ∃ middle, left.generate table scope unit = .ok middle ∧
        right.generate table scope middle = .ok after := by
  rw [generate, Except.bind_eq_ok_iff]
  constructor
  · rintro ⟨middle, leftDone, rest⟩
    obtain ⟨last, rightDone, checked⟩ := Except.bind_eq_ok_iff.mp rest
    split at checked
    · obtain rfl := Except.ok.inj checked
      exact ⟨‹_›, middle, leftDone, rightDone⟩
    · simp at checked
  · rintro ⟨known, middle, leftDone, rightDone⟩
    refine ⟨middle, leftDone, Except.bind_eq_ok_iff.mpr ⟨after, rightDone, if_pos known⟩⟩

/-- What is generated for a call, once its function is provided. -/
theorem generate_call_of_provide? {function : String} {arguments : List Expr}
    {callee : UnitFunction} {provided : CodeUnit}
    (found : unit.provide? table function = some (callee, provided)) :
    (call function arguments).generate table scope unit =
      if callee.arity = arguments.length then
        generateAll table scope arguments provided >>= fun after =>
          if callee.hasValue = true then .ok after else .error (.voidCall function)
      else .error (.arityMismatch function callee.arity arguments.length) := by
  rw [generate, found]
  by_cases fits : callee.arity = arguments.length
  · rw [if_pos fits]
    exact if_neg (not_not.mpr fits)
  · rw [if_neg fits]
    exact if_pos fits

theorem generate_call_eq_ok_iff {function : String} {arguments : List Expr} :
    (call function arguments).generate table scope unit = .ok after ↔
      ∃ callee provided, unit.provide? table function = some (callee, provided) ∧
        callee.arity = arguments.length ∧ callee.hasValue = true ∧
        generateAll table scope arguments provided = .ok after := by
  constructor
  · intro generated
    cases found : unit.provide? table function with
    | none => simp [generate, found] at generated
    | some given =>
      obtain ⟨callee, provided⟩ := given
      rw [generate_call_of_provide? found] at generated
      split at generated
      · obtain ⟨last, rest, checked⟩ := Except.bind_eq_ok_iff.mp generated
        split at checked
        · obtain rfl := Except.ok.inj checked
          exact ⟨callee, provided, rfl, ‹_›, ‹_›, rest⟩
        · simp at checked
      · simp at generated
  · rintro ⟨callee, provided, found, fits, valued, rest⟩
    rw [generate_call_of_provide? found, if_pos fits]
    exact Except.bind_eq_ok_iff.mpr ⟨after, rest, if_pos valued⟩

theorem generateAll_cons_eq_ok_iff {expr : Expr} {others : List Expr} :
    generateAll table scope (expr :: others) unit = .ok after ↔
      ∃ middle, expr.generate table scope unit = .ok middle ∧
        generateAll table scope others middle = .ok after := by
  rw [generateAll, Except.bind_eq_ok_iff]

/-- That an expression uses names as they are known: variables are in scope, operators have code,
and calls pass as many arguments as the functions take. -/
inductive WellScoped (resolve? : String -> Option UnitFunction) (scope : List String) :
    Expr -> Prop
  | number (value : Binary64) : WellScoped resolve? scope (.number value)
  | reference {name : String} (bound : name ∈ scope) :
      WellScoped resolve? scope (.reference name)
  | binary {operator : Char} {left right : Expr} (known : operator ∈ generatedOperators)
      (leftScoped : WellScoped resolve? scope left)
      (rightScoped : WellScoped resolve? scope right) :
      WellScoped resolve? scope (.binary operator left right)
  | call {function : String} {callee : UnitFunction} {arguments : List Expr}
      (found : resolve? function = some callee) (fits : callee.arity = arguments.length)
      (valued : callee.hasValue = true)
      (holds : ∀ argument ∈ arguments, WellScoped resolve? scope argument) :
      WellScoped resolve? scope (.call function arguments)

/-- Only the signatures of functions count. -/
theorem WellScoped.congr {first second : String -> Option UnitFunction} {expr : Expr}
    (same : ∀ name, (first name).map UnitFunction.signature =
      (second name).map UnitFunction.signature)
    (holds : expr.WellScoped first scope) : expr.WellScoped second scope := by
  induction holds with
  | number value => exact .number value
  | reference bound => exact .reference bound
  | binary known _ _ leftScoped rightScoped => exact .binary known leftScoped rightScoped
  | @call function callee arguments found fits valued _ inductionHypothesis =>
    obtain ⟨other, resolved, sameArity, sameValue⟩ :=
      UnitFunction.exists_of_map_signature same found
    exact .call resolved (sameArity.trans fits) (sameValue.trans valued) inductionHypothesis

mutual

/-- Code that is generated leaves a unit with some declarations more, and the expression is well
scoped. -/
theorem wellScoped_of_generate (wellNamed : table.WellNamed) :
    ∀ (expr : Expr) {unit after : CodeUnit}, expr.generate table scope unit = .ok after →
      unit.Extends table after ∧ expr.WellScoped (unit.resolve? table) scope
  | .number value, unit, after, generated => by
    obtain rfl := Except.ok.inj generated
    exact ⟨.refl table unit, .number value⟩
  | .reference name, unit, after, generated => by
    obtain ⟨bound, rfl⟩ := generate_reference_eq_ok_iff.mp generated
    exact ⟨.refl table unit, .reference bound⟩
  | .binary operator left right, unit, after, generated => by
    obtain ⟨known, middle, leftDone, rightDone⟩ := generate_binary_eq_ok_iff.mp generated
    obtain ⟨start, leftScoped⟩ := wellScoped_of_generate wellNamed left leftDone
    obtain ⟨rest, rightScoped⟩ := wellScoped_of_generate wellNamed right rightDone
    rw [start.resolve?_eq] at rightScoped
    exact ⟨start.trans rest, .binary known leftScoped rightScoped⟩
  | .call function arguments, unit, after, generated => by
    obtain ⟨callee, provided, found, fits, valued, rest⟩ := generate_call_eq_ok_iff.mp generated
    obtain ⟨resolved, start⟩ := CodeUnit.provide?_eq_some wellNamed found
    obtain ⟨further, holds⟩ := wellScoped_of_generateAll wellNamed arguments rest
    rw [start.resolve?_eq] at holds
    exact ⟨start.trans further, .call resolved fits valued holds⟩

theorem wellScoped_of_generateAll (wellNamed : table.WellNamed) :
    ∀ (exprs : List Expr) {unit after : CodeUnit}, generateAll table scope exprs unit = .ok after →
      unit.Extends table after ∧
        ∀ expr ∈ exprs, expr.WellScoped (unit.resolve? table) scope
  | [], unit, after, generated => by
    obtain rfl := Except.ok.inj generated
    exact ⟨.refl table unit, by simp⟩
  | expr :: others, unit, after, generated => by
    obtain ⟨middle, done, rest⟩ := generateAll_cons_eq_ok_iff.mp generated
    obtain ⟨start, holds⟩ := wellScoped_of_generate wellNamed expr done
    obtain ⟨further, othersScoped⟩ := wellScoped_of_generateAll wellNamed others rest
    rw [start.resolve?_eq] at othersScoped
    exact ⟨start.trans further, List.forall_mem_cons.mpr ⟨holds, othersScoped⟩⟩

end

mutual

/-- There is code for a well-scoped expression. -/
theorem exists_generate (wellNamed : table.WellNamed) :
    ∀ (expr : Expr) {unit : CodeUnit}, expr.WellScoped (unit.resolve? table) scope →
      ∃ after, expr.generate table scope unit = .ok after
  | .number value, unit, _ => ⟨unit, rfl⟩
  | .reference name, unit, holds => by
    cases holds with
    | reference bound => exact ⟨unit, generate_reference_eq_ok_iff.mpr ⟨bound, rfl⟩⟩
  | .binary operator left right, unit, holds => by
    cases holds with
    | binary known leftScoped rightScoped =>
      obtain ⟨middle, leftDone⟩ := exists_generate wellNamed left leftScoped
      have start := (wellScoped_of_generate wellNamed left leftDone).1
      rw [← start.resolve?_eq] at rightScoped
      obtain ⟨after, rightDone⟩ := exists_generate wellNamed right rightScoped
      exact ⟨after, generate_binary_eq_ok_iff.mpr ⟨known, middle, leftDone, rightDone⟩⟩
  | .call function arguments, unit, holds => by
    cases holds with
    | @call _ callee _ resolved fits valued argumentsScoped =>
      cases provided : unit.provide? table function with
      | none =>
        rw [CodeUnit.resolve?_eq_none_iff.mpr provided] at resolved
        simp at resolved
      | some found =>
        obtain ⟨resolvedTo, start⟩ := CodeUnit.provide?_eq_some wellNamed provided
        obtain rfl : callee = found.1 := Option.some.inj (resolved.symm.trans resolvedTo)
        rw [← start.resolve?_eq] at argumentsScoped
        obtain ⟨after, rest⟩ := exists_generateAll wellNamed arguments argumentsScoped
        exact ⟨after, generate_call_eq_ok_iff.mpr
          ⟨found.1, found.2, provided, fits, valued, rest⟩⟩

theorem exists_generateAll (wellNamed : table.WellNamed) :
    ∀ (exprs : List Expr) {unit : CodeUnit},
      (∀ expr ∈ exprs, expr.WellScoped (unit.resolve? table) scope) →
      ∃ after, generateAll table scope exprs unit = .ok after
  | [], unit, _ => ⟨unit, rfl⟩
  | expr :: others, unit, holds => by
    obtain ⟨exprScoped, othersScoped⟩ := List.forall_mem_cons.mp holds
    obtain ⟨middle, done⟩ := exists_generate wellNamed expr exprScoped
    have start := (wellScoped_of_generate wellNamed expr done).1
    rw [← start.resolve?_eq] at othersScoped
    obtain ⟨after, rest⟩ := exists_generateAll wellNamed others othersScoped
    exact ⟨after, generateAll_cons_eq_ok_iff.mpr ⟨middle, done, rest⟩⟩

end

/-- There is code for an expression if and only if it is well scoped. -/
theorem exists_generate_iff_wellScoped (wellNamed : table.WellNamed) (expr : Expr)
    (unit : CodeUnit) :
    (∃ after, expr.generate table scope unit = .ok after) ↔
      expr.WellScoped (unit.resolve? table) scope := by
  constructor
  · rintro ⟨after, generated⟩
    exact (wellScoped_of_generate wellNamed expr generated).2
  · exact exists_generate wellNamed expr

end Expr

namespace Definition

variable {function : Definition} {unit after : CodeUnit}

/-- A function gets a body if it has none yet and if there is code for the body. -/
theorem generate_eq_ok_iff :
    function.generate table unit = .ok after ↔
      ∃ itself provided, unit.provide? table function.prototype.name = some (itself, provided) ∧
        itself.hasBody = false ∧
        function.body.generate table (function.prototype.parameters.take itself.arity)
          (provided.giveBody function.prototype.name) = .ok after := by
  rw [generate]
  cases provided : unit.provide? table function.prototype.name with
  | none => simp
  | some found =>
    obtain ⟨itself, declared⟩ := found
    cases known : itself.hasBody <;> simp [known]

/-- There is code for a function if and only if it has no body yet and the one it gets is well
scoped over its parameters. If it was declared with fewer, only the first of them count. -/
theorem exists_generate_iff (wellNamed : table.WellNamed) (function : Definition)
    (unit : CodeUnit) :
    (∃ after, function.generate table unit = .ok after) ↔
      ∃ itself, unit.resolve? table function.prototype.name = some itself ∧
        itself.hasBody = false ∧ function.body.WellScoped (unit.resolve? table)
          (function.prototype.parameters.take itself.arity) := by
  constructor
  · rintro ⟨after, generated⟩
    obtain ⟨itself, provided, found, bodiless, rest⟩ := generate_eq_ok_iff.mp generated
    have resolved := (CodeUnit.provide?_eq_some wellNamed found).1
    have holds := (Expr.wellScoped_of_generate wellNamed _ rest).2
    have alike := CodeUnit.map_signature_of_provide? wellNamed found
    exact ⟨itself, resolved, bodiless, holds.congr alike⟩
  · rintro ⟨itself, resolved, bodiless, holds⟩
    cases found : unit.provide? table function.prototype.name with
    | none => simp [CodeUnit.resolve?_eq_none_iff.mpr found] at resolved
    | some given =>
      obtain ⟨same, provided⟩ := given
      have resolvedToo := (CodeUnit.provide?_eq_some wellNamed found).1
      obtain rfl := Option.some.inj (resolved.symm.trans resolvedToo)
      have alike := CodeUnit.map_signature_of_provide? wellNamed found
      obtain ⟨after, rest⟩ := Expr.exists_generate wellNamed _
        (holds.congr fun name => (alike name).symm)
      exact ⟨after, generate_eq_ok_iff.mpr ⟨itself, provided, found, bodiless, rest⟩⟩

theorem covered_of_generate (wellNamed : table.WellNamed) (covered : unit.Covered table)
    (generated : function.generate table unit = .ok after) : after.Covered table := by
  obtain ⟨itself, provided, found, _, rest⟩ := generate_eq_ok_iff.mp generated
  have start := (CodeUnit.provide?_eq_some wellNamed found).2
  have further := (Expr.wellScoped_of_generate wellNamed _ rest).1
  exact ((covered.extends start).giveBody _).extends further

end Definition

end ExprShell
