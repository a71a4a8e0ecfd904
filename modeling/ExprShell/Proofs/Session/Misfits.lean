import ExprShell.Proofs.Session.Scope
/-!
# What there is no code for

An expression without code has one misfit: the first name, operator or call, in the order in which
code is generated, that is not as it should be. The error that is reported names it.
-/

namespace ExprShell

variable {table : PrototypeTable} {scope : List String}

namespace Expr

/-- What is wrong with an expression, where what stands in front of it is in order. -/
inductive Misfit (resolve? : String -> Option UnitFunction) (scope : List String) :
    Expr -> GenerationError -> Prop
  | unknownVariable {name : String} (free : name ∉ scope) :
      Misfit resolve? scope (.reference name) (.unknownVariable name)
  | left {operator : Char} {left right : Expr} {error : GenerationError}
      (misfit : Misfit resolve? scope left error) :
      Misfit resolve? scope (.binary operator left right) error
  | right {operator : Char} {left right : Expr} {error : GenerationError}
      (leftScoped : left.WellScoped resolve? scope) (misfit : Misfit resolve? scope right error) :
      Misfit resolve? scope (.binary operator left right) error
  | invalidOperator {operator : Char} {left right : Expr}
      (leftScoped : left.WellScoped resolve? scope) (rightScoped : right.WellScoped resolve? scope)
      (unknown : operator ∉ generatedOperators) :
      Misfit resolve? scope (.binary operator left right) (.invalidOperator operator)
  | unknownFunction {function : String} {arguments : List Expr}
      (missing : resolve? function = none) :
      Misfit resolve? scope (.call function arguments) (.unknownFunction function)
  | arityMismatch {function : String} {callee : UnitFunction} {arguments : List Expr}
      (found : resolve? function = some callee) (differs : callee.arity ≠ arguments.length) :
      Misfit resolve? scope (.call function arguments)
        (.arityMismatch function callee.arity arguments.length)
  | argument {function : String} {callee : UnitFunction} {before after : List Expr}
      {argument : Expr} {error : GenerationError} (found : resolve? function = some callee)
      (fits : callee.arity = (before ++ argument :: after).length)
      (beforeScoped : ∀ expr ∈ before, expr.WellScoped resolve? scope)
      (misfit : Misfit resolve? scope argument error) :
      Misfit resolve? scope (.call function (before ++ argument :: after)) error
  | voidCall {function : String} {callee : UnitFunction} {arguments : List Expr}
      (found : resolve? function = some callee) (fits : callee.arity = arguments.length)
      (holds : ∀ argument ∈ arguments, argument.WellScoped resolve? scope)
      (void : callee.hasValue = false) :
      Misfit resolve? scope (.call function arguments) (.voidCall function)

/-- Only the signatures of functions count. -/
theorem Misfit.congr {first second : String -> Option UnitFunction} {expr : Expr}
    {error : GenerationError}
    (same : ∀ name, (first name).map UnitFunction.signature =
      (second name).map UnitFunction.signature)
    (misfit : expr.Misfit first scope error) : expr.Misfit second scope error := by
  induction misfit with
  | unknownVariable free => exact .unknownVariable free
  | left _ inductionHypothesis => exact .left inductionHypothesis
  | right leftScoped _ inductionHypothesis =>
    exact .right (leftScoped.congr same) inductionHypothesis
  | invalidOperator leftScoped rightScoped unknown =>
    exact .invalidOperator (leftScoped.congr same) (rightScoped.congr same) unknown
  | @unknownFunction function _ missing =>
    have signature := same function
    rw [missing] at signature
    exact .unknownFunction (Option.map_eq_none_iff.mp signature.symm)
  | arityMismatch found differs =>
    obtain ⟨other, resolved, sameArity, _⟩ := UnitFunction.exists_of_map_signature same found
    rw [← sameArity] at differs ⊢
    exact .arityMismatch resolved differs
  | argument found fits beforeScoped _ inductionHypothesis =>
    obtain ⟨other, resolved, sameArity, _⟩ := UnitFunction.exists_of_map_signature same found
    exact .argument resolved (sameArity.trans fits)
      (fun expr member => (beforeScoped expr member).congr same) inductionHypothesis
  | voidCall found fits holds void =>
    obtain ⟨other, resolved, sameArity, sameValue⟩ :=
      UnitFunction.exists_of_map_signature same found
    exact .voidCall resolved (sameArity.trans fits)
      (fun expr member => (holds expr member).congr same) (sameValue.trans void)

mutual

/-- An error in generating code names the first misfit. -/
theorem misfit_of_generate (wellNamed : table.WellNamed) :
    ∀ (expr : Expr) {unit : CodeUnit} {error : GenerationError},
      expr.generate table scope unit = .error error →
        expr.Misfit (unit.resolve? table) scope error
  | .number value, unit, error, failed => by simp [generate] at failed
  | .reference name, unit, error, failed => by
    rw [generate] at failed
    split at failed
    · simp at failed
    · obtain rfl := Except.error.inj failed
      exact .unknownVariable ‹_›
  | .binary operator left right, unit, error, failed => by
    rw [generate] at failed
    cases leftDone : left.generate table scope unit with
    | error cause =>
      rw [leftDone] at failed
      obtain rfl := Except.error.inj failed
      exact .left (misfit_of_generate wellNamed left leftDone)
    | ok middle =>
      obtain ⟨start, leftScoped⟩ := wellScoped_of_generate wellNamed left leftDone
      rw [leftDone] at failed
      change (right.generate table scope middle >>= _) = _ at failed
      cases rightDone : right.generate table scope middle with
      | error cause =>
        rw [rightDone] at failed
        obtain rfl := Except.error.inj failed
        have misfit := misfit_of_generate wellNamed right rightDone
        rw [start.resolve?_eq] at misfit
        exact .right leftScoped misfit
      | ok last =>
        obtain ⟨_, rightScoped⟩ := wellScoped_of_generate wellNamed right rightDone
        rw [start.resolve?_eq] at rightScoped
        rw [rightDone] at failed
        change (if operator ∈ generatedOperators then _ else _) = _ at failed
        split at failed
        · simp at failed
        · obtain rfl := Except.error.inj failed
          exact .invalidOperator leftScoped rightScoped ‹_›
  | .call function arguments, unit, error, failed => by
    cases provided : unit.provide? table function with
    | none =>
      rw [generate, provided] at failed
      obtain rfl := Except.error.inj failed
      exact .unknownFunction (CodeUnit.resolve?_eq_none_iff.mpr provided)
    | some found =>
      obtain ⟨callee, declared⟩ := found
      obtain ⟨resolved, start⟩ := CodeUnit.provide?_eq_some wellNamed provided
      rw [generate_call_of_provide? provided] at failed
      split at failed
      · rename_i fits
        cases generated : generateAll table scope arguments declared with
        | error cause =>
          rw [generated] at failed
          obtain rfl := Except.error.inj failed
          obtain ⟨before, argument, after, rfl, beforeScoped, misfit⟩ :=
            misfit_of_generateAll wellNamed arguments generated
          rw [start.resolve?_eq] at beforeScoped misfit
          exact .argument resolved fits beforeScoped misfit
        | ok last =>
          obtain ⟨_, holds⟩ := wellScoped_of_generateAll wellNamed arguments generated
          rw [start.resolve?_eq] at holds
          rw [generated] at failed
          change (if callee.hasValue = true then _ else _) = _ at failed
          split at failed
          · simp at failed
          · obtain rfl := Except.error.inj failed
            exact .voidCall resolved fits holds (Bool.eq_false_iff.mpr ‹_›)
      · obtain rfl := Except.error.inj failed
        exact .arityMismatch resolved ‹_›

theorem misfit_of_generateAll (wellNamed : table.WellNamed) :
    ∀ (exprs : List Expr) {unit : CodeUnit} {error : GenerationError},
      generateAll table scope exprs unit = .error error →
        ∃ before expr after, exprs = before ++ expr :: after ∧
          (∀ former ∈ before, former.WellScoped (unit.resolve? table) scope) ∧
          expr.Misfit (unit.resolve? table) scope error
  | [], unit, error, failed => by simp [generateAll] at failed
  | expr :: others, unit, error, failed => by
    rw [generateAll] at failed
    cases done : expr.generate table scope unit with
    | error cause =>
      rw [done] at failed
      obtain rfl := Except.error.inj failed
      exact ⟨[], expr, others, rfl, by simp, misfit_of_generate wellNamed expr done⟩
    | ok middle =>
      obtain ⟨start, exprScoped⟩ := wellScoped_of_generate wellNamed expr done
      rw [done] at failed
      change generateAll table scope others middle = _ at failed
      obtain ⟨before, misfitting, after, rfl, beforeScoped, misfit⟩ :=
        misfit_of_generateAll wellNamed others failed
      rw [start.resolve?_eq] at beforeScoped misfit
      exact ⟨expr :: before, misfitting, after, rfl,
        List.forall_mem_cons.mpr ⟨exprScoped, beforeScoped⟩, misfit⟩

end

section Misfits

variable {resolve? : String -> Option UnitFunction} {expr : Expr} {error other : GenerationError}

/-- What is well scoped has no misfit. -/
theorem Misfit.not_wellScoped (misfit : expr.Misfit resolve? scope error) :
    ¬ expr.WellScoped resolve? scope := by
  intro holds
  induction misfit with
  | unknownVariable free =>
    cases holds with
    | reference bound => exact free bound
  | left _ inductionHypothesis =>
    cases holds with
    | binary _ leftScoped _ => exact inductionHypothesis leftScoped
  | right _ _ inductionHypothesis =>
    cases holds with
    | binary _ _ rightScoped => exact inductionHypothesis rightScoped
  | invalidOperator _ _ unknown =>
    cases holds with
    | binary known _ _ => exact unknown known
  | unknownFunction missing =>
    cases holds with
    | call found => simp [missing] at found
  | arityMismatch found differs =>
    cases holds with
    | call resolved fits =>
      obtain rfl := Option.some.inj (found.symm.trans resolved)
      exact differs fits
  | argument _ _ _ _ inductionHypothesis =>
    cases holds with
    | call _ _ _ all => exact inductionHypothesis (all _ (by simp))
  | voidCall found _ _ void =>
    cases holds with
    | call resolved _ valued =>
      obtain rfl := Option.some.inj (found.symm.trans resolved)
      simp [void] at valued

/-- Of two misfits among some expressions each is the first. -/
theorem Misfit.first_unique {before after before' after' : List Expr} {expr' : Expr}
    (same : before ++ expr :: after = before' ++ expr' :: after')
    (beforeScoped : ∀ former ∈ before, former.WellScoped resolve? scope)
    (beforeScoped' : ∀ former ∈ before', former.WellScoped resolve? scope)
    (misfit : expr.Misfit resolve? scope error) (misfit' : expr'.Misfit resolve? scope other) :
    expr = expr' := by
  rcases List.append_eq_append_iff.mp same with ⟨more, rfl, rest⟩ | ⟨more, rfl, rest⟩
  · cases more with
    | nil => exact (List.cons.inj rest).1
    | cons former others =>
      obtain rfl : expr = former := (List.cons.inj rest).1
      exact absurd (beforeScoped' expr (by simp)) misfit.not_wellScoped
  · cases more with
    | nil => exact (List.cons.inj rest).1.symm
    | cons former others =>
      obtain rfl : expr' = former := (List.cons.inj rest).1
      exact absurd (beforeScoped expr' (by simp)) misfit'.not_wellScoped

/-- An expression has one misfit at most. -/
theorem Misfit.unique (misfit : expr.Misfit resolve? scope error)
    (misfit' : expr.Misfit resolve? scope other) : error = other := by
  induction misfit generalizing other with
  | unknownVariable => cases misfit'; rfl
  | left misfit inductionHypothesis =>
    cases misfit' with
    | left misfit' => exact inductionHypothesis misfit'
    | right leftScoped => exact absurd leftScoped misfit.not_wellScoped
    | invalidOperator leftScoped => exact absurd leftScoped misfit.not_wellScoped
  | right leftScoped misfit inductionHypothesis =>
    cases misfit' with
    | left misfit' => exact absurd leftScoped misfit'.not_wellScoped
    | right _ misfit' => exact inductionHypothesis misfit'
    | invalidOperator _ rightScoped => exact absurd rightScoped misfit.not_wellScoped
  | invalidOperator leftScoped rightScoped =>
    cases misfit' with
    | left misfit' => exact absurd leftScoped misfit'.not_wellScoped
    | right _ misfit' => exact absurd rightScoped misfit'.not_wellScoped
    | invalidOperator => rfl
  | unknownFunction missing =>
    cases misfit' with
    | unknownFunction => rfl
    | arityMismatch found | argument found | voidCall found => simp [missing] at found
  | arityMismatch found differs =>
    cases misfit' with
    | unknownFunction missing => simp [missing] at found
    | arityMismatch found' =>
      obtain rfl := Option.some.inj (found.symm.trans found')
      rfl
    | argument found' fits | voidCall found' fits =>
      obtain rfl := Option.some.inj (found.symm.trans found')
      exact absurd fits differs
  | argument found fits beforeScoped misfit inductionHypothesis =>
    generalize same : _ ++ _ :: _ = arguments at misfit' fits
    cases misfit' with
    | unknownFunction missing => simp [missing] at found
    | arityMismatch found' differs =>
      obtain rfl := Option.some.inj (found.symm.trans found')
      exact absurd fits differs
    | argument _ _ beforeScoped' misfit' =>
      obtain rfl := Misfit.first_unique same beforeScoped beforeScoped' misfit misfit'
      exact inductionHypothesis misfit'
    | voidCall _ _ holds =>
      exact absurd (holds _ (by simp [← same])) misfit.not_wellScoped
  | voidCall found fits holds =>
    cases misfit' with
    | unknownFunction missing => simp [missing] at found
    | arityMismatch found' differs =>
      obtain rfl := Option.some.inj (found.symm.trans found')
      exact absurd fits differs
    | argument _ _ _ misfit' => exact absurd (holds _ (by simp)) misfit'.not_wellScoped
    | voidCall => rfl

/-- A misfit is no redefinition and no function that is out of order; and no call is without a value
where all functions have one. -/
theorem Misfit.error_ne (misfit : expr.Misfit resolve? scope error) :
    (∀ name, error ≠ .redefinition name) ∧ (∀ name, error ≠ .invalidFunction name) ∧
      ((∀ name callee, resolve? name = some callee → callee.hasValue = true) →
        ∀ name, error ≠ .voidCall name) := by
  induction misfit with
  | left _ inductionHypothesis => exact inductionHypothesis
  | right _ _ inductionHypothesis => exact inductionHypothesis
  | argument _ _ _ _ inductionHypothesis => exact inductionHypothesis
  | unknownVariable | invalidOperator | unknownFunction | arityMismatch => simp
  | voidCall found _ _ void =>
    refine ⟨by simp, by simp, fun valued => ?_⟩
    simp [valued _ _ found] at void

end Misfits

/-- Generating code for an expression fails with an error if and only if that is its misfit. -/
theorem generate_eq_error_iff (wellNamed : table.WellNamed) (expr : Expr) (unit : CodeUnit)
    (error : GenerationError) :
    expr.generate table scope unit = .error error ↔
      expr.Misfit (unit.resolve? table) scope error := by
  constructor
  · exact misfit_of_generate wellNamed expr
  · intro misfit
    cases generated : expr.generate table scope unit with
    | ok after =>
      exact absurd (wellScoped_of_generate wellNamed expr generated).2 misfit.not_wellScoped
    | error found =>
      rw [misfit.unique (misfit_of_generate wellNamed expr generated)]

end Expr

/-- A function gets no body if its name is unknown, if it has one already, or if the one that it
should get has a misfit. -/
theorem Definition.generate_eq_error_iff (wellNamed : table.WellNamed) (function : Definition)
    (unit : CodeUnit) (error : GenerationError) :
    function.generate table unit = .error error ↔
      unit.resolve? table function.prototype.name = none ∧
          error = .unknownFunction function.prototype.name ∨
        ∃ itself, unit.resolve? table function.prototype.name = some itself ∧
          (itself.hasBody = true ∧ error = .redefinition function.prototype.name ∨
            itself.hasBody = false ∧ function.body.Misfit (unit.resolve? table)
              (function.prototype.parameters.take itself.arity) error) := by
  rw [generate]
  cases found : unit.provide? table function.prototype.name with
  | none =>
    have missing := CodeUnit.resolve?_eq_none_iff.mpr found
    constructor
    · intro failed
      exact .inl ⟨missing, (Except.error.inj failed).symm⟩
    · rintro (⟨_, rfl⟩ | ⟨itself, resolved, _⟩)
      · rfl
      · simp [missing] at resolved
  | some given =>
    obtain ⟨itself, provided⟩ := given
    have resolved := (CodeUnit.provide?_eq_some wellNamed found).1
    have alike := CodeUnit.map_signature_of_provide? wellNamed found
    have misfits : function.body.Misfit ((provided.giveBody function.prototype.name).resolve? table)
        (function.prototype.parameters.take itself.arity) error ↔
        function.body.Misfit (unit.resolve? table)
          (function.prototype.parameters.take itself.arity) error :=
      ⟨.congr alike, .congr fun name => (alike name).symm⟩
    simp only [resolved, reduceCtorEq, false_and, false_or, Option.some.injEq, exists_eq_left']
    cases itself.hasBody with
    | true => simp [eq_comm]
    | false => simp [Expr.generate_eq_error_iff wellNamed, misfits]

end ExprShell
