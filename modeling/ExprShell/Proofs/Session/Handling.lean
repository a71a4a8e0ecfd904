import ExprShell.Proofs.Session.Misfits
import ExprShell.Session.Basic
/-!
# What an item does to a session

Where there is a backend, an item does one of four things: no code is generated for it, or a
function is defined, declared, or run and dropped. `Session.Handles` says so once, and what holds of
every session follows from it: a function without code leaves no trace, and between two items all
prototypes stand under their own names, all functions of the open unit have a prototype, the
nameless function is gone, and no code waits in JIT mode.
-/

namespace ExprShell

/-- The function that an item is compiled to. A declaration is compiled to none. -/
def Item.function? : Item -> Option Definition
  | declaration _ => none
  | definition function => some function
  | expression body => some (.anonymous body)

/-- Whether an item leaves the name of the nameless function to expressions. -/
def Item.isNamed : Item -> Bool
  | expression _ => true
  | item => item.prototype.name != Prototype.anonymous.name

namespace Session

variable {session later : Session} {backend : Backend}

/-- What an item can give where there is a backend, and the session that it leaves. -/
inductive Handles (backend : Backend) (session : Session) :
    Item -> Except SessionError (Outcome (some backend)) -> Session -> Prop
  | refused {item : Item} {function : Definition} {error : GenerationError}
      (compiles : item.function? = some function)
      (failed : session.build backend function (session.entered function.prototype) =
        .error error) :
      Handles backend session item (.error (.generation error))
        (session.withdrawn function.prototype)
  | defined {function : Definition} {unit : CodeUnit}
      {result : Except SessionError (Outcome (some backend))}
      (generated : function.generate (session.entered function.prototype) session.unit = .ok unit)
      (accepted : ∀ error, result ≠ .error (.generation error)) :
      Handles backend session (.definition function) result
        { session with
          prototypes := session.entered function.prototype, unit := session.opened unit }
  | declared {prototype : Prototype} {result : Except SessionError (Outcome (some backend))}
      (accepted : ∀ error, result ≠ .error (.generation error)) :
      Handles backend session (.declaration prototype) result
        { session.declared prototype with
          unit := session.opened (session.declared prototype).unit }
  | expressed {body : Expr} {unit : CodeUnit}
      {result : Except SessionError (Outcome (some backend))}
      (generated : (Definition.anonymous body).generate (session.entered .anonymous)
        session.unit = .ok unit)
      (accepted : ∀ error, result ≠ .error (.generation error)) :
      Handles backend session (.expression body) result
        { session with
          prototypes := ((session.entered .anonymous).remove Prototype.anonymous.name).1
          unit := session.opened (unit.drop Prototype.anonymous.name) }

section Parts

variable {function : Definition} {table : PrototypeTable}

/-- A function is built if its code can be generated and is in order. -/
theorem build_eq_ok_iff :
    session.build backend function table = .ok later ↔
      ∃ unit, function.generate table session.unit = .ok unit ∧
        later = { session with prototypes := table, unit := unit } ∧
        backend.verifies later function = true := by
  rw [build, Except.bind_eq_ok_iff]
  constructor
  · rintro ⟨unit, generated, checked⟩
    refine ⟨unit, generated, ?_⟩
    split at checked
    · obtain rfl := Except.ok.inj checked
      exact ⟨rfl, ‹_›⟩
    · simp [throw, throwThe, MonadExceptOf.throw] at checked
  · rintro ⟨unit, generated, rfl, verifies⟩
    exact ⟨unit, generated, if_pos verifies⟩

/-- A function is compiled, or what its prototype displaced is put back. -/
theorem compile_cases (session : Session) (backend : Backend) (function : Definition) :
    (∃ unit code,
      function.generate (session.entered function.prototype) session.unit = .ok unit ∧
        session.compile backend function = (.ok code,
          { session with prototypes := session.entered function.prototype, unit := unit })) ∨
    ∃ error,
      session.build backend function (session.entered function.prototype) = .error error ∧
        session.compile backend function = (.error error, session.withdrawn function.prototype) := by
  rw [compile]
  cases built : session.build backend function (session.entered function.prototype) with
  | error error => exact .inr ⟨error, rfl, rfl⟩
  | ok after =>
    obtain ⟨unit, generated, rfl, _⟩ := build_eq_ok_iff.mp built
    exact .inl ⟨unit, _, generated, rfl⟩

/-- The engine is not told about a function without code. -/
theorem engine_ne_generation {α β : Type} (result : Except EngineError α) (value : α -> β)
    (error : GenerationError) :
    (result.mapError SessionError.engine).map value ≠ .error (.generation error) := by
  cases result <;> simp [Except.mapError, Except.map]

theorem handOff_ne_generation (session : Session) (outcome : Outcome (some backend))
    (error : GenerationError) :
    (session.handOff backend outcome).1 ≠ .error (.generation error) := by
  rw [handOff]
  split
  · exact engine_ne_generation _ _ error
  · simp

end Parts

/-- Whatever an item gives with a backend, it is one of the four things. -/
theorem handles_generate (session : Session) (backend : Backend) (item : Item) :
    Handles backend session item (session.generate backend item).1
      (session.generate backend item).2 := by
  cases item with
  | declaration prototype => exact .declared (handOff_ne_generation _ _)
  | definition function =>
    rw [generate, define]
    rcases session.compile_cases backend function with
      ⟨unit, code, generated, compiled⟩ | ⟨error, failed, compiled⟩
    · rw [compiled]
      exact .defined generated (handOff_ne_generation _ _)
    · rw [compiled]
      exact .refused rfl failed
  | expression body =>
    rw [generate, express]
    rcases session.compile_cases backend (.anonymous body) with
      ⟨unit, code, generated, compiled⟩ | ⟨error, failed, compiled⟩
    · rw [compiled]
      refine .expressed generated fun error => ?_
      change (if session.config.mode = .jit then _ else _) ≠ _
      split
      · exact engine_ne_generation _ _ error
      · simp
    · rw [compiled]
      exact .refused rfl failed

/-- A session stays in its mode. -/
theorem config_after (session : Session) (item : Item) (backend : Option Backend) :
    (session.after item backend).config = session.config := by
  by_cases parsing : session.config.mode = .parse
  · rw [after_of_parsing parsing]
  · cases backend with
    | none => rw [after, turn_of_none parsing]
    | some backend =>
      rw [after, turn_of_generating parsing]
      change (session.generate backend item).2.config = session.config
      have handles := session.handles_generate backend item
      generalize session.generate backend item = given at handles ⊢
      obtain ⟨result, left⟩ := given
      cases handles <;> rfl

/-! ## Functions without code -/

/-- Putting back what a prototype displaced makes a table answer as before. -/
theorem alike_withdrawn (wellNamed : session.prototypes.WellNamed) (prototype : Prototype) :
    (session.withdrawn prototype).prototypes.Alike session.prototypes := by
  refine .of_get? fun name => ?_
  have restored := PrototypeTable.get?_restore_get? wellNamed (session.entered prototype)
    prototype.name name
  rw [entered, PrototypeTable.get?_insert] at restored
  exact restored.trans (by split <;> rfl)

/-- Where an item fails for want of code, building its function has failed, and its prototype has
been withdrawn. -/
theorem exists_failed_of_handle {item : Item} {error : GenerationError}
    (failed : session.handle item (some backend) = .error (.generation error)) :
    ∃ function, item.function? = some function ∧
      session.build backend function (session.entered function.prototype) = .error error ∧
      session.after item (some backend) =
        { session.withdrawn function.prototype with handled := item :: session.handled } := by
  by_cases parsing : session.config.mode = .parse
  · simp [handle, turn_of_parsing parsing] at failed
  · rw [handle, turn_of_generating parsing] at failed
    rw [after, turn_of_generating parsing]
    have handles := session.handles_generate backend item
    change (session.generate backend item).1 = _ at failed
    rw [failed] at handles
    generalize (session.generate backend item).2 = left at handles ⊢
    cases handles with
    | @refused _ function _ compiles cause => exact ⟨function, compiles, cause, rfl⟩
    | defined _ accepted => exact absurd rfl (accepted error)
    | declared accepted => exact absurd rfl (accepted error)
    | expressed _ accepted => exact absurd rfl (accepted error)

/-- A function without code leaves no trace: the open unit is the one before, and the table answers
as before. -/
theorem after_of_generation_error {item : Item} {error : GenerationError}
    (wellNamed : session.prototypes.WellNamed)
    (failed : session.handle item (some backend) = .error (.generation error)) :
    (session.after item (some backend)).unit = session.unit ∧
      (session.after item (some backend)).prototypes.Alike session.prototypes := by
  obtain ⟨function, _, _, left⟩ := exists_failed_of_handle failed
  rw [left]
  exact ⟨rfl, alike_withdrawn wellNamed function.prototype⟩

/-! ## Between two items -/

/-- What holds of a session between two items. -/
structure IsSettled (session : Session) : Prop where
  wellNamed : session.prototypes.WellNamed
  nameless : session.prototypes.contains Prototype.anonymous.name = false
  covered : session.unit.Covered session.prototypes
  unit_eq_empty : session.config.mode = .jit → session.unit = .empty

theorem isSettled_fresh (config : SessionConfig) : (fresh config).IsSettled where
  wellNamed := by simp [fresh, PrototypeTable.WellNamed]
  nameless := by simp [fresh, PrototypeTable.contains_eq_isSome_get?]
  covered := by simp [fresh, CodeUnit.Covered, CodeUnit.empty]
  unit_eq_empty _ := rfl

/-- The nameless function is not in the open unit either. -/
theorem IsSettled.find?_anonymous (settled : session.IsSettled) :
    session.unit.find? Prototype.anonymous.name = none := by
  refine List.find?_eq_none.mpr fun function member named => ?_
  have known := (settled.covered function member).1
  rw [beq_iff_eq.mp named, settled.nameless] at known
  simp at known

section Settled

variable {table : PrototypeTable} {unit : CodeUnit}

theorem covered_opened (session : Session) (covered : unit.Covered table) :
    (session.opened unit).Covered table := by
  rw [Session.opened]
  split
  · simp [CodeUnit.Covered, CodeUnit.empty]
  · exact covered

/-- A prototype under another name leaves the nameless function unknown. -/
theorem nameless_insert (nameless : table.contains Prototype.anonymous.name = false)
    {prototype : Prototype} (named : prototype.name ≠ Prototype.anonymous.name) :
    (table.insert prototype).1.contains Prototype.anonymous.name = false := by
  rw [PrototypeTable.contains_eq_isSome_get?] at nameless ⊢
  rw [PrototypeTable.get?_insert, if_neg named, nameless]

theorem nameless_remove (table : PrototypeTable) :
    (table.remove Prototype.anonymous.name).1.contains Prototype.anonymous.name = false := by
  rw [PrototypeTable.contains_eq_isSome_get?, PrototypeTable.get?_remove, if_pos rfl]
  rfl

theorem IsSettled.covered_declared (settled : session.IsSettled) (prototype : Prototype) :
    (session.declared prototype).unit.Covered (session.declared prototype).prototypes := by
  have covered := settled.covered.insert prototype
  rw [Session.declared]
  dsimp only
  split
  · exact covered
  · intro function member
    rcases List.mem_append.mp member with former | new
    · exact covered function former
    · obtain rfl := List.mem_singleton.mp new
      refine ⟨?_, rfl⟩
      rw [PrototypeTable.contains_eq_isSome_get?, entered, PrototypeTable.get?_insert]
      exact congrArg Option.isSome (if_pos rfl)

end Settled

/-- An item that leaves the nameless function alone leaves a settled session. -/
theorem IsSettled.of_handles {item : Item} {result : Except SessionError (Outcome (some backend))}
    (settled : session.IsSettled) (named : item.isNamed = true)
    (handles : Handles backend session item result later) : later.IsSettled := by
  cases handles with
  | @refused _ function =>
    have alike := alike_withdrawn settled.wellNamed function.prototype
    exact {
      wellNamed := (settled.wellNamed.insert _).restore _ _
      nameless := (alike.contains _).trans settled.nameless
      covered := fun function member =>
        ⟨(alike.contains _).trans (settled.covered function member).1,
          (settled.covered function member).2⟩
      unit_eq_empty := settled.unit_eq_empty }
  | @defined function unit _ generated =>
    have named : function.prototype.name ≠ Prototype.anonymous.name := by
      simpa [Item.isNamed, Item.prototype] using named
    have wellNamed := settled.wellNamed.insert function.prototype
    exact {
      wellNamed := wellNamed
      nameless := nameless_insert settled.nameless named
      covered := covered_opened session (Definition.covered_of_generate wellNamed
        (settled.covered.insert _) generated)
      unit_eq_empty := fun closes => if_pos closes }
  | @declared prototype =>
    have named : prototype.name ≠ Prototype.anonymous.name := by
      simpa [Item.isNamed, Item.prototype] using named
    exact {
      wellNamed := settled.wellNamed.insert prototype
      nameless := nameless_insert settled.nameless named
      covered := covered_opened session (settled.covered_declared prototype)
      unit_eq_empty := fun closes => if_pos closes }
  | @expressed body unit _ generated =>
    have wellNamed := settled.wellNamed.insert .anonymous
    exact {
      wellNamed := wellNamed.remove _
      nameless := nameless_remove _
      covered := covered_opened session ((Definition.covered_of_generate wellNamed
        (settled.covered.insert _) generated).drop _)
      unit_eq_empty := fun closes => if_pos closes }

theorem IsSettled.after (settled : session.IsSettled) {item : Item} (named : item.isNamed = true)
    (backend : Option Backend) : (session.after item backend).IsSettled := by
  by_cases parsing : session.config.mode = .parse
  · rwa [after_of_parsing parsing]
  · cases backend with
    | none => rwa [Session.after, turn_of_none parsing]
    | some backend =>
      have left := settled.of_handles named (session.handles_generate backend item)
      rw [Session.after, turn_of_generating parsing]
      exact ⟨left.wellNamed, left.nameless, left.covered, left.unit_eq_empty⟩

/-- Several items, one after the other. -/
def afterAll (session : Session) (backend : Option Backend) (items : List Item) : Session :=
  items.foldl (fun session item => session.after item backend) session

/-- A session that starts with nothing is settled after any items. -/
theorem isSettled_afterAll (config : SessionConfig) (backend : Option Backend)
    (items : List Item) (named : ∀ item ∈ items, item.isNamed = true) :
    ((fresh config).afterAll backend items).IsSettled := by
  have start := isSettled_fresh config
  generalize fresh config = session at start
  induction items generalizing session with
  | nil => exact start
  | cons item others inductionHypothesis =>
    obtain ⟨first, rest⟩ := List.forall_mem_cons.mp named
    exact inductionHypothesis rest _ (start.after first backend)

/-! ## What settled sessions refuse -/

/-- Every function that a settled session knows has a value. -/
theorem IsSettled.hasValue_of_resolve? (settled : session.IsSettled) {table : PrototypeTable}
    {name : String} {callee : UnitFunction}
    (resolved : session.unit.resolve? table name = some callee) : callee.hasValue = true := by
  rw [CodeUnit.resolve?] at resolved
  rcases Option.or_eq_some_iff.mp resolved with found | ⟨_, declared⟩
  · exact (settled.covered callee (List.mem_of_find?_eq_some found)).2
  · obtain ⟨prototype, _, rfl⟩ := Option.map_eq_some_iff.mp declared
    rfl

/-- In JIT mode a name stands for what its prototype declares. -/
theorem IsSettled.resolve?_eq (settled : session.IsSettled) (closes : session.config.mode = .jit)
    (table : PrototypeTable) (name : String) :
    session.unit.resolve? table name = (table.get? name).map .declared := by
  rw [settled.unit_eq_empty closes]
  rfl

/-- A function that is entered stands for something. -/
theorem resolve?_entered_ne_none (session : Session) (prototype : Prototype) :
    session.unit.resolve? (session.entered prototype) prototype.name ≠ none := by
  rw [CodeUnit.resolve?, entered, PrototypeTable.get?_insert, if_pos rfl]
  simp

/-- Why a settled session builds no code for a function: outside JIT mode it may have some already,
its body may have a misfit, and its code may not be in order. -/
theorem IsSettled.build_eq_error (settled : session.IsSettled) {function : Definition}
    {error : GenerationError}
    (failed : session.build backend function (session.entered function.prototype) =
      .error error) :
    session.config.mode ≠ .jit ∧ error = .redefinition function.prototype.name ∨
      (∃ scope, function.body.Misfit
        (session.unit.resolve? (session.entered function.prototype)) scope error) ∨
      error = .invalidFunction function.prototype.name := by
  have wellNamed := settled.wellNamed.insert function.prototype
  rw [build] at failed
  cases generated : function.generate (session.entered function.prototype) session.unit with
  | ok unit =>
    rw [generated] at failed
    change (if _ then _ else throw _) = _ at failed
    split at failed
    · simp [pure, Except.pure] at failed
    · exact .inr (.inr (Except.error.inj failed).symm)
  | error cause =>
    rw [generated] at failed
    obtain rfl := Except.error.inj failed
    rcases (function.generate_eq_error_iff wellNamed session.unit cause).mp generated with
      ⟨missing, _⟩ | ⟨itself, resolved, ⟨bodied, rfl⟩ | ⟨_, misfit⟩⟩
    · exact absurd missing (session.resolve?_entered_ne_none function.prototype)
    · refine .inl ⟨fun closes => ?_, rfl⟩
      -- What a prototype declares has no body.
      have declared := settled.resolve?_eq closes (session.entered function.prototype)
        function.prototype.name
      obtain ⟨prototype, _, rfl⟩ := Option.map_eq_some_iff.mp (declared.symm.trans resolved)
      simp [UnitFunction.declared] at bodied
    · exact .inr (.inl ⟨_, misfit⟩)

/-- In JIT mode no definition is refused because there was one of its name before, and in no mode is
there a call without a value. -/
theorem IsSettled.handle_ne_error (settled : session.IsSettled) (item : Item)
    (backend : Option Backend) (name : String) :
    (session.config.mode = .jit →
      session.handle item backend ≠ .error (.generation (.redefinition name))) ∧
      session.handle item backend ≠ .error (.generation (.voidCall name)) := by
  cases backend with
  | none =>
    by_cases parsing : session.config.mode = .parse
    · simp [handle, turn_of_parsing parsing]
    · simp [handle, turn_of_none parsing, noBackend]
  | some backend =>
    constructor
    · intro closes failed
      obtain ⟨function, _, cause, _⟩ := exists_failed_of_handle failed
      rcases settled.build_eq_error cause with ⟨keeps, _⟩ | ⟨scope, misfit⟩ | other
      · exact keeps closes
      · exact misfit.error_ne.1 name rfl
      · simp at other
    · intro failed
      obtain ⟨function, _, cause, _⟩ := exists_failed_of_handle failed
      rcases settled.build_eq_error cause with ⟨_, other⟩ | ⟨scope, misfit⟩ | other
      · simp at other
      · exact misfit.error_ne.2.2 (fun _ _ => settled.hasValue_of_resolve?) name rfl
      · simp at other

end Session

end ExprShell
