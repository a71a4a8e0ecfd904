import ExprShell.Number.Shortest
import ExprShell.Session.Generation
/-!
# Sessions

A session handles one parsed item after the other, in the mode it was started in. In parse mode it
reports what kind of item it was given. In the two other modes it generates code into a unit. One
unit is open at a time. In IR mode it is never closed; in JIT mode every definition and every
declaration closes it and hands it to the execution engine, and every expression closes it, is run
and is thrown away with it.

What is done with the code is not told here: a session works with any backend that makes code and
runs it. Without one it can only parse.
-/

namespace ExprShell

/-- What a session does with an item: report its kind, generate code, or compute its value. -/
inductive Mode
  | parse
  | ir
  | jit
deriving DecidableEq, Repr

namespace Mode

/-- All modes, in the order in which they are listed to users. -/
def all : List Mode := [parse, ir, jit]

/-- The name a mode is chosen by. -/
def name : Mode -> String
  | parse => "parse"
  | ir => "ir"
  | jit => "jit"

/-- The mode of a name. -/
def ofName? (name : String) : Option Mode := all.find? fun mode => mode.name == name

/-- The wording for a name that is no mode. -/
def unknownMessage (name : String) : String := "unknown mode " ++ name

end Mode

/-- How a session is started. -/
structure SessionConfig where
  mode : Mode
  optimize : Bool
deriving DecidableEq, Repr

/-- Values are computed and code is optimized unless the user says otherwise. -/
def SessionConfig.standard : SessionConfig := ⟨.jit, true⟩

/-- A session: the prototypes it knows, the unit that is open for code, and the items that have gone
to the backend, latest first. -/
structure Session where
  config : SessionConfig
  prototypes : PrototypeTable
  unit : CodeUnit
  handled : List Item

/-- What makes code and runs it. Whatever it does may depend on the whole session, which knows all
items that have gone to the backend before. -/
structure Backend where
  /-- Starts the execution engine. -/
  start : Except EngineError Unit
  /-- Whether the code of a function is in order. -/
  verifies : Session -> Definition -> Bool
  /-- The code of a function with a body. -/
  emit : Session -> Definition -> String
  /-- The code of a declaration. -/
  declare : Session -> Prototype -> String
  /-- Hands the open unit to the engine. -/
  load : Session -> Except EngineError Unit
  /-- Runs the nameless function of the open unit. -/
  evaluate : Session -> Except EngineError Binary64
  /-- The code of the open unit. -/
  print : Session -> String
  /-- Where the engine has the code of a name. -/
  address : Session -> String -> Option Nat

/-- What handling an item gave. There is no code without a backend, and no value. -/
inductive Outcome : Option Backend -> Type
  | parsed {backend : Option Backend} (kind : String) : Outcome backend
  | definition {backend : Backend} (code : String) : Outcome (some backend)
  | declaration {backend : Backend} (code : String) : Outcome (some backend)
  | expression {backend : Backend} (code : String) : Outcome (some backend)
  | evaluated {backend : Backend} (value : Binary64) : Outcome (some backend)

/-- What is reported about an outcome. -/
def Outcome.report {backend : Option Backend} : Outcome backend -> String
  | parsed kind => "Parsed " ++ kind ++ ".\n"
  | definition code => "Read function definition:\n" ++ code
  | declaration code => "Read extern:\n" ++ code
  | expression code => "Read top-level expression:\n" ++ code
  | evaluated value => "Evaluated to " ++ value.text ++ "\n"

namespace Session

/-- A session that has handled nothing. -/
def fresh (config : SessionConfig) : Session := ⟨config, .empty, .empty, []⟩

/-- A session in parse mode. -/
def parsing : Session := .fresh ⟨.parse, true⟩

/-- What is wrong where a backend is needed and there is none. -/
def noBackend : SessionError := .engine (.target "no native target is available")

/-- Starts a session. -/
def start (config : SessionConfig) (backend : Option Backend := none) :
    Except SessionError Session :=
  match config.mode, backend with
  | .jit, none => .error noBackend
  | .jit, some backend => (backend.start.mapError .engine).map fun _ => .fresh config
  | _, _ => .ok (.fresh config)

/-- The table in which a prototype has been entered. -/
def entered (session : Session) (prototype : Prototype) : PrototypeTable :=
  (session.prototypes.insert prototype).1

/-- The session that has entered a prototype and has put back what that displaced. -/
def withdrawn (session : Session) (prototype : Prototype) : Session :=
  let (entered, previous) := session.prototypes.insert prototype
  { session with prototypes := entered.restore prototype.name previous }

/-- The unit that is open once an item is done with: in JIT mode a new one. -/
def opened (session : Session) (unit : CodeUnit) : CodeUnit :=
  if session.config.mode = .jit then .empty else unit

/-- Generates the code of a function under a table of prototypes: the session with the code, if the
code is in order. -/
def build (session : Session) (backend : Backend) (function : Definition)
    (table : PrototypeTable) : Except GenerationError Session := do
  let unit ← function.generate table session.unit
  if backend.verifies { session with prototypes := table, unit := unit } function then
    return { session with prototypes := table, unit := unit }
  else throw (.invalidFunction function.prototype.name)

/-- Generates the code of a function: the code, and the session after. The prototype is entered
first, so that the body may call the function itself. If there is no code, the entry is put back
and the unit stays as it was. -/
def compile (session : Session) (backend : Backend) (function : Definition) :
    Except GenerationError String × Session :=
  match session.build backend function (session.entered function.prototype) with
  | .ok after => (.ok (backend.emit after function), after)
  | .error error => (.error error, session.withdrawn function.prototype)

/-- Closes the open unit in JIT mode and hands it to the engine. The outcome stands if the engine
takes it. -/
def handOff (session : Session) (backend : Backend) (outcome : Outcome (some backend)) :
    Except SessionError (Outcome (some backend)) × Session :=
  (if session.config.mode = .jit then
    ((backend.load session).mapError .engine).map fun _ => outcome
  else .ok outcome, { session with unit := session.opened session.unit })

/-- Handles a definition. -/
def define (session : Session) (backend : Backend) (function : Definition) :
    Except SessionError (Outcome (some backend)) × Session :=
  match session.compile backend function with
  | (.error error, after) => (.error (.generation error), after)
  | (.ok code, after) => after.handOff backend (.definition code)

/-- The session that has entered a prototype and has declared its function. A function that the unit
has already is not declared again. -/
def declared (session : Session) (prototype : Prototype) : Session :=
  { session with
    prototypes := session.entered prototype
    unit :=
      if (session.unit.find? prototype.name).isSome then session.unit
      else session.unit.declare prototype }

/-- Handles a declaration. -/
def declare (session : Session) (backend : Backend) (prototype : Prototype) :
    Except SessionError (Outcome (some backend)) × Session :=
  let after := session.declared prototype
  after.handOff backend (.declaration (backend.declare after prototype))

/-- Handles an expression. The nameless function that stands for it does not outlive this. -/
def express (session : Session) (backend : Backend) (body : Expr) :
    Except SessionError (Outcome (some backend)) × Session :=
  let name := Prototype.anonymous.name
  match session.compile backend (.anonymous body) with
  | (.error error, after) => (.error (.generation error), after)
  | (.ok code, after) =>
    let nameless := { after with prototypes := (after.prototypes.remove name).1 }
    (if session.config.mode = .jit then
      ((backend.evaluate nameless).mapError .engine).map .evaluated
    else .ok (.expression code),
      { nameless with unit := session.opened (after.unit.drop name) })

/-- Handles an item with a backend. -/
def generate (session : Session) (backend : Backend) :
    Item -> Except SessionError (Outcome (some backend)) × Session
  | .definition function => session.define backend function
  | .declaration prototype => session.declare backend prototype
  | .expression body => session.express backend body

/-- Handles an item: what it gave, and the session after. -/
def turn (session : Session) (item : Item) (backend : Option Backend) :
    Except SessionError (Outcome backend) × Session :=
  if session.config.mode = .parse then (.ok (.parsed item.describe), session)
  else
    match backend with
    | none => (.error noBackend, session)
    | some backend =>
      let (result, after) := session.generate backend item
      (result, { after with handled := item :: session.handled })

/-- What handling an item gives. -/
def handle (session : Session) (item : Item) (backend : Option Backend := none) :
    Except SessionError (Outcome backend) :=
  (session.turn item backend).1

/-- What is reported about an item. -/
def reply (session : Session) (item : Item) (backend : Option Backend) :
    Except SessionError String :=
  (session.handle item backend).map Outcome.report

/-- The session after it has handled an item. -/
def after (session : Session) (item : Item) (backend : Option Backend) : Session :=
  (session.turn item backend).2

/-- Where the execution engine has the code of a name. There is no engine outside JIT mode. -/
def resolve (session : Session) (name : String) (backend : Option Backend := none) : Option Nat :=
  match session.config.mode, backend with
  | .jit, some backend => backend.address session name
  | _, _ => none

/-- The code of everything in the open unit. -/
def code (session : Session) (backend : Option Backend) : String :=
  match backend with
  | none => ""
  | some backend => backend.print session

variable {session : Session}

/-- An item that gets no reply has not been handled. -/
theorem handle_of_reply_error {item : Item} {backend : Option Backend} {error : SessionError}
    (failed : session.reply item backend = .error error) :
    session.handle item backend = .error error := by
  rw [reply] at failed
  cases handled : session.handle item backend with
  | ok outcome => simp [handled, Except.map] at failed
  | error found =>
    rw [handled] at failed
    exact congrArg _ (Except.error.inj failed)

/-- In parse mode an item is only told by its kind, and the session stays as it is. -/
theorem turn_of_parsing (parsing : session.config.mode = .parse) (item : Item)
    (backend : Option Backend) :
    session.turn item backend = (.ok (.parsed item.describe), session) := if_pos parsing

/-- In any other mode an item goes to the backend. -/
theorem turn_of_generating (generating : session.config.mode ≠ .parse) (item : Item)
    (backend : Backend) :
    session.turn item (some backend) =
      ((session.generate backend item).1,
        { (session.generate backend item).2 with handled := item :: session.handled }) :=
  if_neg generating

theorem turn_of_none (generating : session.config.mode ≠ .parse) (item : Item) :
    session.turn item none = (.error noBackend, session) := if_neg generating

theorem reply_of_parsing (parsing : session.config.mode = .parse) (item : Item)
    (backend : Option Backend) :
    session.reply item backend = .ok ("Parsed " ++ item.describe ++ ".\n") := by
  rw [reply, handle, turn_of_parsing parsing]
  rfl

theorem after_of_parsing (parsing : session.config.mode = .parse) (item : Item)
    (backend : Option Backend) : session.after item backend = session :=
  congrArg Prod.snd (turn_of_parsing parsing item backend)

end Session

end ExprShell
