import ExprShell.Conversation
/-!
# The command line

`exprshell [-m MODE] [--no-opt] [FILE]` starts a session and holds a conversation about the program
in a file, or about what is typed. Only a conversation about typed input prompts.

Arguments are read from left to right. A request for help or the version, an option that does not
exist and a second file answer at once; repeated options and bad values only count after all
arguments have been read.
-/

namespace ExprShell.CommandLine

/-- Why no conversation is held. -/
inductive Usage
  | help
  | version
  | unknownOption (option : String)
  | unexpectedFile (file : String)
  | repeatedOption (option : String)
  | missingMode
  | unknownMode (name : String)
deriving DecidableEq, Repr

namespace Usage

/-- The exit status: asking for information is no error. -/
def status : Usage -> Nat
  | help => 0
  | version => 0
  | _ => 1

/-- How to call the program. -/
def summary : String :=
  "USAGE:\n    exprshell [OPTIONS] [FILE]\n\nOPTIONS:\n" ++
    "    -m, --mode <MODE>    parse only, print IR, or evaluate (default: jit)\n" ++
    "                         [possible values: parse, ir, jit]\n" ++
    "        --no-opt         skip the optimization of functions\n" ++
    "    -h, --help           print this help\n" ++
    "    -V, --version        print the version\n"

/-- The text of an answer. -/
def text : Usage -> String
  | help => summary
  | version => "exprshell 0.1.0\n"
  | unknownOption option => "error: unknown option " ++ option ++ "\n\n" ++ summary
  | unexpectedFile file => "error: unexpected argument " ++ file ++ "\n\n" ++ summary
  | repeatedOption option => "error: " ++ option ++ " was given more than once\n\n" ++ summary
  | missingMode => "error: --mode needs a value\n\n" ++ summary
  | unknownMode name => "error: " ++ Mode.unknownMessage name ++ "\n\n" ++ summary

end Usage

/-- What the arguments read so far ask for. -/
structure Request where
  modeUses : Nat
  modes : List String
  plainUses : Nat
  file : Option String
deriving DecidableEq, Repr

namespace Request

/-- Nothing is asked for yet. -/
def empty : Request := ⟨0, [], 0, none⟩

/-- One more use of the mode option, its value to come. -/
def useMode (request : Request) : Request := { request with modeUses := request.modeUses + 1 }

/-- A value of the mode option. -/
def giveMode (request : Request) (name : String) : Request :=
  { request with modes := request.modes ++ [name] }

/-- A use of the mode option with its value. An equals sign between them is no part of it. -/
def withMode (request : Request) (value : List Char) : Request :=
  request.useMode.giveMode (String.ofList (value.dropWhile (· == '=')))

/-- A use of the option that turns optimization off. -/
def usePlain (request : Request) : Request := { request with plainUses := request.plainUses + 1 }

/-- A file to read from, if there is none yet. -/
def giveFile (request : Request) (file : String) : Except Usage Request :=
  match request.file with
  | none => .ok { request with file := some file }
  | some _ => .error (.unexpectedFile file)

end Request

/-- What the argument after this one is: anything, the value of the mode option, or a file in any
case. -/
inductive Expecting
  | any
  | mode
  | files
deriving DecidableEq, Repr

/-- Reads an option written with two hyphens, of which all leading hyphens have been dropped. -/
def readLong (option : List Char) (request : Request) : Except Usage (Request × Expecting) :=
  let name := String.ofList (option.takeWhile (· != '='))
  let value := (option.dropWhile (· != '=')).drop 1
  if name = "mode" then
    if option.contains '=' then .ok (request.withMode value, .any)
    else .ok (request.useMode, .mode)
  else if name = "no-opt" then .ok (request.usePlain, .any)
  else if name = "help" then .error .help
  else if name = "version" then .error .version
  else .error (.unknownOption ("--" ++ name))

/-- Reads the letter behind a single hyphen and what is attached to it. -/
def readShort (letter : Char) (attached : List Char) (request : Request) :
    Except Usage (Request × Expecting) :=
  if letter = 'm' then
    if attached.isEmpty then .ok (request.useMode, .mode)
    else .ok (request.withMode attached, .any)
  else if letter = 'h' then .error .help
  else if letter = 'V' then .error .version
  else .error (.unknownOption (String.ofList ['-', letter]))

/-- Reads one argument. -/
def readArgument (expecting : Expecting) (argument : String) (request : Request) :
    Except Usage (Request × Expecting) :=
  if expecting = .files then do return (← request.giveFile argument, .files)
  else
    match argument.toList with
    | ['-', '-'] => .ok (request, .files)
    | '-' :: '-' :: option => readLong (option.dropWhile (· == '-')) request
    | '-' :: letter :: attached => readShort letter attached request
    | _ =>
      if expecting = .mode then .ok (request.giveMode argument, .any)
      else do return (← request.giveFile argument, .any)

/-- Reads arguments from left to right. -/
def readArguments (expecting : Expecting) : List String -> Request -> Except Usage Request
  | [], request => .ok request
  | argument :: rest, request => do
    let (request, expecting) ← readArgument expecting argument request
    readArguments expecting rest request

/-- What to do: how to start the session, and where to read from. -/
structure Invocation where
  config : SessionConfig
  file : Option String
deriving DecidableEq, Repr

/-- What a request amounts to once all arguments have been read. -/
def Request.invocation (request : Request) : Except Usage Invocation := do
  if request.modeUses > 1 then throw (.repeatedOption "--mode")
  if request.plainUses > 1 then throw (.repeatedOption "--no-opt")
  let standard := SessionConfig.standard
  let optimize := standard.optimize && request.plainUses == 0
  match request.modes with
  | [] =>
    if request.modeUses > 0 then throw .missingMode
    return ⟨⟨standard.mode, optimize⟩, request.file⟩
  | name :: _ =>
    match Mode.ofName? name with
    | some mode => return ⟨⟨mode, optimize⟩, request.file⟩
    | none => throw (.unknownMode name)

/-- Understands the arguments of the program. -/
def parse (arguments : List String) : Except Usage Invocation := do
  (← readArguments .any arguments .empty).invocation

/-- How errors that end the program are reported. -/
def complaint (message : String) : String := "Error: " ++ message ++ "\n"

/-- The report on a file that cannot be opened. -/
def openComplaint (file cause : String) : String :=
  complaint ("failed to open " ++ file ++ "\n\nCaused by:\n    " ++ cause)

/-- Starts the shell of an invocation. -/
def Invocation.shell (invocation : Invocation) (backend : Option Backend := none) :
    Except SessionError Shell := do
  let session ← Session.start invocation.config backend
  return Shell.start .standard session invocation.file.isNone .unlimited backend

/-- What is reported on the diagnostics after a conversation, if it did not go well. Syntax errors
are no such case. -/
def parting {operators : Operators} (conversation : Conversation operators) : Option String :=
  match conversation.refusal, conversation.stream.failure? with
  | some _, _ => some (complaint "failed to write output")
  | none, some error => some (complaint ("failed to read input: " ++ error.message))
  | none, none => none

/-- How a call of the program ends. -/
structure Ending where
  status : Nat
  results : List UInt8
  diagnostics : List UInt8
deriving DecidableEq, Repr

/-- A call that failed before any conversation. -/
def failed (message : String) : Ending := ⟨1, [], Utf8.encode message⟩

/-- A whole conversation, from its source to the exit status. -/
def converse (shell : Shell) (source : Source) : Ending :=
  let conversation := shell.run (.ofSource source)
  let results := Event.output .results conversation.events
  let diagnostics := Event.output .diagnostics conversation.events
  match parting conversation with
  | none => ⟨0, results, diagnostics⟩
  | some message => ⟨1, results, diagnostics ++ Utf8.encode message⟩

/-- A whole call of the program, given what its files and its standard input hold and what makes
code and runs it. Opening a file gives its content or the reason why it cannot be opened. -/
def execute (arguments : List String) (openFile : String -> Except String Source)
    (input : Source) (backend : Option Backend := none) : Except Usage Ending := do
  let invocation ← parse arguments
  match invocation.shell backend with
  | .error error => return failed (complaint error.message)
  | .ok shell =>
    match invocation.file with
    | none => return converse shell input
    | some file =>
      match openFile file with
      | .error cause => return failed (openComplaint file cause)
      | .ok source => return converse shell source

end ExprShell.CommandLine
