import ExprShell.CommandLine
/-!
# The program

Talks to the real console. A line is read from the input only when the next step of the
conversation needs a token of it, and what a step did is done before the next one. The program has
no backend: it parses.
-/

namespace ExprShell.Program

/-- What a failure of the system is called. -/
def systemMessage (error : IO.Error) : String :=
  match error with
  | .noFileOrDirectory _ code details => details ++ " (os error " ++ code.toNat.repr ++ ")"
  | .inappropriateType _ code details => details ++ " (os error " ++ code.toNat.repr ++ ")"
  | .permissionDenied _ code details => details ++ " (os error " ++ code.toNat.repr ++ ")"
  | .invalidArgument _ code details => details ++ " (os error " ++ code.toNat.repr ++ ")"
  | .resourceExhausted _ code details => details ++ " (os error " ++ code.toNat.repr ++ ")"
  | other => toString other

/-- Reads bytes up to a newline or the end of the input. -/
partial def readLine (input : IO.FS.Stream) (line : List UInt8) : IO Chunk := do
  let byte ← input.read 1
  match byte.data.toList with
  | [] => return if line.isEmpty then .endOfInput else .data line.reverse
  | read =>
    let line := read ++ line
    if read.contains Source.newline then return .data line.reverse
    readLine input line

/-- Reads one line from an input, or what went wrong. -/
def readChunk (input : IO.FS.Stream) : IO Chunk := do
  try readLine input []
  catch error => return .failure ⟨.other, systemMessage error⟩

/-- Reads lines until enough tokens are at hand or the stream is over. -/
partial def provide (input : IO.FS.Stream) (tokens : Nat) (stream : TokenStream) :
    IO TokenStream := do
  if stream.buffer.length < tokens && stream.ending.isNone then
    let chunk ← readChunk input
    provide input tokens { stream with source := [chunk] }.readLine
  else return stream

/-- The stream behind an output. -/
def outputOf (channel : Channel) : IO IO.FS.Stream :=
  match channel with
  | .results => IO.getStdout
  | .diagnostics => IO.getStderr

/-- Does what an event tells. -/
def perform (event : Event) : IO Unit := do
  match event with
  | .wrote channel bytes => (← outputOf channel).write (ByteArray.mk bytes.toArray)
  | .flushed channel => (← outputOf channel).flush
  | .looked _ => return
  | .advanced _ => return

/-- Takes steps until none is left. The exit status tells whether all went well. -/
partial def converse {operators : Operators} (input : IO.FS.Stream)
    (conversation : Conversation operators) : IO UInt32 := do
  let stream ← provide input conversation.lookahead conversation.stream
  let ready := { conversation with stream := stream, history := [] }
  match ready.step with
  | some next =>
    next.history.reverse.forM perform
    converse input next
  | none =>
    match CommandLine.parting ready with
    | none => return 0
    | some message =>
      IO.eprint message
      return 1

/-- Answers the arguments of the program. -/
def run (arguments : List String) : IO UInt32 := do
  match CommandLine.parse arguments with
  | .error usage =>
    if usage.status = 0 then IO.print usage.text else IO.eprint usage.text
    return UInt32.ofNat usage.status
  | .ok invocation =>
    match invocation.shell with
    | .error error =>
      IO.eprint (CommandLine.complaint error.message)
      return 1
    | .ok shell =>
      match invocation.file with
      | none => converse (← IO.getStdin) (shell.greet (.ofSource []))
      | some file =>
        try
          let handle ← IO.FS.Handle.mk file .read
          converse (.ofHandle handle) (shell.greet (.ofSource []))
        catch error =>
          IO.eprint (CommandLine.openComplaint file (systemMessage error))
          return 1

end ExprShell.Program

/-- The program. -/
def main (arguments : List String) : IO UInt32 := ExprShell.Program.run arguments
