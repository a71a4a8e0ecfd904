import ExprShell.Text.Utf8
import ExprShell.Token.Lexeme
/-!
# Input sources

A source delivers bytes in chunks, may report its end or a failure between them, and reports its
end for ever after the last chunk. Text is read from it a line at a time. Reading a line takes all
bytes up to a newline, an end of input or a failure.
-/

namespace ExprShell

/-- Kinds of failure of an input device. -/
inductive FaultKind
  | other
  | interrupted
  | connectionReset
  | brokenPipe
  | timedOut
  | wouldBlock
  | unexpectedEnd
  | permissionDenied
  | directory
deriving DecidableEq, Repr

/-- A failure of an input device. -/
structure Fault where
  kind : FaultKind
  message : String
deriving DecidableEq, Repr

/-- What one read of a source can meet. -/
inductive Chunk
  | data (bytes : List UInt8)
  | endOfInput
  | failure (fault : Fault)
deriving DecidableEq, Repr

/-- The bytes in a chunk. -/
def Chunk.size : Chunk -> Nat
  | data bytes => bytes.length
  | endOfInput => 0
  | failure _ => 0

/-- What the reads of a source meet, in order. -/
abbrev Source := List Chunk

/-- Why a line could not be read. -/
inductive ReadError
  | device (fault : Fault)
  | invalidText
deriving DecidableEq, Repr

/-- The wording of a read error. -/
def ReadError.message : ReadError -> String
  | device fault => fault.message
  | invalidText => "stream did not contain valid UTF-8"

/-- What stopped the bytes of a line. -/
inductive LineStop
  | newline
  | endOfInput
  | failure (fault : Fault)
deriving DecidableEq, Repr

/-- The bytes taken for one line, what stopped them, and what is left of the source. -/
structure RawLine where
  bytes : List UInt8
  stop : LineStop
  rest : Source

/-- What reading a line gives. -/
inductive LineResult
  | line (text : List Char)
  | endOfInput
  | failure (error : ReadError)
deriving DecidableEq, Repr

/-- What the bytes of a line amount to. A failure of the device loses them; no bytes at all are
the end of the input. -/
def RawLine.result (raw : RawLine) : LineResult :=
  match raw.stop with
  | .failure fault => .failure (.device fault)
  | _ =>
    if raw.bytes.isEmpty then .endOfInput
    else match Utf8.decode? raw.bytes with
      | some text => .line text
      | none => .failure .invalidText

/-- A line that was read has at least one byte. -/
theorem RawLine.bytes_pos_of_line {raw : RawLine} {text : List Char}
    (read : raw.result = .line text) : 0 < raw.bytes.length := by
  unfold RawLine.result at read
  split at read
  · simp at read
  · split at read
    · simp at read
    · rename_i nonempty
      simpa [List.length_pos_iff, List.isEmpty_iff] using nonempty

namespace Source

/-- The bytes still in a source. -/
def size : Source -> Nat
  | [] => 0
  | chunk :: rest => chunk.size + size rest

@[simp] theorem size_nil : size [] = 0 := rfl

@[simp] theorem size_cons (chunk : Chunk) (rest : Source) :
    size (chunk :: rest) = chunk.size + size rest := rfl

/-- The byte that ends a line. -/
def newline : UInt8 := 10

/-- Takes the bytes of the next line, its newline included. An interruption is passed over. -/
def takeLine : Source -> RawLine
  | [] => ⟨[], .endOfInput, []⟩
  | .endOfInput :: rest => ⟨[], .endOfInput, rest⟩
  | .failure fault :: rest =>
    if fault.kind = .interrupted then takeLine rest else ⟨[], .failure fault, rest⟩
  | .data bytes :: rest =>
    match bytes.dropWhile (· != newline) with
    | [] =>
      let later := takeLine rest
      ⟨bytes ++ later.bytes, later.stop, later.rest⟩
    | ending :: after =>
      ⟨bytes.takeWhile (· != newline) ++ [ending], .newline, .data after :: rest⟩

/-- Every byte of a source is either taken for the line or left. -/
theorem size_takeLine (source : Source) :
    (takeLine source).bytes.length + size (takeLine source).rest = size source := by
  fun_induction takeLine source with
  | case1 => rfl
  | case2 => simp [Chunk.size]
  | case3 fault rest _ inductionHypothesis => simpa [Chunk.size] using inductionHypothesis
  | case4 => simp [Chunk.size]
  | case5 bytes rest _ later inductionHypothesis =>
    simp only [List.length_append, size_cons, Chunk.size]
    simp only [later] at inductionHypothesis ⊢
    omega
  | case6 bytes rest ending after found =>
    have parts := congrArg List.length
      (List.takeWhile_append_dropWhile (p := (· != newline)) (l := bytes))
    rw [found] at parts
    simp only [List.length_append, List.length_cons] at parts
    simp only [List.length_append, List.length_cons, List.length_nil, size_cons, Chunk.size]
    omega

/-- Reading a line leaves fewer bytes in the source. -/
theorem size_takeLine_lt {source : Source} {text : List Char}
    (read : (takeLine source).result = .line text) :
    size (takeLine source).rest < size source := by
  have taken := RawLine.bytes_pos_of_line read
  have total := size_takeLine source
  omega

/-- The tokens of the lines before the end of the input or the first failure. -/
def tokens (source : Source) : List Token :=
  match _read : (takeLine source).result with
  | .line text => Token.ofText text ++ tokens (takeLine source).rest
  | _ => []
termination_by size source
decreasing_by exact size_takeLine_lt _read

theorem tokens_of_line {source : Source} {text : List Char}
    (read : (takeLine source).result = .line text) :
    tokens source = Token.ofText text ++ tokens (takeLine source).rest := by
  rw [tokens]
  split
  · simp_all
  · simp_all

theorem tokens_of_no_line {source : Source}
    (read : forall text, (takeLine source).result ≠ .line text) : tokens source = [] := by
  rw [tokens]
  split
  · simp_all
  · rfl

end Source

end ExprShell
