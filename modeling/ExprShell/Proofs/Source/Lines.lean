import ExprShell.Proofs.Text.Classes
import ExprShell.Source
import Mathlib.Data.List.TakeWhile
/-!
# Sources line by line

Reading a source line by line gives its lines and then a read that delivers none, because the input
ends or a failure is met. Two sources may be alike in their first lines and differ behind them. How
the bytes of a source are split into chunks, and where reads of it are interrupted, is not seen by
anyone who reads it line by line.
-/

namespace ExprShell

/-- A line that was read, with the bytes that it was read from. -/
structure Line where
  bytes : List UInt8
  text : List Char

/-- The tokens of a line. -/
def Line.tokens (line : Line) : List Token := Token.ofText line.text

/-- The failure that a read has met, if it has. -/
def LineResult.failure? : LineResult -> Option ReadError
  | failure error => some error
  | _ => none

/-- What a read gives is told by the bytes that it took and by what stopped it. -/
theorem RawLine.result_congr {raw raw' : RawLine} (sameBytes : raw.bytes = raw'.bytes)
    (sameStop : raw.stop = raw'.stop) : raw.result = raw'.result := by
  unfold RawLine.result
  rw [sameBytes, sameStop]

namespace Source

/-- The lines of a source, up to the first read that delivers none. -/
def lines (source : Source) : List Line :=
  match _read : (takeLine source).result with
  | .line text => ⟨(takeLine source).bytes, text⟩ :: lines (takeLine source).rest
  | _ => []
termination_by size source
decreasing_by exact size_takeLine_lt _read

/-- The first read that delivers no line. -/
def lastRead (source : Source) : RawLine :=
  match _read : (takeLine source).result with
  | .line _ => lastRead (takeLine source).rest
  | _ => takeLine source
termination_by size source
decreasing_by exact size_takeLine_lt _read

section Reads

variable {source : Source} {text : List Char}

theorem lines_of_line (read : (takeLine source).result = .line text) :
    source.lines = ⟨(takeLine source).bytes, text⟩ :: (takeLine source).rest.lines := by
  rw [lines]
  split <;> simp_all

theorem lines_of_no_line (read : ∀ text, (takeLine source).result ≠ .line text) :
    source.lines = [] := by
  rw [lines]
  split <;> simp_all

theorem lastRead_of_line (read : (takeLine source).result = .line text) :
    source.lastRead = (takeLine source).rest.lastRead := by
  rw [lastRead]
  split <;> simp_all

theorem lastRead_of_no_line (read : ∀ text, (takeLine source).result ≠ .line text) :
    source.lastRead = takeLine source := by
  rw [lastRead]
  split <;> simp_all

/-- A source starts with a line, or it has none. -/
theorem exists_line_or_none (source : Source) :
    (∃ text, (takeLine source).result = .line text) ∨
      ∀ text, (takeLine source).result ≠ .line text := by
  by_cases line : ∃ text, (takeLine source).result = .line text
  · exact .inl line
  · exact .inr fun text read => line ⟨text, read⟩

end Reads

/-- The tokens of a source are those of its lines. -/
theorem tokens_eq_flatMap_lines (source : Source) :
    source.tokens = source.lines.flatMap Line.tokens := by
  rcases source.exists_line_or_none with ⟨text, read⟩ | none
  · have shorter := size_takeLine_lt read
    rw [tokens_of_line read, lines_of_line read, List.flatMap_cons,
      tokens_eq_flatMap_lines (takeLine source).rest]
    rfl
  · rw [tokens_of_no_line none, lines_of_no_line none, List.flatMap_nil]
termination_by size source

/-! ## The first lines -/

/-- What is left of a source behind its first lines. -/
def afterLines (source : Source) : Nat -> Source
  | 0 => source
  | count + 1 => (takeLine (source.afterLines count)).rest

/-- The tokens of the first lines. -/
def tokensWithin (source : Source) (count : Nat) : List Token :=
  (source.lines.take count).flatMap Line.tokens

/-- The bytes of the first lines. -/
def bytesWithin (source : Source) (count : Nat) : List UInt8 :=
  (source.lines.take count).flatMap Line.bytes

section FirstLines

variable {source : Source} {count : Nat}

/-- Behind the first lines the others are left, and the last read stays what it is. -/
theorem lines_afterLines (within : count ≤ source.lines.length) :
    (source.afterLines count).lines = source.lines.drop count ∧
      (source.afterLines count).lastRead = source.lastRead := by
  induction count with
  | zero => exact ⟨rfl, rfl⟩
  | succ count inductionHypothesis =>
    obtain ⟨sameLines, sameLast⟩ := inductionHypothesis (Nat.le_of_succ_le within)
    rcases (source.afterLines count).exists_line_or_none with ⟨text, read⟩ | none
    · rw [lines_of_line read] at sameLines
      rw [lastRead_of_line read] at sameLast
      refine ⟨?_, sameLast⟩
      rw [← List.tail_drop, ← sameLines, List.tail_cons, afterLines]
    · rw [lines_of_no_line none, eq_comm, List.drop_eq_nil_iff] at sameLines
      omega

/-- The next line is read from what is left behind the first ones. -/
theorem takeLine_afterLines (within : count < source.lines.length) :
    ∃ line, source.lines[count]? = some line ∧
      (takeLine (source.afterLines count)).result = .line line.text ∧
      (takeLine (source.afterLines count)).bytes = line.bytes := by
  have left := (lines_afterLines (Nat.le_of_lt within)).1
  have next := congrArg List.head? left
  rcases (source.afterLines count).exists_line_or_none with ⟨text, read⟩ | none
  · rw [lines_of_line read, List.head?_cons, List.head?_drop] at next
    exact ⟨_, next.symm, read, rfl⟩
  · rw [lines_of_no_line none, eq_comm, List.drop_eq_nil_iff] at left
    omega

/-- Behind all lines comes the last read. -/
theorem takeLine_afterLines_length (source : Source) :
    takeLine (source.afterLines source.lines.length) = source.lastRead ∧
      ∀ text, source.lastRead.result ≠ .line text := by
  obtain ⟨left, sameLast⟩ := lines_afterLines (Nat.le_refl source.lines.length)
  rcases (source.afterLines source.lines.length).exists_line_or_none with ⟨text, read⟩ | none
  · rw [lines_of_line read, List.drop_length] at left
    simp at left
  · rw [← sameLast, lastRead_of_no_line none]
    exact ⟨rfl, none⟩

theorem tokensWithin_succ {line : Line} (next : source.lines[count]? = some line) :
    source.tokensWithin (count + 1) = source.tokensWithin count ++ line.tokens := by
  simp [tokensWithin, List.take_add_one, next]

theorem bytesWithin_succ {line : Line} (next : source.lines[count]? = some line) :
    source.bytesWithin (count + 1) = source.bytesWithin count ++ line.bytes := by
  simp [bytesWithin, List.take_add_one, next]

/-- The tokens of the first lines come first. -/
theorem tokensWithin_prefix (source : Source) (count : Nat) :
    source.tokensWithin count <+: source.tokens := by
  rw [tokens_eq_flatMap_lines]
  exact ⟨(source.lines.drop count).flatMap Line.tokens, by
    rw [tokensWithin, ← List.flatMap_append, List.take_append_drop]⟩

/-- More lines have more tokens. -/
theorem tokensWithin_mono (source : Source) {fewer more : Nat} (le : fewer ≤ more) :
    source.tokensWithin fewer <+: source.tokensWithin more := by
  obtain ⟨others, parts⟩ := List.take_prefix_take_left (l := source.lines) le
  refine ⟨others.flatMap Line.tokens, ?_⟩
  rw [tokensWithin, tokensWithin, ← List.flatMap_append, parts]

theorem bytesWithin_length (source : Source) :
    source.bytesWithin source.lines.length = source.lines.flatMap Line.bytes := by
  rw [bytesWithin, List.take_length]

theorem tokensWithin_of_length_le (all : source.lines.length ≤ count) :
    source.tokensWithin count = source.tokens := by
  rw [tokensWithin, List.take_of_length_le all, tokens_eq_flatMap_lines]

/-- That some number of lines is the least one that holds the token with a given number. -/
structure FewestFor (source : Source) (token count : Nat) : Prop where
  holds : token < (source.tokensWithin count).length
  needed : ∀ fewer < count, (source.tokensWithin fewer).length ≤ token

theorem FewestFor.le_of_holds {token : Nat} (fewest : source.FewestFor token count) {lines : Nat}
    (holds : token < (source.tokensWithin lines).length) : count ≤ lines := by
  by_contra more
  have short := fewest.needed lines (Nat.lt_of_not_le more)
  omega

theorem FewestFor.unique {token count' : Nat} (fewest : source.FewestFor token count)
    (fewest' : source.FewestFor token count') : count = count' :=
  Nat.le_antisymm (fewest.le_of_holds fewest'.holds) (fewest'.le_of_holds fewest.holds)

/-- That reading some first lines comes to the token with a given number, or to the end of the
source in front of it. -/
def Reaches (source : Source) (count token : Nat) : Prop :=
  token < (source.tokensWithin count).length ∨ source.lines.length < count

theorem Reaches.mono {token earlier : Nat} (reaches : source.Reaches count token)
    (le : earlier ≤ token) : source.Reaches count earlier :=
  reaches.imp_left (Nat.lt_of_le_of_lt le)

end FirstLines

/-! ## Sources that are alike in their first lines -/

/-- That the first reads of two sources take the same bytes and are stopped by the same. -/
inductive AgreeFor : Nat -> Source -> Source -> Prop
  | none (source other : Source) : AgreeFor 0 source other
  | read {count : Nat} {source other : Source}
      (sameBytes : (takeLine source).bytes = (takeLine other).bytes)
      (sameStop : (takeLine source).stop = (takeLine other).stop)
      (later : AgreeFor count (takeLine source).rest (takeLine other).rest) :
      AgreeFor (count + 1) source other

section Agreement

variable {source other : Source} {count : Nat}

/-- Sources that agree in their first reads have the same first lines. -/
theorem AgreeFor.take_lines (agree : AgreeFor count source other) :
    source.lines.take count = other.lines.take count := by
  induction agree with
  | none => rfl
  | read sameBytes sameStop later inductionHypothesis =>
    rename_i count source other
    have sameResult := RawLine.result_congr sameBytes sameStop
    rcases source.exists_line_or_none with ⟨text, read⟩ | none
    · rw [lines_of_line read, lines_of_line (sameResult.symm.trans read), List.take_succ_cons,
        List.take_succ_cons, inductionHypothesis, sameBytes]
    · rw [lines_of_no_line none, lines_of_no_line (sameResult ▸ none)]

/-- Sources that agree up to the end of the lines of one of them have the same lines, and the same
event ends both. -/
theorem AgreeFor.all_lines (agree : AgreeFor count source other)
    (all : source.lines.length < count) :
    source.lines = other.lines ∧ source.lastRead.bytes = other.lastRead.bytes ∧
      source.lastRead.result = other.lastRead.result := by
  induction agree with
  | none => exact absurd all (Nat.not_lt_zero _)
  | read sameBytes sameStop later inductionHypothesis =>
    rename_i count source other
    have sameResult := RawLine.result_congr sameBytes sameStop
    rcases source.exists_line_or_none with ⟨text, read⟩ | none
    · have readOther := sameResult.symm.trans read
      rw [lines_of_line read, List.length_cons] at all
      have further := inductionHypothesis (by omega)
      rw [lines_of_line read, lines_of_line readOther, lastRead_of_line read,
        lastRead_of_line readOther, sameBytes]
      exact ⟨congrArg (_ :: ·) further.1, further.2⟩
    · have noneOther : ∀ text, (takeLine other).result ≠ .line text := sameResult ▸ none
      rw [lines_of_no_line none, lines_of_no_line noneOther, lastRead_of_no_line none,
        lastRead_of_no_line noneOther]
      exact ⟨rfl, sameBytes, sameResult⟩

theorem AgreeFor.tokensWithin_eq (agree : AgreeFor count source other) {fewer : Nat}
    (le : fewer ≤ count) : source.tokensWithin fewer = other.tokensWithin fewer := by
  have first := congrArg (List.take fewer) agree.take_lines
  rw [List.take_take, List.take_take, Nat.min_eq_left le] at first
  rw [tokensWithin, tokensWithin, first]

theorem AgreeFor.bytesWithin_eq (agree : AgreeFor count source other) {fewer : Nat}
    (le : fewer ≤ count) : source.bytesWithin fewer = other.bytesWithin fewer := by
  have first := congrArg (List.take fewer) agree.take_lines
  rw [List.take_take, List.take_take, Nat.min_eq_left le] at first
  rw [bytesWithin, bytesWithin, first]

theorem AgreeFor.tokens_eq (agree : AgreeFor count source other)
    (all : source.lines.length < count) : source.tokens = other.tokens := by
  rw [tokens_eq_flatMap_lines, tokens_eq_flatMap_lines, (agree.all_lines all).1]

/-- Sources that agree in the lines that hold a token have the same tokens up to it. -/
theorem AgreeFor.take_tokens (agree : AgreeFor count source other) {token : Nat}
    (reaches : source.Reaches count token) :
    source.tokens.take (token + 1) = other.tokens.take (token + 1) := by
  rcases reaches with holds | all
  · obtain ⟨later, parts⟩ := source.tokensWithin_prefix count
    obtain ⟨laterOther, partsOther⟩ := other.tokensWithin_prefix count
    rw [← agree.tokensWithin_eq (Nat.le_refl _)] at partsOther
    rw [← parts, ← partsOther, List.take_append_of_le_length holds,
      List.take_append_of_le_length holds]
  · rw [agree.tokens_eq all]

theorem AgreeFor.fewestFor (agree : AgreeFor count source other) {token fewest : Nat}
    (least : source.FewestFor token fewest) (le : fewest ≤ count) :
    other.FewestFor token fewest where
  holds := agree.tokensWithin_eq le ▸ least.holds
  needed fewer lt :=
    agree.tokensWithin_eq ((Nat.le_of_lt lt).trans le) ▸ least.needed fewer lt

end Agreement

end Source

/-! ## Chunks and interruptions -/

/-- What a source gives one after the other, when it is not asked where its chunks end. -/
inductive Moment
  | byte (byte : UInt8)
  | endOfInput
  | failure (fault : Fault)
deriving DecidableEq, Repr

/-- The moments of a chunk. An interruption is none. -/
def Chunk.moments : Chunk -> List Moment
  | data bytes => bytes.map .byte
  | endOfInput => [.endOfInput]
  | failure fault => if fault.kind = .interrupted then [] else [.failure fault]

/-- The bytes of a source in order, with its reports of the end of the input and its failures at
their places between them. -/
def Source.moments (source : Source) : List Moment := source.flatMap Chunk.moments

namespace Moment

/-- The line that moments start with: its bytes, what stops it, and the moments behind it. -/
def takeLine : List Moment -> List UInt8 × LineStop × List Moment
  | [] => ([], .endOfInput, [])
  | .endOfInput :: rest => ([], .endOfInput, rest)
  | .failure fault :: rest => ([], .failure fault, rest)
  | .byte first :: rest =>
    if first = Source.newline then ([first], .newline, rest)
    else (first :: (takeLine rest).1, (takeLine rest).2)

/-- A line goes on behind bytes that are no newline. -/
theorem takeLine_bytes_append {bytes : List UInt8} (inLine : ∀ byte ∈ bytes, byte ≠ Source.newline)
    (rest : List Moment) :
    takeLine (bytes.map .byte ++ rest) = (bytes ++ (takeLine rest).1, (takeLine rest).2) := by
  induction bytes with
  | nil => rfl
  | cons first others inductionHypothesis =>
    rw [List.forall_mem_cons] at inLine
    rw [List.map_cons, List.cons_append, takeLine, if_neg inLine.1,
      inductionHypothesis inLine.2, List.cons_append]

end Moment

namespace Source

/-- A line is taken from a source as from its moments. -/
theorem takeLine_moments (source : Source) :
    Moment.takeLine source.moments =
      ((takeLine source).bytes, (takeLine source).stop, (takeLine source).rest.moments) := by
  fun_induction takeLine source with
  | case1 => rfl
  | case2 rest => rfl
  | case3 fault rest interrupted inductionHypothesis =>
    rw [← inductionHypothesis]
    simp [moments, Chunk.moments, interrupted]
  | case4 fault rest serious =>
    simp [moments, Chunk.moments, serious, Moment.takeLine]
  | case5 bytes rest complete later inductionHypothesis =>
    have inLine : ∀ byte ∈ bytes, byte ≠ newline := by
      simpa using List.dropWhile_eq_nil_iff.mp complete
    have split : moments (.data bytes :: rest) = bytes.map .byte ++ moments rest := rfl
    rw [split, Moment.takeLine_bytes_append inLine, inductionHypothesis]
  | case6 bytes rest ending after found =>
    have inLine : ∀ byte ∈ bytes.takeWhile (· != newline), byte ≠ newline :=
      fun byte member => by simpa using List.mem_takeWhile_imp member
    have isNewline : ending = newline := by simpa using outside_of_dropWhile found
    have split : moments (.data bytes :: rest) =
        (bytes.takeWhile (· != newline)).map .byte ++
          (.byte ending :: moments (.data after :: rest)) := by
      calc moments (.data bytes :: rest)
          = (bytes.takeWhile (· != newline) ++ bytes.dropWhile (· != newline)).map .byte ++
              moments rest := by rw [List.takeWhile_append_dropWhile]; rfl
        _ = _ := by rw [found]; simp [moments, Chunk.moments]
    rw [split, Moment.takeLine_bytes_append inLine, Moment.takeLine, if_pos isNewline]

/-- Sources with the same moments agree in all their reads. -/
theorem agreeFor_of_moments {source other : Source} (same : source.moments = other.moments)
    (count : Nat) : AgreeFor count source other := by
  induction count generalizing source other with
  | zero => exact .none source other
  | succ count inductionHypothesis =>
    have first := takeLine_moments source
    rw [same, takeLine_moments other] at first
    simp only [Prod.mk.injEq] at first
    exact .read first.1.symm first.2.1.symm (inductionHypothesis first.2.2.symm)

end Source

end ExprShell
