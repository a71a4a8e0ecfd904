import ExprShell.Proofs.Token.Blanks
import ExprShell.Proofs.Text.Encoding
import ExprShell.TokenStream
import Mathlib.Data.List.TakeWhile
/-!
# Sources that deliver a text

A source delivers bytes if its reads give just these bytes, in chunks of any size and with any
interruptions. The tokens of a source that delivers a text are those of the lines of the text, one
after the other; a newline belongs to no line, since a blank at the end of a line is no token.
-/

namespace ExprShell

/-- The bytes of a chunk. -/
def Chunk.bytes : Chunk -> List UInt8
  | data bytes => bytes
  | endOfInput => []
  | failure _ => []

/-- Whether a chunk neither ends a line nor the input. -/
def Chunk.passes : Chunk -> Bool
  | data _ => true
  | endOfInput => false
  | failure fault => fault.kind == .interrupted

/-- A source whose reads give some bytes and then the end of the input. -/
structure Source.Delivers (source : Source) (bytes : List UInt8) : Prop where
  passes : ∀ chunk ∈ source, chunk.passes = true
  bytes_eq : source.flatMap Chunk.bytes = bytes

namespace Source

/-- Whether a byte belongs to a line without its newline. -/
abbrev inLine (byte : UInt8) : Bool := byte != newline

variable {source : Source} {bytes : List UInt8}

theorem Delivers.nil : Delivers [] [] := ⟨by simp, rfl⟩

/-- A source of one chunk delivers the bytes of that chunk. -/
theorem Delivers.single (bytes : List UInt8) : Delivers [.data bytes] bytes :=
  ⟨by simp [Chunk.passes], by simp [Chunk.bytes]⟩

/-- A line is taken up to the first newline that is delivered, and what comes after it is still
delivered. -/
theorem takeLine_of_delivers (delivers : source.Delivers bytes) :
    (takeLine source).bytes = bytes.takeWhile inLine ++ (bytes.dropWhile inLine).take 1 ∧
      (takeLine source).stop = (if bytes.dropWhile inLine = [] then .endOfInput else .newline) ∧
      (takeLine source).rest.Delivers (bytes.dropWhile inLine).tail := by
  fun_induction takeLine source generalizing bytes with
  | case1 =>
    obtain rfl : [] = bytes := delivers.bytes_eq
    exact ⟨rfl, rfl, .nil⟩
  | case2 => simpa [Chunk.passes] using delivers.passes _ List.mem_cons_self
  | case3 fault rest _ inductionHypothesis =>
    exact inductionHypothesis
      ⟨fun chunk member => delivers.passes chunk (List.mem_cons_of_mem _ member),
        delivers.bytes_eq⟩
  | case4 fault rest serious =>
    simpa [Chunk.passes, serious] using delivers.passes _ List.mem_cons_self
  | case5 first rest complete later =>
    rename_i inductionHypothesis
    obtain rfl : first ++ rest.flatMap Chunk.bytes = bytes := delivers.bytes_eq
    have all : ∀ byte ∈ first, inLine byte = true := List.dropWhile_eq_nil_iff.mp complete
    have further := inductionHypothesis
      ⟨fun chunk member => delivers.passes chunk (List.mem_cons_of_mem _ member), rfl⟩
    rw [List.takeWhile_append_of_pos all, List.dropWhile_append_of_pos all, List.append_assoc]
    exact ⟨congrArg (first ++ ·) further.1, further.2⟩
  | case6 first rest ending after found =>
    obtain rfl : first ++ rest.flatMap Chunk.bytes = bytes := delivers.bytes_eq
    have outside : inLine ending = false := outside_of_dropWhile found
    have parts : first ++ rest.flatMap Chunk.bytes =
        first.takeWhile inLine ++ ending :: (after ++ rest.flatMap Chunk.bytes) := by
      calc first ++ rest.flatMap Chunk.bytes
          = first.takeWhile inLine ++ first.dropWhile inLine ++ rest.flatMap Chunk.bytes := by
            rw [List.takeWhile_append_dropWhile]
        _ = _ := by rw [found, List.append_assoc, List.cons_append]
    have all : ∀ byte ∈ first.takeWhile inLine, inLine byte = true :=
      fun byte member => List.mem_takeWhile_imp member
    rw [parts, takeWhile_append_outside all (startsOutside_cons outside),
      dropWhile_append_outside all (startsOutside_cons outside)]
    refine ⟨rfl, by simp, ?_, by simp [Chunk.bytes]⟩
    intro chunk member
    rcases List.mem_cons.mp member with rfl | later
    · rfl
    · exact delivers.passes chunk (List.mem_cons_of_mem _ later)

/-- The last line is taken up to the end of the input. -/
theorem takeLine_of_delivers_last (all : ∀ byte ∈ bytes, inLine byte = true)
    (delivers : source.Delivers bytes) :
    (takeLine source).bytes = bytes ∧ (takeLine source).stop = .endOfInput ∧
      (takeLine source).rest.Delivers [] := by
  have dropped := List.dropWhile_eq_nil_iff.mpr all
  obtain ⟨taken, stop, later⟩ := takeLine_of_delivers delivers
  rw [dropped, List.takeWhile_eq_self_iff.mpr all, List.take_nil, List.append_nil] at taken
  rw [dropped, if_pos rfl] at stop
  rw [dropped] at later
  exact ⟨taken, stop, later⟩

/-- Any other line is taken with its newline. -/
theorem takeLine_of_delivers_line {line rest : List UInt8} (all : ∀ byte ∈ line, inLine byte = true)
    (delivers : source.Delivers (line ++ newline :: rest)) :
    (takeLine source).bytes = line ++ [newline] ∧ (takeLine source).stop = .newline ∧
      (takeLine source).rest.Delivers rest := by
  have outside : inLine newline = false := by decide
  obtain ⟨taken, stop, later⟩ := takeLine_of_delivers delivers
  rw [dropWhile_append_outside all (startsOutside_cons outside)] at taken stop later
  rw [takeWhile_append_outside all (startsOutside_cons outside)] at taken
  exact ⟨taken, stop.trans (if_neg (by simp)), later⟩

/-- The bytes of a text without newlines all belong to one line. -/
theorem inLine_of_mem_encodeChars {text : List Char} (plain : '\n' ∉ text) :
    ∀ byte ∈ Utf8.encodeChars text, inLine byte = true := by
  rintro byte member
  apply bne_iff_ne.mpr
  rintro rfl
  exact Utf8.newline_notMem_encodeChars plain member

/-- An encoded line is read as its text, unless it is empty or the device fails. -/
theorem result_of_encoded {raw : RawLine} {text : List Char} (nonempty : text ≠ [])
    (taken : raw.bytes = Utf8.encodeChars text)
    (stopped : raw.stop = .newline ∨ raw.stop = .endOfInput) : raw.result = .line text := by
  obtain ⟨first, others, rfl⟩ := List.exists_cons_of_ne_nil nonempty
  have some : (Utf8.encodeChars (first :: others)).isEmpty = false := by
    simp [String.utf8EncodeChar_ne_nil]
  rcases stopped with stop | stop <;>
    simp only [RawLine.result, stop, taken, some, Bool.false_eq_true, if_false,
      Utf8.decode?_encodeChars]

/-- A source that delivers no bytes has no tokens. -/
theorem tokens_of_delivers_nil (delivers : source.Delivers []) : source.tokens = [] := by
  obtain ⟨taken, stop, _⟩ := takeLine_of_delivers delivers
  refine tokens_of_no_line fun text => ?_
  simp [RawLine.result, stop, taken]

/-- The last line is read without a newline. -/
theorem tokens_of_delivers_last {text : List Char} (plain : '\n' ∉ text)
    (delivers : source.Delivers (Utf8.encodeChars text)) : source.tokens = Token.ofText text := by
  obtain ⟨taken, stop, later⟩ :=
    takeLine_of_delivers_last (inLine_of_mem_encodeChars plain) delivers
  by_cases empty : text = []
  · subst empty
    rw [tokens_of_delivers_nil delivers, Token.ofText, withoutComment]
    simp [Lexeme.ofText]
  · rw [tokens_of_line (result_of_encoded empty taken (.inr stop)),
      tokens_of_delivers_nil later, List.append_nil]

/-- A line is read with its newline, and the tokens after it are those of the remaining text. -/
theorem tokens_of_delivers_line {text : List Char} (plain : '\n' ∉ text) {rest : List UInt8}
    (delivers : source.Delivers (Utf8.encodeChars text ++ newline :: rest)) :
    ∃ later : Source, later.Delivers rest ∧
      source.tokens = Token.ofText text ++ later.tokens := by
  obtain ⟨taken, stop, later⟩ :=
    takeLine_of_delivers_line (inLine_of_mem_encodeChars plain) delivers
  have encoded : (takeLine source).bytes = Utf8.encodeChars (text ++ ['\n']) := by
    rw [taken, Utf8.encodeChars_append]
    rfl
  have read := result_of_encoded (by simp) encoded (.inl stop)
  rw [← Token.ofText_append_newline plain]
  exact ⟨_, later, tokens_of_line read⟩

/-- The tokens of a source that delivers a text are those of its lines. -/
theorem tokens_of_delivers {source : Source} {text : List Char}
    (delivers : source.Delivers (Utf8.encodeChars text)) :
    source.tokens = (text.splitOn '\n').flatMap Token.ofText := by
  by_cases plain : '\n' ∈ text
  · obtain ⟨line, rest, rfl, first⟩ := List.eq_append_cons_of_mem plain
    rw [Utf8.encodeChars_append, Utf8.encodeChars_cons] at delivers
    obtain ⟨later, remaining, tokens⟩ := tokens_of_delivers_line first delivers
    rw [tokens, tokens_of_delivers remaining, List.splitOn_append_cons_self_of_not_mem first,
      List.flatMap_cons]
  · rw [tokens_of_delivers_last plain delivers, List.splitOn_eq_singleton plain,
      List.flatMap_singleton]
termination_by text.length
decreasing_by
  subst_vars
  simp only [List.length_append, List.length_cons]
  omega

end Source

@[simp] theorem TokenStream.tokens_ofSource (source : Source) :
    (ofSource source).tokens = source.tokens := by
  simp [ofSource, tokens]

end ExprShell
