import ExprShell.Proofs.Source.Delivery
import ExprShell.Proofs.Source.Lines
import ExprShell.Proofs.Text.Decoding
/-!
# Sources that deliver any bytes

Bytes are text exactly if each of their lines is, since cutting at a newline neither hides nor makes
a malformed sequence. A source that delivers some bytes is read up to the first line that is not
text: its lines are those in front of it, and it fails exactly if there is such a line. So the bytes
in front of that line, delivered on their own, are read as the same lines and do not fail.
-/

namespace ExprShell

namespace Utf8

/-- Whether bytes are text. -/
def isText (bytes : List UInt8) : Bool := (decode? bytes).isSome

/-- The lines of some bytes, each with the newline that ends it. -/
def linesOf : List UInt8 -> List (List UInt8)
  | [] => []
  | byte :: rest =>
    if byte = Source.newline then [byte] :: linesOf rest
    else match linesOf rest with
      | [] => [[byte]]
      | line :: others => (byte :: line) :: others

/-- The lines in front of the first one that is not text. -/
def textLines (bytes : List UInt8) : List (List UInt8) := (linesOf bytes).takeWhile isText

/-- The bytes in front of the first line that is not text. -/
def textFront (bytes : List UInt8) : List UInt8 := (textLines bytes).flatten

/-- Bytes are none, a single line without a newline, or a line with a newline and other bytes. -/
@[elab_as_elim]
theorem line_induction {motive : List UInt8 -> Prop} (nil : motive [])
    (last : ∀ line, line ≠ [] → Source.newline ∉ line → motive line)
    (line : ∀ line rest, Source.newline ∉ line → motive rest →
      motive (line ++ Source.newline :: rest)) (bytes : List UInt8) : motive bytes := by
  by_cases ended : Source.newline ∈ bytes
  · obtain ⟨front, rest, rfl, plain⟩ := List.eq_append_cons_of_mem ended
    exact line front rest plain (line_induction nil last line rest)
  · by_cases empty : bytes = []
    · exact empty ▸ nil
    · exact last bytes empty ended
termination_by bytes.length
decreasing_by
  subst_vars
  simp only [List.length_append, List.length_cons]
  omega

theorem linesOf_of_notMem {line : List UInt8} (nonempty : line ≠ [])
    (plain : Source.newline ∉ line) : linesOf line = [line] := by
  induction line with
  | nil => exact absurd rfl nonempty
  | cons byte rest inductionHypothesis =>
    obtain ⟨other, plainRest⟩ := not_or.mp (List.mem_cons.not.mp plain)
    rw [linesOf, if_neg (Ne.symm other)]
    by_cases empty : rest = []
    · simp [empty, linesOf]
    · simp [inductionHypothesis empty plainRest]

theorem linesOf_append_newline {line : List UInt8} (plain : Source.newline ∉ line)
    (rest : List UInt8) :
    linesOf (line ++ Source.newline :: rest) = (line ++ [Source.newline]) :: linesOf rest := by
  induction line with
  | nil => simp [linesOf]
  | cons byte others inductionHypothesis =>
    obtain ⟨other, plainRest⟩ := not_or.mp (List.mem_cons.not.mp plain)
    rw [List.cons_append, linesOf, if_neg (Ne.symm other), inductionHypothesis plainRest,
      List.cons_append]

/-- Lines in order make up the bytes that they were cut from. -/
theorem flatten_linesOf (bytes : List UInt8) : (linesOf bytes).flatten = bytes := by
  induction bytes using line_induction with
  | nil => rfl
  | last line nonempty plain => simp [linesOf_of_notMem nonempty plain]
  | line line rest plain inductionHypothesis =>
    simp [linesOf_append_newline plain, inductionHypothesis]

theorem isText_append_newline (line rest : List UInt8) :
    isText (line ++ Source.newline :: rest) = (isText line && isText rest) := by
  rw [Bool.eq_iff_iff, Bool.and_eq_true]
  exact isSome_decode?_append_newline line rest

theorem isText_nil : isText [] = true := rfl

/-- A newline at its end does not matter for a line. -/
theorem isText_line (line : List UInt8) : isText (line ++ [Source.newline]) = isText line := by
  rw [isText_append_newline, isText_nil, Bool.and_true]

/-- Bytes are text exactly if each of their lines is. -/
theorem isText_eq_all_linesOf (bytes : List UInt8) : isText bytes = (linesOf bytes).all isText := by
  induction bytes using line_induction with
  | nil => rfl
  | last line nonempty plain => simp [linesOf_of_notMem nonempty plain]
  | line line rest plain inductionHypothesis =>
    rw [linesOf_append_newline plain, List.all_cons, isText_append_newline, inductionHypothesis,
      isText_line]

theorem textLines_of_notMem {line : List UInt8} (nonempty : line ≠ [])
    (plain : Source.newline ∉ line) : textLines line = if isText line then [line] else [] := by
  rw [textLines, linesOf_of_notMem nonempty plain, List.takeWhile_cons]
  cases isText line <;> rfl

theorem textLines_append_newline {line : List UInt8} (plain : Source.newline ∉ line)
    (rest : List UInt8) :
    textLines (line ++ Source.newline :: rest) =
      if isText line then (line ++ [Source.newline]) :: textLines rest else [] := by
  rw [textLines, linesOf_append_newline plain, List.takeWhile_cons, isText_line]
  rfl

/-- The front of text is the whole of it. -/
theorem textFront_of_isText {bytes : List UInt8} (text : isText bytes = true) :
    textFront bytes = bytes := by
  rw [isText_eq_all_linesOf, List.all_eq_true] at text
  rw [textFront, textLines, List.takeWhile_eq_self_iff.mpr text, flatten_linesOf]

/-- The lines of the front are the lines that it was made of. -/
theorem linesOf_textFront (bytes : List UInt8) : linesOf (textFront bytes) = textLines bytes := by
  induction bytes using line_induction with
  | nil => rfl
  | last line nonempty plain =>
    rw [textFront, textLines_of_notMem nonempty plain]
    split
    · simp [linesOf_of_notMem nonempty plain]
    · rfl
  | line line rest plain inductionHypothesis =>
    rw [textFront, textLines_append_newline plain]
    split
    · rw [List.flatten_cons, ← textFront, List.append_assoc, List.singleton_append,
        linesOf_append_newline plain, inductionHypothesis]
    · rfl

theorem textLines_textFront (bytes : List UInt8) :
    textLines (textFront bytes) = textLines bytes := by
  rw [textLines, linesOf_textFront, textLines, List.takeWhile_idem]

/-- The line that some bytes are read as. -/
def line? (bytes : List UInt8) : Option Line := (decode? bytes).map (Line.mk bytes)

end Utf8

/-- A line that is not stopped by a failure is read as its text, if it is text. -/
theorem RawLine.result_of_stop {raw : RawLine} (nonempty : raw.bytes ≠ [])
    (stopped : raw.stop = .newline ∨ raw.stop = .endOfInput) :
    raw.result = (Utf8.decode? raw.bytes).elim (.failure .invalidText) .line := by
  have filled : raw.bytes.isEmpty = false := by simpa [List.isEmpty_iff] using nonempty
  rcases stopped with stop | stop <;> cases decoded : Utf8.decode? raw.bytes <;>
    simp [result, stop, filled, decoded]

namespace Source

variable {source : Source} {bytes : List UInt8}

open Utf8

theorem inLine_of_notMem (plain : newline ∉ bytes) : ∀ byte ∈ bytes, inLine byte = true :=
  fun _ member => bne_iff_ne.mpr fun same => plain (same ▸ member)

/-- A source reads the lines of a line that is taken, and goes on behind it if it is text. -/
theorem lines_of_takeLine (nonempty : (takeLine source).bytes ≠ [])
    (stopped : (takeLine source).stop = .newline ∨ (takeLine source).stop = .endOfInput) :
    if isText (takeLine source).bytes then
      source.lines = (line? (takeLine source).bytes).toList ++ (takeLine source).rest.lines ∧
        source.lastRead.result = (takeLine source).rest.lastRead.result
    else source.lines = [] ∧ source.lastRead.result = .failure .invalidText := by
  have result := RawLine.result_of_stop nonempty stopped
  cases decoded : decode? (takeLine source).bytes with
  | some text =>
    rw [decoded] at result
    rw [if_pos (by simp [isText, decoded]), lines_of_line result, lastRead_of_line result]
    simp [line?, decoded]
  | none =>
    rw [decoded] at result
    have noLine : ∀ text, (takeLine source).result ≠ .line text := by simp [result]
    rw [if_neg (by simp [isText, decoded]), lines_of_no_line noLine, lastRead_of_no_line noLine]
    exact ⟨rfl, result⟩

/-- A source that delivers some bytes reads their lines up to the first one that is not text, and it
fails exactly if there is one. -/
theorem lines_of_delivers (delivers : source.Delivers bytes) :
    source.lines = (textLines bytes).flatMap (fun line => (line? line).toList) ∧
      source.lastRead.result = if isText bytes then .endOfInput else .failure .invalidText := by
  have nothing {source : Source} (empty : source.Delivers []) :
      source.lines = [] ∧ source.lastRead.result = .endOfInput := by
    obtain ⟨taken, stop, _⟩ := takeLine_of_delivers empty
    have ended : (takeLine source).result = .endOfInput := by simp [RawLine.result, stop, taken]
    have noLine : ∀ text, (takeLine source).result ≠ .line text := by simp [ended]
    rw [lines_of_no_line noLine, lastRead_of_no_line noLine, ended]
    exact ⟨rfl, rfl⟩
  induction bytes using line_induction generalizing source with
  | nil => exact nothing delivers
  | last line nonempty plain =>
    obtain ⟨taken, stop, later⟩ := takeLine_of_delivers_last (inLine_of_notMem plain) delivers
    have read := lines_of_takeLine (by rwa [taken]) (.inr stop)
    obtain ⟨noLines, ended⟩ := nothing later
    rw [taken, noLines, ended] at read
    rw [textLines_of_notMem nonempty plain]
    cases text : isText line <;> simpa [text] using read
  | line line rest plain inductionHypothesis =>
    obtain ⟨taken, stop, later⟩ := takeLine_of_delivers_line (inLine_of_notMem plain) delivers
    have read := lines_of_takeLine (by simp [taken]) (.inl stop)
    obtain ⟨lines, ended⟩ := inductionHypothesis later
    rw [taken, isText_line, lines, ended] at read
    rw [textLines_append_newline plain, isText_append_newline]
    cases text : isText line <;> simpa [text] using read

/-- The bytes in front of the first line that is not text are read as the same lines. -/
theorem lines_of_delivers_textFront {front : Source} (delivers : source.Delivers bytes)
    (inFront : front.Delivers (textFront bytes)) : front.lines = source.lines := by
  rw [(lines_of_delivers inFront).1, (lines_of_delivers delivers).1, textLines_textFront]

end Source

end ExprShell
