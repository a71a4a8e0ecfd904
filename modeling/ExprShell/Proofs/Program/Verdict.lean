import ExprShell.CommandLine
import ExprShell.Proofs.Conversation.Likeness
import ExprShell.Proofs.Conversation.Prompts
import ExprShell.Proofs.Conversation.Recovery
import ExprShell.Proofs.Source.Validity
import ExprShell.Proofs.Stream.Laziness
/-!
# The verdict of a call in parse mode

A call in parse mode reads its source to the end or to the first line that is not text, and it fails
exactly in the second case, however many syntax errors there are. Everything it writes before is
what a shell writes about the lines in front of that line.
-/

namespace ExprShell

namespace Conversation

variable {operators : Operators} {conversation next first last : Conversation operators}

/-- A conversation stands somewhere in its source after any steps. -/
theorem Steps.exists_standsIn {source : Source} (steps : first.Steps last)
    (stands : ∃ passed, first.stream.StandsIn source passed) :
    ∃ passed, last.stream.StandsIn source passed := by
  induction steps with
  | refl => exact stands
  | tail _ stepped inductionHypothesis =>
    obtain ⟨passed, stands⟩ := inductionHypothesis
    rcases stream_of_step stepped with same | ⟨_, looked⟩ | ⟨_, advanced⟩
    · exact ⟨passed, same ▸ stands⟩
    · exact ⟨passed, looked ▸ stands.look⟩
    · exact ⟨passed + 1, advanced ▸ stands.look.advance (TokenStream.settled_look _) rfl⟩

end Conversation

namespace Shell

/-- A whole conversation meets the failure that ends its source, if there is one. -/
theorem failure?_run (shell : Shell) (parsing : shell.session.config.mode = .parse)
    (unlimited : shell.console = .unlimited) (source : Source) :
    (shell.run (.ofSource source)).stream.failure? = source.lastRead.result.failure? := by
  obtain ⟨segments, segmentation⟩ :=
    exists_segmentation shell.operators (TokenStream.ofSource source).tokens
  obtain ⟨_, leads, isOver⟩ := shell.run_of_segmentation parsing unlimited segmentation
  obtain ⟨passed, stands⟩ :=
    Conversation.Steps.exists_standsIn leads.steps ⟨0, TokenStream.standsIn_ofSource source⟩
  cases stands with
  | within count exist needed covered left kept isOpen taken =>
    simpa [isOpen] using isOver.ended
  | beyond exhausted empty ended failure taken => exact failure

end Shell

namespace CommandLine

variable {bytes : List UInt8} {source front : Source}

open Utf8

/-- The report on input that is not text. -/
def invalidTextReport : String :=
  "Error: failed to read input: stream did not contain valid UTF-8\n"

/-- A conversation in parse mode about any bytes ends in the verdict on them. What is written is
what is written about the lines in front of the first one that is not text, and the report on that
line. -/
theorem converse_of_delivers (shell : Shell) (parsing : shell.session.config.mode = .parse)
    (unlimited : shell.console = .unlimited) (delivers : source.Delivers bytes)
    (inFront : front.Delivers (textFront bytes)) :
    let run := shell.run (.ofSource front)
    converse shell source =
      ⟨if isText bytes then 0 else 1, Event.output .results run.events,
        Event.output .diagnostics run.events ++
          if isText bytes then [] else encode invalidTextReport⟩ := by
  intro run
  have sameTokens : (TokenStream.ofSource source).tokens = (TokenStream.ofSource front).tokens := by
    rw [TokenStream.tokens_ofSource, TokenStream.tokens_ofSource, Source.tokens_eq_flatMap_lines,
      Source.tokens_eq_flatMap_lines, Source.lines_of_delivers_textFront delivers inFront]
  have written := (shell.run_congr sameTokens).1
  have failure := shell.failure?_run parsing unlimited source
  rw [(Source.lines_of_delivers delivers).2] at failure
  obtain ⟨segments, segmentation⟩ :=
    exists_segmentation shell.operators (TokenStream.ofSource source).tokens
  obtain ⟨_, _, isOver⟩ := shell.run_of_segmentation parsing unlimited segmentation
  have accepted : (shell.run (.ofSource source)).refusal = none := by
    rw [Conversation.refusal, isOver.phase]
  simp only [converse, parting, accepted, failure, written]
  cases isText bytes with
  | true => simp [LineResult.failure?, run]
  | false => simp [LineResult.failure?, run, complaint, invalidTextReport, ReadError.message]

/-- A call in parse mode, of which the bytes come from a file that can be opened or are typed. It
fails exactly if the bytes are no text, whatever syntax errors they hold. Its results are those of a
conversation about the lines in front of the first one that is not text, and do not depend on where
the bytes come from. Its diagnostics are those of that conversation, which prompts exactly if the
bytes are typed, and a report if the bytes are no text. An item that the end of these lines cuts off
is the last thing that is reported, as one that ends at the end of the input. -/
theorem execute_parse_mode {arguments : List String} {optimize : Bool} {file : Option String}
    (asked : parse arguments = .ok ⟨⟨.parse, optimize⟩, file⟩)
    (openFile : String -> Except String Source) (input : Source) (backend : Option Backend)
    (opens : file.elim (.ok input) openFile = .ok source) (delivers : source.Delivers bytes)
    (inFront : front.Delivers (textFront bytes)) :
    let shell : Shell :=
      .start .standard (.fresh ⟨.parse, optimize⟩) file.isNone .unlimited backend
    let quiet : Shell := .start .standard .parsing false .unlimited
    let run := shell.run (.ofSource front)
    ∃ ending, execute arguments openFile input backend = .ok ending ∧
      ending.status = (if isText bytes then 0 else 1) ∧
      ending.results = Event.output .results run.events ∧
      ending.results = Event.output .results (quiet.run (.ofSource front)).events ∧
      ending.diagnostics = Event.output .diagnostics run.events ++
        (if isText bytes then [] else encode invalidTextReport) ∧
      (isText bytes = true → textFront bytes = bytes) ∧
      ∃ segments, Segmentation .standard front.tokens segments ∧
        run.shown = transcript file.isNone segments ∧
        ∀ before after taken error, segments = before ++ .rejected taken none error :: after →
          after = [] ∧ ∃ start finish, Segment.written .diagnostics [.rejected taken none error] =
            encode (start ++ "end of input" ++ finish) := by
  intro shell quiet run
  have ended : execute arguments openFile input backend = .ok (converse shell source) := by
    rw [execute, asked]
    cases file with
    | none =>
      obtain rfl : input = source := Except.ok.inj opens
      rfl
    | some name =>
      have opened : openFile name = .ok source := opens
      simp only [bind, Except.bind, Invocation.shell, Session.start, pure, Except.pure, opened]
      rfl
  have verdict := converse_of_delivers shell rfl rfl delivers inFront
  obtain ⟨segments, segmentation⟩ := exists_segmentation shell.operators front.tokens
  have ofStream := segmentation
  rw [← TokenStream.tokens_ofSource] at ofStream
  have sameResults : Event.output .results run.events =
      Event.output .results (quiet.run (.ofSource front)).events := by
    rw [shell.output_run_eq rfl rfl ofStream, quiet.output_run_eq rfl rfl ofStream,
      output_results_promptEvents, output_results_promptEvents]
  refine ⟨_, ended, by rw [verdict], by rw [verdict], by rw [verdict]; exact sameResults,
    by rw [verdict], textFront_of_isText, segments, segmentation,
    shell.shown_run rfl rfl ofStream, ?_⟩
  rintro before after taken error rfl
  obtain ⟨last, found⟩ := segmentation.of_cutOff
  obtain ⟨start, finish, written, _⟩ := Segment.exists_written_cutOff taken found none
  exact ⟨last, start, finish, written⟩

/-- A file with a call that a line with a stray byte cuts off. The item in front of the call is
reported and the one behind that line is not. -/
theorem execute_parse_mode_cut_call :
    let arguments := ["--mode", "parse", "--no-opt", "calls"]
    let bytes := encode "x;\ny(1\n" ++ [0xFF, 0x0A] ++ encode "z\n"
    let source : Source := [.data bytes]
    let front : Source := [.data (textFront bytes)]
    let openFile : String -> Except String Source := fun _ => .ok source
    parse arguments = .ok ⟨⟨.parse, false⟩, some "calls"⟩ ∧ openFile "calls" = .ok source ∧
      source.Delivers bytes ∧ front.Delivers (textFront bytes) ∧
      textFront bytes = encode "x;\ny(1\n" ∧
      execute arguments openFile [] = .ok ⟨1, encode "Parsed a top-level expression.\n",
        encode ("Error: expected ')' or ',' in argument list, found end of input\n" ++
          invalidTextReport)⟩ := by
  intro arguments bytes source front openFile
  have asked : parse arguments = .ok ⟨⟨.parse, false⟩, some "calls"⟩ := by decide +kernel
  have opened : openFile "calls" = .ok source := rfl
  have whole : front.Delivers (textFront bytes) := .single _
  have noText : isText bytes = false := by decide +kernel
  obtain ⟨ending, ended, status, results, _, diagnostics, _⟩ :=
    execute_parse_mode asked openFile [] none opened (.single bytes) whole
  refine ⟨asked, opened, .single bytes, whole, by decide +kernel, ended.trans ?_⟩
  rw [noText] at status diagnostics
  have written : ending.results = encode "Parsed a top-level expression.\n" :=
    results.trans (by decide +kernel)
  have reported : ending.diagnostics =
      encode ("Error: expected ')' or ',' in argument list, found end of input\n" ++
        invalidTextReport) := diagnostics.trans (by decide +kernel)
  obtain ⟨status', results', diagnostics'⟩ := ending
  obtain rfl : status' = 1 := status
  obtain rfl : results' = _ := written
  obtain rfl : diagnostics' = _ := reported
  rfl

end CommandLine

end ExprShell
