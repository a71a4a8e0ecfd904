import ExprShell.Proofs.Source.Delivery
import ExprShell.Proofs.Source.Lines
import ExprShell.Proofs.Stream.Pulls
/-!
# Streams read no line too many

A stream that has passed some tokens of its source has read the lines that these tokens and the next
one stand in, and none behind them. When no token is left it has read up to the event that ended the
source, and it stays there. So what a stream shows depends only on the lines up to the one that
holds its current token.
-/

namespace ExprShell

namespace TokenStream

/-- What has been read of a source when some of its tokens have been passed. Within the source it is
no line too many for these tokens, and the tokens of the lines that have not been passed are kept.
Or it is the whole source. -/
inductive StandsIn (source : Source) (passed : Nat) (stream : TokenStream) : Prop
  | within (count : Nat) (exist : count ≤ source.lines.length)
      (needed : ∀ fewer < count, (source.tokensWithin fewer).length ≤ passed)
      (covered : passed ≤ (source.tokensWithin count).length)
      (left : stream.source = source.afterLines count)
      (kept : stream.buffer = (source.tokensWithin count).drop passed)
      (isOpen : stream.ending = none)
      (taken : stream.taken = (source.bytesWithin count).length)
  | beyond (exhausted : source.tokens.length ≤ passed)
      (empty : stream.buffer = [])
      (ended : stream.ending.isSome = true)
      (failure : stream.failure? = source.lastRead.result.failure?)
      (taken : stream.taken =
        (source.lines.flatMap Line.bytes).length + source.lastRead.bytes.length)

variable {source : Source} {passed : Nat} {stream : TokenStream}

theorem standsIn_ofSource (source : Source) : (ofSource source).StandsIn source 0 :=
  .within 0 (Nat.zero_le _) (fun _ none => absurd none (Nat.not_lt_zero _)) (Nat.zero_le _) rfl rfl
    rfl rfl

/-- Reading a line that is wanted. -/
theorem StandsIn.readLine (stands : stream.StandsIn source passed) (starved : stream.buffer = [])
    (opened : stream.ending = none) : stream.readLine.StandsIn source passed := by
  cases stands with
  | beyond exhausted empty ended => simp [opened] at ended
  | within count exist needed covered left kept isOpen taken =>
    -- Nothing is kept, so the tokens that were passed are all those of the lines read.
    rw [starved, eq_comm, List.drop_eq_nil_iff] at kept
    by_cases more : count < source.lines.length
    · obtain ⟨line, next, read, bytes⟩ := Source.takeLine_afterLines more
      refine .within (count + 1) more (fun fewer le => ?_) ?_ ?_ ?_ ?_ ?_
      · exact ((source.tokensWithin_mono (Nat.le_of_lt_succ le)).length_le).trans kept
      · rw [Source.tokensWithin_succ next, List.length_append]
        omega
      · simp only [TokenStream.readLine, left, read, Source.afterLines]
      · have same : passed = (source.tokensWithin count).length := Nat.le_antisymm covered kept
        simp only [TokenStream.readLine, left, read, starved, List.nil_append]
        rw [Source.tokensWithin_succ next, same, List.drop_left]
        rfl
      · simp only [TokenStream.readLine, left, read, isOpen]
      · simp only [TokenStream.readLine, left, read, taken, bytes]
        rw [Source.bytesWithin_succ next, List.length_append]
    · obtain rfl : count = source.lines.length := Nat.le_antisymm exist (Nat.le_of_not_lt more)
      obtain ⟨last, noLine⟩ := source.takeLine_afterLines_length
      rw [Source.tokensWithin_of_length_le (Nat.le_refl _)] at kept
      rw [Source.bytesWithin_length] at taken
      cases result : source.lastRead.result with
      | line text => exact absurd result (noLine text)
      | endOfInput =>
        refine .beyond kept ?_ ?_ ?_ ?_ <;>
          simp [TokenStream.readLine, left, last, result, starved, taken, failure?,
            LineResult.failure?]
      | failure error =>
        refine .beyond kept ?_ ?_ ?_ ?_ <;>
          simp [TokenStream.readLine, left, last, result, starved, taken, failure?,
            LineResult.failure?]

theorem StandsIn.fill (stands : stream.StandsIn source passed) :
    stream.fill.StandsIn source passed := by
  fun_induction TokenStream.fill stream with
  | case1 stream starved inductionHypothesis =>
    exact inductionHypothesis (stands.readLine (List.isEmpty_iff.mp starved.1)
      (Option.isNone_iff_eq_none.mp starved.2))
  | case2 => exact stands

theorem StandsIn.look (stands : stream.StandsIn source passed) :
    stream.look.StandsIn source passed := by
  cases stands.fill with
  | within count exist needed covered left kept isOpen taken =>
    exact .within count exist needed covered left kept isOpen taken
  | beyond exhausted empty ended failure taken =>
    exact .beyond exhausted empty ended failure taken

/-- Advancing passes one more token. -/
theorem StandsIn.advance (stands : stream.StandsIn source passed) (settled : stream.Settled)
    (started : stream.started = true) : stream.advance.StandsIn source (passed + 1) := by
  rw [TokenStream.advance, if_pos started, settled.fill_eq]
  apply StandsIn.look
  cases stands with
  | within count exist needed covered left kept isOpen taken =>
    have more : passed < (source.tokensWithin count).length := by
      have held : stream.buffer ≠ [] := settled.resolve_right (by simp [isOpen])
      rw [kept, ne_eq, List.drop_eq_nil_iff] at held
      omega
    refine .within count exist (fun fewer le => (needed fewer le).trans (Nat.le_succ _)) more left
      ?_ isOpen taken
    rw [kept, List.tail_drop]
  | beyond exhausted empty ended failure taken =>
    have still : source.tokens.length ≤ passed + 1 := exhausted.trans (Nat.le_succ _)
    exact .beyond still (by rw [empty, List.tail_nil]) ended failure taken

/-- Passing tokens of a source reads the lines for them and for the next one. -/
theorem standsIn_past (source : Source) (count : Nat) :
    ((ofSource source).past count).StandsIn source count := by
  induction count with
  | zero => exact (standsIn_ofSource source).look
  | succ count inductionHypothesis =>
    exact inductionHypothesis.advance (settled_past _ count) (started_past _ count)

/-- In front of a token, a stream has read the fewest lines that hold it. -/
theorem taken_past_of_lt {source : Source} {token : Nat} (more : token < source.tokens.length) :
    ∃ count, source.FewestFor token count ∧
      ((ofSource source).past token).taken = (source.bytesWithin count).length ∧
      ((ofSource source).past token).failure? = none := by
  have settled := settled_past (ofSource source) token
  cases standsIn_past source token with
  | within count exist needed covered left kept isOpen taken =>
    have held := settled.resolve_right (by simp [isOpen])
    rw [kept, ne_eq, List.drop_eq_nil_iff] at held
    exact ⟨count, ⟨Nat.lt_of_not_le held, needed⟩, taken, by simp [failure?, isOpen]⟩
  | beyond exhausted => omega

/-- Behind its last token, a stream has read up to the event that ended the source. -/
theorem taken_past_of_le {source : Source} {token : Nat} (none : source.tokens.length ≤ token) :
    ((ofSource source).past token).taken =
        (source.lines.flatMap Line.bytes ++ source.lastRead.bytes).length ∧
      ((ofSource source).past token).failure? = source.lastRead.result.failure? := by
  have settled := settled_past (ofSource source) token
  cases standsIn_past source token with
  | within count exist needed covered left kept isOpen taken =>
    have held := settled.resolve_right (by simp [isOpen])
    have fewer := (source.tokensWithin_prefix count).length_le
    rw [kept, ne_eq, List.drop_eq_nil_iff] at held
    omega
  | beyond exhausted empty ended failure taken =>
    exact ⟨by rw [taken, List.length_append], failure⟩

/-- What a stream shows does not depend on what comes behind the line of its current token, or
behind the event that ended it. -/
theorem shown_past_of_agreeFor {source other : Source} {count token : Nat}
    (agree : source.AgreeFor count other) (reaches : source.Reaches count token) :
    ((ofSource other).past token).head? = ((ofSource source).past token).head? ∧
      ((ofSource other).past token).taken = ((ofSource source).past token).taken ∧
      ((ofSource other).past token).failure? = ((ofSource source).past token).failure? := by
  have sameToken : other.tokens[token]? = source.tokens[token]? := by
    have first := congrArg (·[token]?) (agree.take_tokens reaches)
    simpa [List.getElem?_take] using first.symm
  rw [head?_past, head?_past, tokens_ofSource, tokens_ofSource]
  refine ⟨sameToken, ?_⟩
  by_cases more : token < source.tokens.length
  · have moreOther : token < other.tokens.length := by
      rw [← not_le, ← List.getElem?_eq_none_iff] at more ⊢
      rwa [sameToken]
    obtain ⟨lines, fewest, taken, failure⟩ := taken_past_of_lt more
    obtain ⟨linesOther, fewestOther, takenOther, failureOther⟩ := taken_past_of_lt moreOther
    have holds : token < (source.tokensWithin count).length := by
      rcases reaches with holds | all
      · exact holds
      · rwa [Source.tokensWithin_of_length_le (Nat.le_of_lt all)]
    have within := fewest.le_of_holds holds
    obtain rfl := (agree.fewestFor fewest within).unique fewestOther
    rw [taken, takenOther, failure, failureOther, agree.bytesWithin_eq within]
    exact ⟨rfl, rfl⟩
  · have all : source.lines.length < count := by
      refine reaches.resolve_left fun holds => more ?_
      exact Nat.lt_of_lt_of_le holds (source.tokensWithin_prefix count).length_le
    obtain ⟨sameLines, sameBytes, sameResult⟩ := agree.all_lines all
    rw [Nat.not_lt] at more
    have moreOther : other.tokens.length ≤ token := agree.tokens_eq all ▸ more
    obtain ⟨taken, failure⟩ := taken_past_of_le more
    obtain ⟨takenOther, failureOther⟩ := taken_past_of_le moreOther
    rw [taken, takenOther, failure, failureOther, sameLines, sameBytes, sameResult]
    exact ⟨rfl, rfl⟩

/-- A stream reads its source line by line and no line before a token of it is wanted. Its tokens
are those of the lines that come before the first read without a line. Each advance passes a token,
and so does the first call of all. In front of a token the stream has read the fewest lines that
hold it and met no failure; behind the last one it has read up to the event that ended the source,
it tells whether that was a failure, and nothing changes it any more. Looking at the current token
again reads nothing. All this does not depend on where the chunks of the source end. -/
theorem calls_read_lines_lazily (source : Source) :
    (∀ (first : Call) (others : List Call),
      let stream := (ofSource source).calls (first :: others)
      let tokens := source.lines.flatMap Line.tokens
      let pulls := others.count .advance + 1
      stream.head? = tokens[pulls - 1]? ∧
      (pulls ≤ tokens.length → stream.failure? = none ∧
        ∃ count, pulls ≤ ((source.lines.take count).flatMap Line.tokens).length ∧
          (∀ fewer < count, ((source.lines.take fewer).flatMap Line.tokens).length < pulls) ∧
          stream.taken = ((source.lines.take count).flatMap Line.bytes).length) ∧
      (tokens.length < pulls → stream.failure? = source.lastRead.result.failure? ∧
        stream.taken = (source.lines.flatMap Line.bytes ++ source.lastRead.bytes).length ∧
        ∀ later, stream.calls later = stream) ∧
      stream.call .current = stream) ∧
    ∀ other : Source, other.moments = source.moments → ∀ requests,
      ((ofSource other).calls requests).head? = ((ofSource source).calls requests).head? ∧
      ((ofSource other).calls requests).taken = ((ofSource source).calls requests).taken ∧
      ((ofSource other).calls requests).failure? =
        ((ofSource source).calls requests).failure? := by
  constructor
  · intro first others stream tokens pulls
    have passed : stream = (ofSource source).past (others.count .advance) :=
      calls_of_fresh rfl first others
    have all : tokens = source.tokens := source.tokens_eq_flatMap_lines.symm
    refine ⟨?_, fun more => ?_, fun beyond => ?_, ?_⟩
    · rw [passed, head?_past, tokens_ofSource, all, Nat.add_sub_cancel]
    · obtain ⟨count, fewest, taken, noFailure⟩ := taken_past_of_lt (all ▸ more)
      rw [passed]
      exact ⟨noFailure, count, fewest.holds,
        fun fewer lt => Nat.lt_succ_of_le (fewest.needed fewer lt), taken⟩
    · have exhausted : source.tokens.length ≤ others.count .advance :=
        Nat.le_of_lt_succ (all ▸ beyond)
      obtain ⟨taken, failure⟩ := taken_past_of_le exhausted
      refine ⟨passed ▸ failure, passed ▸ taken, fun later => ?_⟩
      rw [← tokens_ofSource source] at exhausted
      rw [passed, calls_past, past_of_end exhausted,
        past_of_end (exhausted.trans (Nat.le_add_right _ _))]
    · rw [passed]
      exact look_past _ _
  · intro other sameMoments requests
    cases requests with
    | nil => exact ⟨rfl, rfl, rfl⟩
    | cons first others =>
      rw [calls_of_fresh rfl, calls_of_fresh rfl]
      exact shown_past_of_agreeFor (Source.agreeFor_of_moments sameMoments.symm _)
        (.inr (Nat.lt_succ_self source.lines.length))

/-- A line with one token and a failure in the middle of the next line. The first call reads the
line; the advance meets the failure, and so it stays. -/
theorem calls_read_lines_lazily_up_to_failure :
    let fault : Fault := ⟨.other, "gone"⟩
    let source : Source := [.data [120, 10, 59], .failure fault]
    let tokens := source.lines.flatMap Line.tokens
    let stream := (ofSource source).calls [.current, .advance]
    1 ≤ tokens.length ∧ ((ofSource source).calls [.current]).failure? = none ∧
      tokens.length < 2 ∧ stream.head? = none ∧ stream.failure? = some (.device fault) ∧
      stream.taken = 3 ∧ ∀ later, stream.calls later = stream := by
  intro fault source tokens stream
  have one : (source.lines.flatMap Line.tokens).length = 1 := by decide +kernel
  have last : source.lastRead.result.failure? = some (.device fault) := by decide +kernel
  have bytes : (source.lines.flatMap Line.bytes ++ source.lastRead.bytes).length = 3 := by
    decide +kernel
  obtain ⟨lazily, _⟩ := calls_read_lines_lazily source
  obtain ⟨_, within, _⟩ := lazily .current []
  obtain ⟨current, _, beyond, _⟩ := lazily .current [.advance]
  have more : tokens.length < 2 := by rw [one]; decide
  obtain ⟨failed, taken, stays⟩ := beyond more
  refine ⟨Nat.le_of_eq one.symm, (within (Nat.le_of_eq one.symm)).1, more, ?_,
    failed.trans last, taken.trans bytes, stays⟩
  exact current.trans (List.getElem?_eq_none (Nat.le_of_eq one))

end TokenStream

end ExprShell
