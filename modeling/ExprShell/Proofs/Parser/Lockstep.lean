import ExprShell.Proofs.Stream.Pulls
/-!
# Parsers in lockstep

Two parsers are in lockstep over some tokens if their states can be related so that related states
answer alike: both take the token, to related states again, or both stop with the same result or
error. Runs of such parsers give the same over those tokens. Parsers that are put together in the
same way from parsers in lockstep are in lockstep.
-/

namespace ExprShell

/-- That two answers are the same, up to related states from which to go on. -/
inductive Verdict.Alike {State State' Result : Type} (related : State -> State' -> Prop) :
    Verdict State Result -> Verdict State' Result -> Prop
  | shift {next : State} {next' : State'} (nexts : related next next') :
      Alike related (.shift next) (.shift next')
  | accept (result : Result) : Alike related (.accept result) (.accept result)
  | reject (error : SyntaxError) : Alike related (.reject error) (.reject error)

namespace Verdict.Alike

variable {State State' Larger Larger' Result Changed : Type} {related : State -> State' -> Prop}
  {verdict : Verdict State Result} {verdict' : Verdict State' Result}

theorem refl (verdict : Verdict State Result) : verdict.Alike Eq verdict := by
  cases verdict with
  | shift next => exact .shift rfl
  | accept result => exact .accept result
  | reject error => exact .reject error

theorem map {relatedLarger : Larger -> Larger' -> Prop} {onState : State -> Larger}
    {onState' : State' -> Larger'} (alike : verdict.Alike related verdict')
    (keeps : ∀ state state', related state state' →
      relatedLarger (onState state) (onState' state')) (onResult : Result -> Changed) :
    (verdict.map onState onResult).Alike relatedLarger (verdict'.map onState' onResult) := by
  cases alike with
  | shift nexts => exact .shift (keeps _ _ nexts)
  | accept result => exact .accept (onResult result)
  | reject error => exact .reject error

/-- Where one stops, the other stops in the same way. -/
theorem stop {result : Except SyntaxError Result} (alike : verdict.Alike related verdict')
    (stopped : verdict = .stop result) : verdict' = .stop result := by
  subst stopped
  cases result with
  | ok value =>
    cases alike
    rfl
  | error error =>
    cases alike
    rfl

end Verdict.Alike

namespace Parser

variable {Result First Second : Type} {admits : Token -> Prop}

/-- That two parsers take steps alike over the tokens that are admitted. -/
def Lockstep (admits : Token -> Prop) (parser parser' : Parser Result) : Prop :=
  ∃ related : parser.State -> parser'.State -> Prop, related parser.start parser'.start ∧
    ∀ state state', related state state' → ∀ token : Option Token,
      (∀ given ∈ token, admits given) →
      (parser.feed state token).Alike related (parser'.feed state' token)

namespace Lockstep

theorem refl (parser : Parser Result) : Lockstep admits parser parser := by
  refine ⟨Eq, rfl, ?_⟩
  rintro state _ rfl token _
  exact .refl _

theorem map {parser parser' : Parser First} (lockstep : Lockstep admits parser parser')
    (change : First -> Second) : Lockstep admits (parser.map change) (parser'.map change) := by
  obtain ⟨related, starts, feeds⟩ := lockstep
  refine ⟨related, starts, fun state state' states token admitted => ?_⟩
  exact (feeds state state' states token admitted).map (fun _ _ nexts => nexts) change

theorem andThen {first first' : Parser First} {second second' : Parser Second}
    (lockstep : Lockstep admits first first') (lockstepSecond : Lockstep admits second second') :
    Lockstep admits (first.andThen second) (first'.andThen second') := by
  obtain ⟨related, starts, feeds⟩ := lockstep
  obtain ⟨relatedSecond, startsSecond, feedsSecond⟩ := lockstepSecond
  refine ⟨Sum.LiftRel related fun pair pair' =>
    pair.1 = pair'.1 ∧ relatedSecond pair.2 pair'.2, .inl starts, ?_⟩
  rintro _ _ (states | ⟨results, states⟩) token admitted
  · rename_i state state'
    have alike := feeds state state' states token admitted
    simp only [Parser.andThen]
    generalize first.feed state token = verdict at alike
    generalize first'.feed state' token = verdict' at alike
    cases alike with
    | shift nexts => exact .shift (.inl nexts)
    | accept result =>
      exact (feedsSecond _ _ startsSecond token admitted).map
        (fun _ _ nexts => .inr ⟨rfl, nexts⟩) _
    | reject error => exact .reject error
  · rename_i pair pair'
    obtain ⟨result, state⟩ := pair
    obtain ⟨result', state'⟩ := pair'
    obtain rfl : result = result' := results
    exact (feedsSecond state state' states token admitted).map
      (fun _ _ nexts => .inr ⟨rfl, nexts⟩) _

theorem branch {chosen chosen' otherwise otherwise' : Parser Result}
    (lockstep : Lockstep admits chosen chosen')
    (lockstepOtherwise : Lockstep admits otherwise otherwise')
    (chooses : Option Token -> Bool) :
    Lockstep admits (Parser.branch chooses chosen otherwise)
      (Parser.branch chooses chosen' otherwise') := by
  obtain ⟨related, starts, feeds⟩ := lockstep
  obtain ⟨relatedOtherwise, startsOtherwise, feedsOtherwise⟩ := lockstepOtherwise
  refine ⟨Option.Rel (Sum.LiftRel related relatedOtherwise), .none, ?_⟩
  rintro _ _ (⟨states | states⟩ | _) token admitted
  · exact (feeds _ _ states token admitted).map (fun _ _ nexts => .some (.inl nexts)) id
  · exact (feedsOtherwise _ _ states token admitted).map
      (fun _ _ nexts => .some (.inr nexts)) id
  · simp only [Parser.branch]
    split
    · exact (feeds _ _ starts token admitted).map (fun _ _ nexts => .some (.inl nexts)) id
    · exact (feedsOtherwise _ _ startsOtherwise token admitted).map
        (fun _ _ nexts => .some (.inr nexts)) id

/-- Runs in lockstep over admitted tokens give the same and leave the same. -/
theorem parse_eq {parser parser' : Parser Result} (lockstep : Lockstep admits parser parser')
    {tokens : List Token} (admitted : ∀ token ∈ tokens, admits token) :
    parser.parse tokens = parser'.parse tokens := by
  obtain ⟨related, starts, feeds⟩ := lockstep
  have runs : ∀ state state', related state state' →
      parser.parseFrom state tokens = parser'.parseFrom state' tokens := by
    induction tokens with
    | nil =>
      intro state state' states
      rcases parser.parseFrom_cases state [] with ⟨_, _, _, none, _⟩ | ⟨result, stopped, run⟩
      · simp at none
      · have alike := feeds state state' states none (by simp)
        rw [run, parser'.parseFrom_of_stop (alike.stop stopped)]
    | cons token rest inductionHypothesis =>
      intro state state' states
      have alike := feeds state state' states (some token)
        fun given found => Option.some.inj found ▸ admitted token List.mem_cons_self
      rcases parser.parseFrom_cases state (token :: rest) with
        ⟨_, _, next, same, fed, run⟩ | ⟨result, stopped, run⟩
      · obtain ⟨rfl, rfl⟩ := List.cons.inj same
        rw [fed] at alike
        generalize fed' : parser'.feed state' (some token) = verdict' at alike
        cases alike with
        | shift nexts =>
          rw [run, parser'.parseFrom_of_shift rest fed']
          exact inductionHypothesis
            (fun other member => admitted other (List.mem_cons_of_mem _ member)) _ _ nexts
      · rw [run, parser'.parseFrom_of_stop (alike.stop stopped)]
  exact runs _ _ starts

/-- Over a stream as well, and they read as far. -/
theorem run_eq {parser parser' : Parser Result} (lockstep : Lockstep admits parser parser')
    {stream : TokenStream} (admitted : ∀ token ∈ stream.tokens, admits token) :
    parser.run stream = parser'.run stream := by
  have same := lockstep.parse_eq admitted
  rcases parsed : parser.parse stream.tokens with ⟨result, rest⟩
  obtain ⟨taken, parts⟩ := parser.parseFrom_suffix parser.start stream.tokens
  rw [← parse, parsed] at parts
  rw [parser.run_of_parse parts.symm parsed,
    parser'.run_of_parse parts.symm (same.symm.trans parsed)]

end Lockstep

end Parser

end ExprShell
