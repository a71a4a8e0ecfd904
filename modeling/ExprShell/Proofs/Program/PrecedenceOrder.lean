import Mathlib.Data.Int.Order.Basic
import ExprShell.Proofs.Descent.Progress
import ExprShell.Proofs.Parser.Lockstep
import ExprShell.Proofs.Program.WellFormed
/-!
# Only the order of precedences matters

Under two tables with the same operators in the same order, expressions are read in lockstep: the
same operators wait on both sides, with precedences that compare alike. So every request to a stream
is answered the same, if the tables agree in this way on the symbols of its source. A negative entry
is none, and an entry for a character that is no symbol of any source is never looked up. The
thresholds of a descent stay within the range of the entries.
-/

namespace ExprShell

namespace Operators

/-- That a character is a binary operator: its entry is a natural number. -/
def IsBinary (operators : Operators) (char : Char) : Prop :=
  ∃ precedence, operators.lookup char = some precedence ∧ 0 ≤ precedence

/-- That two tables have the same binary operators among some characters, and that any two of these
compare alike. -/
structure SameOrder (among : Char -> Prop) (operators operators' : Operators) : Prop where
  binary : ∀ char, among char → (operators.IsBinary char ↔ operators'.IsBinary char)
  compares : ∀ first second, among first → among second →
    operators.IsBinary first → operators.IsBinary second →
    compare (operators.precedenceOf (some (.symbol first)))
        (operators.precedenceOf (some (.symbol second))) =
      compare (operators'.precedenceOf (some (.symbol first)))
        (operators'.precedenceOf (some (.symbol second)))

theorem isBinary_iff {operators : Operators} {char : Char} :
    operators.IsBinary char ↔ ∃ precedence, operators.precedence? char = some precedence := by
  unfold precedence? IsBinary
  cases operators.lookup char with
  | none => simp
  | some entry => by_cases natural : 0 ≤ entry <;> simp [natural]

theorem isBinary_iff_natural {operators : Operators} {char : Char} :
    operators.IsBinary char ↔ 0 ≤ operators.precedenceOf (some (.symbol char)) := by
  simp only [IsBinary, precedenceOf]
  cases operators.lookup char <;> simp

instance (operators : Operators) (char : Char) : Decidable (operators.IsBinary char) :=
  decidable_of_iff _ isBinary_iff_natural.symm

/-- Entries that are the same or count for nothing in both tables keep the order. -/
theorem sameOrder_of_lookup {among : Char -> Prop} {operators operators' : Operators}
    (agree : ∀ char, among char → operators.lookup char = operators'.lookup char ∨
      ¬ operators.IsBinary char ∧ ¬ operators'.IsBinary char) :
    SameOrder among operators operators' where
  binary char member := by
    rcases agree char member with same | ⟨neither, neither'⟩
    · rw [IsBinary, IsBinary, same]
    · exact iff_of_false neither neither'
  compares first second member memberSecond binary binarySecond := by
    have same (char : Char) (member : among char) (binary : operators.IsBinary char) :
        operators.precedenceOf (some (.symbol char)) =
          operators'.precedenceOf (some (.symbol char)) := by
      rcases agree char member with same | ⟨neither, _⟩
      · simp only [precedenceOf, same]
      · exact absurd binary neither
    rw [same first member binary, same second memberSecond binarySecond]

namespace SameOrder

variable {among : Char -> Prop} {operators operators' : Operators}
  (same : SameOrder among operators operators') {first second : Char}

include same

/-- An operator of one table is one of the other. -/
theorem exists_precedence? (member : among first) {precedence : Nat}
    (registered : operators.precedence? first = some precedence) :
    ∃ precedence', operators'.precedence? first = some precedence' :=
  isBinary_iff.mp ((same.binary first member).mp (isBinary_iff.mpr ⟨precedence, registered⟩))

theorem precedence?_eq_none (member : among first)
    (unregistered : operators.precedence? first = none) : operators'.precedence? first = none := by
  cases found : operators'.precedence? first with
  | none => rfl
  | some precedence =>
    have binary := (same.binary first member).mpr (isBinary_iff.mpr ⟨precedence, found⟩)
    obtain ⟨_, registered⟩ := isBinary_iff.mp binary
    simp [unregistered] at registered

/-- Two operators bind at least as tightly in one table if they do in the other. -/
theorem le_iff (member : among first) (memberSecond : among second)
    {precedence precedence' strength strength' : Nat}
    (registered : operators.precedence? first = some precedence)
    (registered' : operators'.precedence? first = some precedence')
    (registeredSecond : operators.precedence? second = some strength)
    (registeredSecond' : operators'.precedence? second = some strength') :
    precedence ≤ strength ↔ precedence' ≤ strength' := by
  have compares := same.compares first second member memberSecond
    (isBinary_iff.mpr ⟨_, registered⟩) (isBinary_iff.mpr ⟨_, registeredSecond⟩)
  rw [precedenceOf_of_precedence? registered, precedenceOf_of_precedence? registered',
    precedenceOf_of_precedence? registeredSecond,
    precedenceOf_of_precedence? registeredSecond'] at compares
  have greater : ((precedence : Int) ≤ strength) ↔ (precedence' : Int) ≤ strength' := by
    rw [← not_lt, ← not_lt, ← compare_gt_iff_gt, ← compare_gt_iff_gt, compares]
  omega

end SameOrder

end Operators

/-! ## Expressions in lockstep -/

section Expressions

variable {among : Char -> Prop} {operators operators' : Operators}

/-- That the same operator waits behind the same operand, with its precedence in each table. -/
structure Pending.Alike (among : Char -> Prop) (operators operators' : Operators)
    (pending pending' : Pending) : Prop where
  left : pending.left = pending'.left
  operator : pending.operator = pending'.operator
  member : among pending.operator
  registered : operators.precedence? pending.operator = some pending.precedence
  registered' : operators'.precedence? pending.operator = some pending'.precedence

/-- That the same bracket is open behind operators that wait alike. -/
structure Level.Alike (among : Char -> Prop) (operators operators' : Operators)
    (level level' : Level) : Prop where
  bracket : level.bracket = level'.bracket
  waiting : List.Forall₂ (Pending.Alike among operators operators') level.waiting level'.waiting

/-- That the same is open in front of the next token. -/
structure ExpressionState.Alike (among : Char -> Prop) (operators operators' : Operators)
    (state state' : ExpressionState) : Prop where
  outer : List.Forall₂ (Level.Alike among operators operators') state.outer state'.outer
  waiting : List.Forall₂ (Pending.Alike among operators operators') state.waiting state'.waiting
  focus : state.focus = state'.focus

namespace Pending

variable {waiting waiting' : List Pending}

theorem Alike.complete {pending pending' : Pending}
    (alike : pending.Alike among operators operators' pending') (value : Expr) :
    pending.complete value = pending'.complete value := by
  rw [Pending.complete, Pending.complete, alike.left, alike.operator]

theorem completeAll_of_alike
    (alike : List.Forall₂ (Alike among operators operators') waiting waiting') (value : Expr) :
    completeAll waiting value = completeAll waiting' value := by
  induction alike generalizing value with
  | nil => rfl
  | cons first _ inductionHypothesis =>
    simp only [completeAll, List.foldl_cons] at inductionHypothesis ⊢
    rw [first.complete, inductionHypothesis]

/-- An operator completes the same waiting ones under both tables. -/
theorem reduce_of_alike (same : operators.SameOrder among operators') {operator : Char}
    (member : among operator) {precedence precedence' : Nat}
    (registered : operators.precedence? operator = some precedence)
    (registered' : operators'.precedence? operator = some precedence')
    (alike : List.Forall₂ (Alike among operators operators') waiting waiting') (value : Expr) :
    List.Forall₂ (Alike among operators operators') (reduce precedence waiting value).1
        (reduce precedence' waiting' value).1 ∧
      (reduce precedence waiting value).2 = (reduce precedence' waiting' value).2 := by
  induction alike generalizing value with
  | nil => exact ⟨.nil, rfl⟩
  | @cons pending pending' _ _ first rest inductionHypothesis =>
    have tighter := same.le_iff member first.member registered registered' first.registered
      first.registered'
    rw [reduce, reduce]
    by_cases completes : precedence ≤ pending.precedence
    · rw [if_pos completes, if_pos (tighter.mp completes), first.complete]
      exact inductionHypothesis _
    · rw [if_neg completes, if_neg fun completes' => completes (tighter.mpr completes')]
      exact ⟨.cons first rest, rfl⟩

end Pending

namespace ExpressionState

variable {outer outer' : List Level} {waiting waiting' : List Pending} {token : Option Token}

theorem close_of_alike (outers : List.Forall₂ (Level.Alike among operators operators') outer outer')
    (waits : List.Forall₂ (Pending.Alike among operators operators') waiting waiting')
    (value : Expr) (token : Option Token) :
    (close outer waiting value token).Alike (Alike among operators operators')
      (close outer' waiting' value token) := by
  have inner := Pending.completeAll_of_alike waits value
  cases outers with
  | nil =>
    simp only [close, inner]
    exact .accept _
  | @cons level level' rest rest' first others =>
    obtain ⟨bracket, before⟩ := level
    obtain ⟨bracket', before'⟩ := level'
    obtain rfl : bracket = bracket' := first.bracket
    cases bracket with
    | group =>
      simp only [close, inner]
      split
      · exact .shift ⟨others, first.waiting, rfl⟩
      · exact .reject _
    | call function arguments =>
      simp only [close, inner]
      split
      · exact .shift ⟨others, first.waiting, rfl⟩
      · split
        · exact .shift ⟨.cons ⟨rfl, first.waiting⟩ others, .nil, rfl⟩
        · exact .reject _

theorem feedBehind_of_alike (same : operators.SameOrder among operators')
    (outers : List.Forall₂ (Level.Alike among operators operators') outer outer')
    (waits : List.Forall₂ (Pending.Alike among operators operators') waiting waiting')
    (value : Expr) (admitted : ∀ char, token = some (.symbol char) → among char) :
    (feedBehind operators 0 outer waiting value token).Alike (Alike among operators operators')
      (feedBehind operators' 0 outer' waiting' value token) := by
  have closes := close_of_alike outers waits value token
  cases found : operators.binary? token with
  | none =>
    have found' : operators'.binary? token = none := by
      match token with
      | some (.symbol char) =>
        have unregistered : operators.precedence? char = none := by
          simpa [Operators.binary?] using found
        exact Operators.binary?_symbol_of_none
          (same.precedence?_eq_none (admitted char rfl) unregistered)
      | none | some .define | some .declare | some (.name _) | some (.number _) => rfl
    simpa only [feedBehind, found, found'] using closes
  | some operator =>
    obtain ⟨operator, precedence⟩ := operator
    obtain ⟨rfl, registered⟩ := Operators.eq_symbol_of_binary? found
    have member := admitted operator rfl
    obtain ⟨precedence', registered'⟩ := same.exists_precedence? member registered
    obtain ⟨waitsOn, left⟩ :=
      Pending.reduce_of_alike same member registered registered' waits value
    have natural (levels : List Level) (strength : Nat) : leastPrecedence 0 levels ≤ strength := by
      cases levels <;> exact Nat.zero_le strength
    simp only [feedBehind, found, Operators.binary?_symbol_of_some registered', natural, if_true]
    exact .shift ⟨outers, .cons ⟨left, rfl, member, registered, registered'⟩ waitsOn, rfl⟩

theorem feedOperand_of_alike
    (outers : List.Forall₂ (Level.Alike among operators operators') outer outer')
    (waits : List.Forall₂ (Pending.Alike among operators operators') waiting waiting')
    (token : Option Token) :
    (feedOperand outer waiting token).Alike (Alike among operators operators')
      (feedOperand outer' waiting' token) := by
  unfold feedOperand
  split
  · exact .shift ⟨outers, waits, rfl⟩
  · exact .shift ⟨outers, waits, rfl⟩
  · exact .shift ⟨.cons ⟨rfl, waits⟩ outers, .nil, rfl⟩
  · exact .reject _

/-- What is alike in front of a token is alike behind it. -/
theorem feed_of_alike (same : operators.SameOrder among operators')
    {state state' : ExpressionState} (alike : state.Alike among operators operators' state')
    (admitted : ∀ char, token = some (.symbol char) → among char) :
    (feed operators 0 state token).Alike (Alike among operators operators')
      (feed operators' 0 state' token) := by
  obtain ⟨outer, waiting, focus⟩ := state
  obtain ⟨outer', waiting', focus'⟩ := state'
  obtain ⟨outers, waits, focuses⟩ := alike
  obtain rfl : focus = focus' := focuses
  cases focus with
  | operand => exact feedOperand_of_alike outers waits token
  | name name =>
    simp only [feed]
    split
    · exact .shift ⟨outers, waits, rfl⟩
    · exact feedBehind_of_alike same outers waits _ admitted
  | firstArgument function =>
    simp only [feed]
    split
    · exact .shift ⟨outers, waits, rfl⟩
    · have level : Level.Alike among operators operators' ⟨.call function [], waiting⟩
          ⟨.call function [], waiting'⟩ := ⟨rfl, waits⟩
      exact feedOperand_of_alike (.cons level outers) .nil token
  | value value => exact feedBehind_of_alike same outers waits _ admitted

end ExpressionState

/-- Every construct is read in lockstep. -/
theorem Construct.lockstep (same : operators.SameOrder among operators') (construct : Construct) :
    Parser.Lockstep (fun token => ∀ char, token = .symbol char → among char)
      (construct.parser operators) (construct.parser operators') := by
  have expressions : Parser.Lockstep (fun token => ∀ char, token = .symbol char → among char)
      (Parser.expression operators) (Parser.expression operators') := by
    refine ⟨ExpressionState.Alike among operators operators', ⟨.nil, .nil, rfl⟩, ?_⟩
    intro state state' alike token admitted
    exact ExpressionState.feed_of_alike same alike fun char found => admitted _ found char rfl
  have definitions : Parser.Lockstep (fun token => ∀ char, token = .symbol char → among char)
      (Parser.definition operators) (Parser.definition operators') :=
    ((Parser.Lockstep.refl _).andThen ((Parser.Lockstep.refl _).andThen expressions)).map _
  cases construct with
  | expression => exact expressions
  | prototype => exact .refl _
  | definition => exact definitions
  | declaration => exact .refl _
  | topLevel => exact expressions.map _
  | item =>
    exact (definitions.map _).branch ((Parser.Lockstep.refl _).branch (expressions.map _) _) _

end Expressions

/-! ## Requests -/

namespace Request

variable {among : Char -> Prop} {operators operators' : Operators}

/-- Requests to a stream are answered the same, and leave the same stream. -/
theorem serve_of_sameOrder (same : operators.SameOrder among operators')
    (requests : List Request) {stream : TokenStream}
    (symbols : ∀ char, .symbol char ∈ stream.tokens → among char) :
    serve operators requests stream = serve operators' requests stream := by
  induction requests generalizing stream with
  | nil => rfl
  | cons request others inductionHypothesis =>
    have once : request.answer operators stream = request.answer operators' stream ∧
        request.leave operators stream = request.leave operators' stream := by
      cases request with
      | token call => exact ⟨rfl, rfl⟩
      | read construct =>
        have admitted : ∀ token ∈ stream.tokens, ∀ char, token = .symbol char → among char :=
          fun token member char found => symbols char (found ▸ member)
        have runs := (construct.lockstep same).run_eq admitted
        rw [answer, answer, leave, leave, runs]
        exact ⟨rfl, rfl⟩
    have fewer : ∀ char, .symbol char ∈ (request.leave operators stream).tokens → among char :=
      fun char member => symbols char ((request.tokens_leave_suffix operators stream).mem member)
    rw [serve, serve, ← once.1, ← once.2, inductionHypothesis fewer]

/-- Under tables with the same operators in the same order among the symbols of a source, all
requests to its stream are answered the same. So a negative entry is as good as none, and an entry
for a letter, a digit, a blank or the comment sign changes nothing; and with entries of 32 bits, the
thresholds of a descent are natural and fit into 32 bits as well, whichever construct it reads. -/
theorem serve_depends_on_order_only :
    (∀ (operators operators' : Operators) (source : Source),
      operators.SameOrder (fun char => .symbol char ∈ source.tokens) operators' →
      ∀ requests, serve operators requests (.ofSource source) =
        serve operators' requests (.ofSource source)) ∧
    (∀ (operators operators' : Operators) (char : Char) (precedence : Int), precedence < 0 →
      operators.lookup char = some precedence → operators'.lookup char = none →
      (∀ other, other ≠ char → operators.lookup other = operators'.lookup other) →
      ∀ requests source, serve operators requests (.ofSource source) =
        serve operators' requests (.ofSource source)) ∧
    (∀ (operators : Operators) (char : Char) (precedence : Int),
      char.isAlphanum = true ∨ isBlank char = true ∨ char = '#' →
      ∀ requests source, serve (operators.insert char precedence) requests (.ofSource source) =
        serve operators requests (.ofSource source)) ∧
    ∀ operators : Operators,
      (∀ char precedence, operators.lookup char = some precedence → precedence ≤ 2147483647) →
      ∀ (construct : Construct) tokens, (construct.descent operators).outcome tokens =
          some ((construct.parser operators).parse tokens) ∧
        ∀ threshold ∈ (construct.descent operators).thresholds tokens,
          0 ≤ threshold ∧ threshold ≤ 2147483647 := by
  refine ⟨fun operators operators' source same requests => ?_, ?_, ?_, ?_⟩
  · exact serve_of_sameOrder same requests fun char member => member
  · intro operators operators' char precedence negative entry none others requests source
    have same : operators.SameOrder (fun _ => True) operators' := by
      refine Operators.sameOrder_of_lookup fun other _ => ?_
      by_cases here : other = char
      · subst here
        simp [Operators.IsBinary, entry, none, negative]
      · exact .inl (others other here)
    exact serve_of_sameOrder same requests fun _ _ => trivial
  · intro operators char precedence noSymbol requests source
    have same : (operators.insert char precedence).SameOrder
        (fun other => isSymbol other = true) operators := by
      refine Operators.sameOrder_of_lookup fun other symbol => .inl ?_
      rw [Operators.lookup_insert, if_neg]
      rintro rfl
      simp only [isSymbol, Bool.and_eq_true, Bool.not_eq_true', bne_iff_ne] at symbol
      rcases noSymbol with word | blank | comment
      · simp [word] at symbol
      · simp [blank] at symbol
      · exact symbol.2 comment
    refine serve_of_sameOrder same requests fun other member => ?_
    exact Source.isLexical_of_mem_tokens (TokenStream.tokens_ofSource source ▸ member)
  · intro operators within construct tokens
    have ends := construct.ends_descent ⟨by decide, within⟩ tokens
    exact ⟨ends.outcome_eq, ends.thresholds_within⟩

/-- A table whose operators are spread over the whole range answers as the standard one, and so do
entries that count for nothing. -/
theorem serve_depends_on_order_only_extreme_entries :
    let source : Source := [.data "a < b - c * d + e # f".toUTF8.data.toList]
    let spread := Operators.empty |>.insert '<' 0 |>.insert '+' 1 |>.insert '-' 1
      |>.insert '*' 2147483647
    let requests : List Request := [.read .expression, .token .current]
    serve .standard requests (.ofSource source) = serve spread requests (.ofSource source) ∧
      serve (spread.insert '/' (-7)) requests (.ofSource source) =
        serve spread requests (.ofSource source) ∧
      serve (spread.insert 'b' 3) requests (.ofSource source) =
        serve spread requests (.ofSource source) ∧
      ∀ construct : Construct, ∀ threshold ∈ (construct.descent spread).thresholds source.tokens,
        0 ≤ threshold ∧ threshold ≤ 2147483647 := by
  intro source spread requests
  have tokens : source.tokens = [.name "a", .symbol '<', .name "b", .symbol '-', .name "c",
      .symbol '*', .name "d", .symbol '+', .name "e"] := by decide +kernel
  have symbols (char : Char) (member : .symbol char ∈ source.tokens) :
      char = '<' ∨ char = '-' ∨ char = '*' ∨ char = '+' := by simpa [tokens] using member
  obtain ⟨ordered, negative, noSymbol, bounded⟩ := serve_depends_on_order_only
  refine ⟨ordered _ _ source ⟨fun char member => ?_, fun first second member memberSecond => ?_⟩
    requests, ?_, noSymbol spread 'b' 3 (by decide) requests source,
    fun construct => (bounded spread ?_ construct source.tokens).2⟩
  · rcases symbols char member with rfl | rfl | rfl | rfl <;> decide +kernel
  · rcases symbols first member with rfl | rfl | rfl | rfl <;>
      rcases symbols second memberSecond with rfl | rfl | rfl | rfl <;> decide +kernel
  · refine negative _ spread '/' (-7) (by decide) (by decide) (by decide) (fun other differs => ?_)
      requests source
    rw [Operators.lookup_insert, if_neg differs]
  · intro char precedence found
    have entries : ∀ entry ∈ spread.entries, entry.2 ≤ 2147483647 := by decide +kernel
    obtain ⟨front, rest, parts, _⟩ := List.lookup_eq_some_iff.mp found
    exact entries (char, precedence) (by rw [parts]; simp)

end Request

end ExprShell
