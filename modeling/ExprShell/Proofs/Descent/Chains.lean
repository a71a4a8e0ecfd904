import ExprShell.Proofs.Descent.Agreement
/-!
# Chains of operators

A chain is an operand with any number of links behind it, each an operator with its right operand.
The tree of a chain is given by splitting it at the last of its loosest operators, and the parts in
the same way. What is read behind an operand is this tree, for chains of any length and whatever the
order of the precedences in them.
-/

namespace ExprShell

/-- An operator and the operand behind it. -/
structure Link where
  operator : Char
  operand : Expr

namespace Link

/-- The precedence of the operator. -/
def precedence (operators : Operators) (link : Link) : Int :=
  operators.precedenceOf (some (.symbol link.operator))

end Link

/-- The tree of an operand with links behind it: the operand if there are no links, and otherwise a
split at the last of the loosest operators. -/
inductive Grouping (operators : Operators) : Expr -> List Link -> Expr -> Prop
  | operand (first : Expr) : Grouping operators first [] first
  | split {first left right : Expr} {before after : List Link} {loosest : Link}
      (earlier : ∀ link ∈ before, loosest.precedence operators ≤ link.precedence operators)
      (later : ∀ link ∈ after, loosest.precedence operators < link.precedence operators)
      (front : Grouping operators first before left)
      (back : Grouping operators loosest.operand after right) :
      Grouping operators first (before ++ loosest :: after) (.binary loosest.operator left right)

/-- That tokens are those of some links, each operand of which is read completely where it stands,
with some tokens behind them. -/
inductive Links (operators : Operators) : List Link -> List Token -> List Token -> Prop
  | done (rest : List Token) : Links operators [] rest rest
  | link {operator : Char} {value : Expr} {taken following rest : List Token}
      {others : List Link}
      (read : (Descent.operand operators).outcome (taken ++ following) = some (.ok value, following))
      (later : Links operators others following rest) :
      Links operators (⟨operator, value⟩ :: others) (.symbol operator :: (taken ++ following)) rest

section Trees

variable {operators : Operators}

/-- The operators of some links that still wait when all of them have been read, and the value in
front of which they wait. -/
def climb (operators : Operators) : List Pending -> Expr -> List Link -> List Pending × Expr
  | waiting, value, [] => (waiting, value)
  | waiting, value, link :: others =>
    let precedence := (link.precedence operators).toNat
    let reduced := Pending.reduce precedence waiting value
    climb operators (⟨reduced.2, link.operator, precedence⟩ :: reduced.1) link.operand others

/-- What an operand with links behind it is read as. -/
def grouped (operators : Operators) (first : Expr) (links : List Link) : Expr :=
  Pending.completeAll (climb operators [] first links).1 (climb operators [] first links).2

theorem climb_append (waiting : List Pending) (value : Expr) (links others : List Link) :
    climb operators waiting value (links ++ others) =
      climb operators (climb operators waiting value links).1
        (climb operators waiting value links).2 others := by
  induction links generalizing waiting value with
  | nil => rfl
  | cons link rest inductionHypothesis =>
    rw [List.cons_append, climb, inductionHypothesis]
    rfl

/-- An operator completes all waiting ones that bind as tightly. -/
theorem reduce_of_tighter {precedence : Nat} {waiting : List Pending} (value : Expr)
    (tighter : ∀ pending ∈ waiting, precedence ≤ pending.precedence) :
    Pending.reduce precedence waiting value = ([], Pending.completeAll waiting value) := by
  induction waiting generalizing value with
  | nil => rfl
  | cons pending rest inductionHypothesis =>
    rw [Pending.reduce, if_pos (tighter pending List.mem_cons_self),
      inductionHypothesis _ fun other member => tighter other (List.mem_cons_of_mem _ member)]
    rfl

theorem mem_of_mem_reduce {precedence : Nat} {waiting : List Pending} {value : Expr}
    {pending : Pending} (member : pending ∈ (Pending.reduce precedence waiting value).1) :
    pending ∈ waiting := by
  induction waiting generalizing value with
  | nil => exact member
  | cons first rest inductionHypothesis =>
    rw [Pending.reduce] at member
    split at member
    · exact List.mem_cons_of_mem _ (inductionHypothesis member)
    · exact member

/-- An operator that waits behind links waited before or is one of them. -/
theorem of_mem_climb {bound : Nat} {waiting : List Pending} {value : Expr} {links : List Link}
    (before : ∀ pending ∈ waiting, bound ≤ pending.precedence)
    (inLinks : ∀ link ∈ links, (bound : Int) ≤ link.precedence operators) :
    ∀ pending ∈ (climb operators waiting value links).1, bound ≤ pending.precedence := by
  induction links generalizing waiting value with
  | nil => exact before
  | cons link rest inductionHypothesis =>
    refine inductionHypothesis (fun pending member => ?_)
      fun other listed => inLinks other (List.mem_cons_of_mem _ listed)
    rcases List.mem_cons.mp member with rfl | waited
    · have reached := inLinks link List.mem_cons_self
      simp only
      omega
    · exact before pending (mem_of_mem_reduce waited)

/-- An operator that binds looser keeps waiting below all others. -/
theorem reduce_append_looser {precedence : Nat} {loosest : Pending}
    (looser : loosest.precedence < precedence) (waiting : List Pending) (value : Expr) :
    Pending.reduce precedence (waiting ++ [loosest]) value =
      ((Pending.reduce precedence waiting value).1 ++ [loosest],
        (Pending.reduce precedence waiting value).2) := by
  induction waiting generalizing value with
  | nil => simp [Pending.reduce, Nat.not_le.mpr looser]
  | cons pending rest inductionHypothesis =>
    rw [List.cons_append, Pending.reduce, Pending.reduce]
    split
    · exact inductionHypothesis _
    · rfl

theorem climb_append_looser {loosest : Pending} {links : List Link}
    (looser : ∀ link ∈ links, (loosest.precedence : Int) < link.precedence operators)
    (waiting : List Pending) (value : Expr) :
    climb operators (waiting ++ [loosest]) value links =
      ((climb operators waiting value links).1 ++ [loosest],
        (climb operators waiting value links).2) := by
  induction links generalizing waiting value with
  | nil => rfl
  | cons link rest inductionHypothesis =>
    have below := looser link List.mem_cons_self
    rw [climb, climb, reduce_append_looser (by omega)]
    exact inductionHypothesis (fun other member => looser other (List.mem_cons_of_mem _ member))
      (⟨(Pending.reduce _ waiting value).2, link.operator, _⟩ ::
        (Pending.reduce _ waiting value).1) link.operand

theorem completeAll_append (waiting : List Pending) (loosest : Pending) (value : Expr) :
    Pending.completeAll (waiting ++ [loosest]) value =
      loosest.complete (Pending.completeAll waiting value) := by
  rw [Pending.completeAll, List.foldl_append]
  rfl

/-- Reading splits a chain at the last of its loosest operators. -/
theorem grouped_split {first : Expr} {before after : List Link} {loosest : Link}
    (natural : 0 ≤ loosest.precedence operators)
    (earlier : ∀ link ∈ before, loosest.precedence operators ≤ link.precedence operators)
    (later : ∀ link ∈ after, loosest.precedence operators < link.precedence operators) :
    grouped operators first (before ++ loosest :: after) =
      .binary loosest.operator (grouped operators first before)
        (grouped operators loosest.operand after) := by
  have value : ((loosest.precedence operators).toNat : Int) = loosest.precedence operators :=
    Int.toNat_of_nonneg natural
  have waitsTighter : ∀ pending ∈ (climb operators [] first before).1,
      (loosest.precedence operators).toNat ≤ pending.precedence :=
    of_mem_climb (by simp) (by rwa [value])
  have below : ∀ link ∈ after, (((⟨grouped operators first before, loosest.operator,
      (loosest.precedence operators).toNat⟩ : Pending).precedence : Nat) : Int) <
        link.precedence operators := by
    simpa only [value] using later
  have behind := climb_append_looser below [] loosest.operand
  rw [List.nil_append] at behind
  have read : climb operators [] first (before ++ loosest :: after) =
      climb operators [⟨grouped operators first before, loosest.operator,
        (loosest.precedence operators).toNat⟩] loosest.operand after := by
    rw [climb_append, climb, reduce_of_tighter _ waitsTighter]
    rfl
  rw [grouped, read, behind, completeAll_append]
  rfl

/-- Some operator of a chain is the last of the loosest. -/
theorem exists_last_loosest {links : List Link} (nonempty : links ≠ []) :
    ∃ before loosest after, links = before ++ loosest :: after ∧
      (∀ link ∈ before, loosest.precedence operators ≤ link.precedence operators) ∧
      ∀ link ∈ after, loosest.precedence operators < link.precedence operators := by
  induction links with
  | nil => exact absurd rfl nonempty
  | cons link rest inductionHypothesis =>
    cases rest with
    | nil => exact ⟨[], link, [], rfl, by simp, by simp⟩
    | cons next others =>
      obtain ⟨before, loosest, after, parts, earlier, later⟩ :=
        inductionHypothesis (List.cons_ne_nil _ _)
      by_cases looser : loosest.precedence operators ≤ link.precedence operators
      · refine ⟨link :: before, loosest, after, by rw [parts]; rfl, ?_, later⟩
        rintro other (_ | ⟨_, member⟩)
        · exact looser
        · exact earlier other member
      · refine ⟨[], link, next :: others, rfl, by simp, fun other member => ?_⟩
        rw [parts] at member
        rcases List.mem_append.mp member with inFront | inRest
        · have bound := earlier other inFront
          omega
        · rcases List.mem_cons.mp inRest with rfl | behind
          · omega
          · have bound := later other behind
            omega

/-- What a chain is read as is a tree of the chain. -/
theorem grouping_grouped (first : Expr) (links : List Link)
    (natural : ∀ link ∈ links, 0 ≤ link.precedence operators) :
    Grouping operators first links (grouped operators first links) := by
  by_cases empty : links = []
  · subst empty
    exact .operand first
  · obtain ⟨before, loosest, after, parts, earlier, later⟩ :=
      @exists_last_loosest operators links empty
    have frontShorter : before.length < links.length := by
      rw [parts, List.length_append, List.length_cons]
      omega
    have backShorter : after.length < links.length := by
      rw [parts, List.length_append, List.length_cons]
      omega
    have inChain : ∀ link ∈ before ++ loosest :: after, 0 ≤ link.precedence operators :=
      parts ▸ natural
    rw [parts, grouped_split (inChain _ (by simp)) earlier later]
    exact .split earlier later
      (grouping_grouped first before fun link member => inChain link (by simp [member]))
      (grouping_grouped loosest.operand after fun link member => inChain link (by simp [member]))
termination_by links.length

/-- What a chain is read as is its only tree. -/
theorem grouping_iff {first expr : Expr} {links : List Link}
    (natural : ∀ link ∈ links, 0 ≤ link.precedence operators) :
    Grouping operators first links expr ↔ expr = grouped operators first links := by
  constructor
  · intro grouping
    induction grouping with
    | operand first => rfl
    | split earlier later _ _ leftHypothesis rightHypothesis =>
      rw [leftHypothesis fun link member => natural link (by simp [member]),
        rightHypothesis fun link member => natural link (by simp [member]),
        grouped_split (natural _ (by simp)) earlier later]
  · rintro rfl
    exact grouping_grouped first links natural

end Trees

/-! ## Reading chains -/

/-- A symbol whose precedence is natural is an operator of that precedence. -/
theorem Operators.precedence?_of_natural {operators : Operators} {char : Char}
    (natural : 0 ≤ operators.precedenceOf (some (.symbol char))) :
    operators.precedence? char = some (operators.precedenceOf (some (.symbol char))).toNat := by
  cases found : operators.binary? (some (.symbol char)) with
  | none =>
    have negative := Operators.binary?_eq_none_iff.mp found
    omega
  | some operator =>
    obtain ⟨same, registered⟩ := Operators.eq_symbol_of_binary? found
    obtain rfl := Token.symbol.inj (Option.some.inj same)
    rw [Operators.precedenceOf_of_binary? found, registered, Int.toNat_natCast]

/-- That a parser and a descent read the same expression from a stream and leave the same tokens. -/
structure Reads (parser : Parser Expr) (descent : Descent Expr) (stream : TokenStream)
    (expr : Expr) (rest : List Token) : Prop where
  result : (parser.run stream).1 = .ok expr
  leaves : (parser.run stream).2.tokens = rest
  descends : descent.outcome stream.tokens = some (.ok expr, rest)

section Reading

open ExpressionState

variable {operators : Operators} {least : Nat} {first : Expr} {links : List Link}
  {tokens rest : List Token}

theorem reads_of_ends {parser : Parser Expr} {descent : Descent Expr} {stream : TokenStream}
    {limit : Int} (ends : Descent.Ends limit descent stream.tokens
      (parser.parse stream.tokens).1 (parser.parse stream.tokens).2)
    (parsed : parser.parse stream.tokens = (.ok first, rest)) :
    Reads parser descent stream first rest := by
  obtain ⟨result, leaves⟩ :=
    Prod.mk.inj ((parser.runFrom_eq_parseFrom parser.start stream).trans parsed)
  rw [parsed] at ends
  exact ⟨result, leaves, ends.outcome_eq⟩

/-- The parser keeps the operators of a chain waiting as they are in the climb. -/
theorem parse_links (chain : Links operators links tokens rest)
    (reached : ∀ link ∈ links, (least : Int) ≤ link.precedence operators)
    (waiting : List Pending) (value : Expr) :
    parse operators least (behind [] waiting value) tokens =
      parse operators least (behind [] (climb operators waiting value links).1
        (climb operators waiting value links).2) rest := by
  induction chain generalizing waiting value with
  | done rest => rfl
  | @link operator _ _ _ _ _ read _ inductionHypothesis =>
    have enough : (least : Int) ≤ operators.precedenceOf (some (.symbol operator)) :=
      reached _ List.mem_cons_self
    have registered := Operators.precedence?_of_natural (Int.le_trans (by omega) enough)
    rw [parse_operator registered (by simp only [leastPrecedence]; omega),
      Descent.parse_of_operand read]
    exact inductionHypothesis
      (fun other member => reached other (List.mem_cons_of_mem _ member)) _ _

/-- Behind an operand, a chain is read up to the first token that does not reach the threshold. -/
theorem parse_chain (chain : Links operators links tokens rest)
    (reached : ∀ link ∈ links, (least : Int) ≤ link.precedence operators)
    (stops : operators.precedenceOf rest.head? < least) :
    parse operators least (behind [] [] first) tokens =
      (.ok (grouped operators first links), rest) := by
  rw [parse_links chain reached, parse_end_of_below (Operators.lt_of_precedenceOf_lt stops)]
  rfl

/-- What follows an operand up to an operator below the threshold is read as the only tree of the
chain, and so is a whole expression, whose threshold every operator reaches. -/
theorem operators_group_at_last_loosest (chain : Links operators links tokens rest) :
    (∀ (least : Nat) (first : Expr) (stream : TokenStream), stream.tokens = tokens →
      (∀ link ∈ links, (least : Int) ≤ link.precedence operators) →
      operators.precedenceOf rest.head? < least →
      ∃ tree, (∀ expr, Grouping operators first links expr ↔ expr = tree) ∧
        Reads (Parser.operatorTail operators least first)
          (Descent.operatorTail operators least first) stream tree rest) ∧
    ∀ (taken : List Token) (first : Expr) (stream : TokenStream),
      stream.tokens = taken ++ tokens →
      (Descent.operand operators).outcome (taken ++ tokens) = some (.ok first, tokens) →
      (∀ link ∈ links, 0 ≤ link.precedence operators) → operators.binary? rest.head? = none →
      ∃ tree, (∀ expr, Grouping operators first links expr ↔ expr = tree) ∧
        Reads (Parser.expression operators) (Descent.expression operators) stream tree rest := by
  obtain ⟨limit, bounded⟩ := operators.exists_bounded
  constructor
  · rintro least first stream rfl reached stops
    have natural : ∀ link ∈ links, 0 ≤ link.precedence operators :=
      fun link member => Int.le_trans (by omega) (reached link member)
    refine ⟨grouped operators first links, fun expr => grouping_iff natural, ?_⟩
    have ends := Descent.ends_operatorTail_parse (bounded.mono (Int.le_max_left limit least))
      (Int.le_max_right limit least) first stream.tokens
    exact reads_of_ends ends ((parse_operatorTail operators least first _).trans
      (parse_chain chain reached stops))
  · intro taken first stream coming read natural stops
    refine ⟨grouped operators first links, fun expr => grouping_iff natural, ?_⟩
    refine reads_of_ends (Descent.ends_expression bounded stream.tokens) ?_
    rw [coming, parse_start, Descent.parse_of_operand read]
    exact parse_chain chain natural (Operators.binary?_eq_none_iff.mp stops)

/-- Behind `x` with threshold 20 and behind nothing, `- y * f ( ) + z` is split at the sum, and then
at the difference. -/
theorem operators_group_at_last_loosest_mixed_chain :
    Reads (Parser.operatorTail .standard 20 (.reference "x"))
        (Descent.operatorTail .standard 20 (.reference "x"))
        ⟨[], [.symbol '-', .name "y", .symbol '*', .name "f", opening, closing, .symbol '+',
          .name "z", .symbol '<'], some .endOfInput, true, 0⟩
        (.binary '+' (.binary '-' (.reference "x") (.binary '*' (.reference "y") (.call "f" [])))
          (.reference "z")) [.symbol '<'] ∧
      Reads (Parser.expression .standard) (Descent.expression .standard)
        ⟨[], [.name "x", .symbol '-', .name "y", .symbol '*', .name "f", opening, closing,
          .symbol '+', .name "z", .symbol ';'], some .endOfInput, true, 0⟩
        (.binary '+' (.binary '-' (.reference "x") (.binary '*' (.reference "y") (.call "f" [])))
          (.reference "z")) [.symbol ';'] := by
  have reference (name : String) (following : List Token)
      (uncalled : following.head? ≠ some opening) :
      (Descent.operand .standard).outcome ([.name name] ++ following) =
        some (.ok (.reference name), following) := by
    have ends : Descent.Ends 0 (Descent.operand .standard) (.name name :: following)
        (.ok (.reference name)) following := Descent.ends_operand_reference uncalled
    exact ends.outcome_eq
  have call (following : List Token) :
      (Descent.operand .standard).outcome ([.name "f", opening, closing] ++ following) =
        some (.ok (.call "f" []), following) := by
    have ends : Descent.Ends 0 (Descent.operand .standard)
        (.name "f" :: opening :: closing :: following) (.ok (.call "f" [])) following :=
      Descent.ends_operand_emptyCall "f"
    exact ends.outcome_eq
  have coming (buffer : List Token) :
      (⟨[], buffer, some .endOfInput, true, 0⟩ : TokenStream).tokens = buffer :=
    List.append_nil buffer
  have chain (rest : List Token) (uncalled : rest.head? ≠ some opening) :
      Links .standard [⟨'-', .reference "y"⟩, ⟨'*', .call "f" []⟩, ⟨'+', .reference "z"⟩]
        (.symbol '-' :: ([.name "y"] ++ .symbol '*' :: ([.name "f", opening, closing] ++
          .symbol '+' :: ([.name "z"] ++ rest)))) rest :=
    .link (reference "y" _ (by simp [opening]))
      (.link (call _) (.link (reference "z" _ uncalled) (.done rest)))
  have product : Grouping .standard (.reference "y") ([] ++ ⟨'*', .call "f" []⟩ :: [])
      (.binary '*' (.reference "y") (.call "f" [])) :=
    .split (by simp) (by simp) (.operand _) (.operand _)
  have difference : Grouping .standard (.reference "x")
      ([] ++ ⟨'-', .reference "y"⟩ :: [⟨'*', .call "f" []⟩])
      (.binary '-' (.reference "x") (.binary '*' (.reference "y") (.call "f" []))) :=
    .split (by simp) (by decide) (.operand _) product
  have sum : Grouping .standard (.reference "x")
      ([⟨'-', .reference "y"⟩, ⟨'*', .call "f" []⟩] ++ ⟨'+', .reference "z"⟩ :: [])
      (.binary '+' (.binary '-' (.reference "x") (.binary '*' (.reference "y") (.call "f" [])))
        (.reference "z")) := .split (by decide) (by simp) difference (.operand _)
  constructor
  · obtain ⟨expr, unique, reads⟩ := (operators_group_at_last_loosest (chain [.symbol '<']
      (by decide))).1 20 (.reference "x") _ (coming _)
      (by decide) (by decide)
    rw [(unique _).mp sum]
    exact reads
  · obtain ⟨expr, unique, reads⟩ := (operators_group_at_last_loosest (chain [.symbol ';']
      (by decide))).2 [.name "x"] (.reference "x") _ (coming _)
      (reference "x" _ (by decide)) (by decide) (by decide)
    rw [(unique _).mp sum]
    exact reads

end Reading

end ExprShell
