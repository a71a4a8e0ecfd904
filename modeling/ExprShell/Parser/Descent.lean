import ExprShell.Parser.Item
/-!
# Reading by recursive descent

The same expressions as a family of functions that call each other: an operand, the operators behind
an operand, an expression, the arguments of a call. Behind an operand only operators are taken that
reach a threshold. Where an operator binds tighter than the one in front of its left operand, it is
read first, with a threshold one above the precedence of that one. Prototypes and items are read by
functions of the same kind.

A descent notes every threshold, and the current token whenever it advances. It gives no outcome if
it does not come to an end.

Each of the functions that call each other binds the functions it calls before anything else. A call
by the name of a function would keep its position in the text within the fixed point.
-/

namespace ExprShell

/-- The precedence of a token as a binary operator: the entry of a symbol, and `-1` for everything
without one. -/
def Operators.precedenceOf (operators : Operators) : Option Token -> Int
  | some (.symbol char) => (operators.lookup char).getD (-1)
  | _ => -1

namespace Operators

variable {operators : Operators} {token : Option Token} {char : Char} {precedence : Nat}

theorem precedenceOf_of_precedence? (registered : operators.precedence? char = some precedence) :
    operators.precedenceOf (some (.symbol char)) = precedence := by
  unfold precedence? at registered
  split at registered
  · rename_i entry found
    split at registered
    · rename_i natural
      obtain rfl := Option.some.inj registered
      simp [precedenceOf, found, Int.toNat_of_nonneg natural]
    · simp at registered
  · simp at registered

theorem precedenceOf_of_binary? (operator : operators.binary? token = some (char, precedence)) :
    operators.precedenceOf token = precedence := by
  match token with
  | some (.symbol other) =>
    simp only [binary?, Option.map_eq_some_iff, Prod.mk.injEq] at operator
    obtain ⟨_, registered, rfl, rfl⟩ := operator
    exact precedenceOf_of_precedence? registered
  | none | some .define | some .declare | some (.name _) | some (.number _) =>
    simp [binary?] at operator

/-- Exactly the tokens with a negative precedence are no operators. -/
theorem binary?_eq_none_iff :
    operators.binary? token = none ↔ operators.precedenceOf token < 0 := by
  constructor
  · intro noOperator
    match token with
    | some (.symbol other) =>
      simp only [binary?, Option.map_eq_none_iff, precedence?] at noOperator
      cases found : operators.lookup other with
      | none => simp [precedenceOf, found]
      | some entry => simpa [precedenceOf, found] using noOperator
    | none | some .define | some .declare | some (.name _) | some (.number _) =>
      simp [precedenceOf]
  · intro negative
    cases found : operators.binary? token with
    | none => rfl
    | some operator =>
      have natural := precedenceOf_of_binary? found
      omega

end Operators

/-- The tokens in front of a descent, and, latest first, the thresholds it has used and the current
tokens past which it has advanced. -/
structure DescentState where
  tokens : List Token
  thresholds : List Int
  passed : List (Option Token)

/-- A reading function: it takes tokens and gives a result or an error, or does not end. -/
abbrev Descent := ExceptT SyntaxError (StateT DescentState Option)

namespace Descent

/-- The current token; none at the end. -/
def current : Descent (Option Token) := do return (← get).tokens.head?

/-- Goes one token on. At the end this goes nowhere. -/
def advance : Descent Unit := modify fun state =>
  { state with tokens := state.tokens.tail, passed := state.tokens.head? :: state.passed }

/-- Notes that a threshold is used. -/
def note (threshold : Int) : Descent Unit :=
  modify fun state => { state with thresholds := threshold :: state.thresholds }

mutual

/-- Reads a number, a variable, a call, or an expression in brackets. -/
def operand (operators : Operators) : Descent Expr := do
  let arguments : Operators -> Descent (List Expr) := by apply arguments
  let expression : Operators -> Descent Expr := by apply expression
  match ← current with
  | some (.number value) =>
    advance
    return .number value
  | some (.name name) =>
    advance
    if (← current) = some ExpressionState.opening then
      advance
      if (← current) = some ExpressionState.closing then
        advance
        return .call name []
      else return .call name (← arguments operators)
    else return .reference name
  | some (.symbol '(') =>
    advance
    let inner ← expression operators
    if (← current) = some ExpressionState.closing then
      advance
      return inner
    else throw (.expected .closingBracket (← current))
  | token => throw (.unknownToken token)
partial_fixpoint

/-- Reads the arguments of a call from the first one to the closing bracket. -/
def arguments (operators : Operators) : Descent (List Expr) := do
  let arguments : Operators -> Descent (List Expr) := by apply arguments
  let expression : Operators -> Descent Expr := by apply expression
  let first ← expression operators
  if (← current) = some ExpressionState.closing then
    advance
    return [first]
  else if (← current) = some ExpressionState.separator then
    advance
    return first :: (← arguments operators)
  else throw (.expected .argumentEnd (← current))
partial_fixpoint

/-- Reads operators that reach a threshold and their right operands, and joins them to what stands
in front of them. -/
def joined (operators : Operators) (threshold : Int) (left : Expr) : Descent Expr := do
  let operand : Operators -> Descent Expr := by apply operand
  let joined : Operators -> Int -> Expr -> Descent Expr := by apply joined
  let operatorTail : Operators -> Int -> Expr -> Descent Expr := by apply operatorTail
  let precedence := operators.precedenceOf (← current)
  if precedence < threshold then return left
  else match ← current with
    | some (.symbol operator) =>
      advance
      let first ← operand operators
      if precedence < operators.precedenceOf (← current) then
        let right ← operatorTail operators (precedence + 1) first
        joined operators threshold (.binary operator left right)
      else joined operators threshold (.binary operator left first)
    | _ => return left
partial_fixpoint

/-- Reads what may follow an operand: operators that reach a threshold. -/
def operatorTail (operators : Operators) (threshold : Int) (left : Expr) : Descent Expr := do
  let joined : Operators -> Int -> Expr -> Descent Expr := by apply joined
  note threshold
  joined operators threshold left
partial_fixpoint

/-- Reads an expression. Every operator reaches its threshold. -/
def expression (operators : Operators) : Descent Expr := do
  let operand : Operators -> Descent Expr := by apply operand
  let operatorTail : Operators -> Int -> Expr -> Descent Expr := by apply operatorTail
  operatorTail operators 0 (← operand operators)
partial_fixpoint

end

/-- Reads the parameters of a prototype, up to the first token that is none. -/
def parameters : Descent (List String) := do
  let parameters : Descent (List String) := by apply parameters
  advance
  match ← current with
  | some (.name name) => return name :: (← parameters)
  | _ => return []
partial_fixpoint

/-- Reads a prototype. -/
def prototype : Descent Prototype := do
  match ← current with
  | some (.name name) =>
    advance
    if (← current) = some ExpressionState.opening then
      let names ← parameters
      if (← current) = some ExpressionState.closing then
        advance
        return ⟨name, names⟩
      else throw (.expected .closingOfParameters (← current))
    else throw (.expected .openingOfParameters (← current))
  | token => throw (.expected .functionName token)

/-- Reads a definition. -/
def definition (operators : Operators) : Descent Definition := do
  if (← current) = some .define then
    advance
    let prototype ← prototype
    return ⟨prototype, ← expression operators⟩
  else throw (.expected .defineWord (← current))

/-- Reads a declaration. -/
def declaration : Descent Prototype := do
  if (← current) = some .declare then
    advance
    prototype
  else throw (.expected .declareWord (← current))

/-- Reads a top-level expression. -/
def topLevel (operators : Operators) : Descent Definition := do
  return .anonymous (← expression operators)

/-- Reads an item, which its first token tells apart. -/
def item (operators : Operators) : Descent Item := do
  match ← current with
  | some .define => return .definition (← definition operators)
  | some .declare => return .declaration (← declaration)
  | _ => return .expression (← expression operators)

variable {Result : Type}

/-- What a descent over tokens gives, and the tokens in the end with what was noted. -/
def on (descent : Descent Result) (state : DescentState) :
    Option (Except SyntaxError Result × DescentState) := descent.run.run state

/-- What a descent over tokens gives and the tokens that it leaves, if it ends. -/
def outcome (descent : Descent Result) (tokens : List Token) :
    Option (Except SyntaxError Result × List Token) :=
  (descent.on ⟨tokens, [], []⟩).map fun final => (final.1, final.2.tokens)

/-- The thresholds that a descent over tokens uses, latest first. -/
def thresholds (descent : Descent Result) (tokens : List Token) : List Int :=
  ((descent.on ⟨tokens, [], []⟩).map fun final => final.2.thresholds).getD []

/-- The current tokens past which a descent over tokens advances, in order; none stands for an
advance at the end. -/
def passed (descent : Descent Result) (tokens : List Token) : List (Option Token) :=
  ((descent.on ⟨tokens, [], []⟩).map fun final => final.2.passed.reverse).getD []

end Descent

end ExprShell
