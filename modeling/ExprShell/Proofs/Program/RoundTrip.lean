import ExprShell.Proofs.Parser.Items
import ExprShell.Proofs.Program.Reading
import ExprShell.Proofs.Source.Delivery
import ExprShell.Proofs.Token.Adjacency
/-!
# Printed programs are read back

A program is printable when all its names, numbers and operators can be spelled and its operators
are registered. The text of a printable program is read as just this program, from a source that
delivers the text in any chunks.
-/

namespace ExprShell

mutual

/-- Whether all names, numbers and operators of an expression can be spelled. -/
def Expr.isSpellable : Expr -> Bool
  | .number value => value.isFinite && !value.negative
  | .reference name => isName name
  | .binary operator left right => isSymbol operator && left.isSpellable && right.isSpellable
  | .call function arguments => isName function && Expr.areSpellable arguments

/-- Whether all names, numbers and operators of some expressions can be spelled. -/
def Expr.areSpellable : List Expr -> Bool
  | [] => true
  | expr :: rest => expr.isSpellable && Expr.areSpellable rest

end

/-- Whether the names in a prototype can be spelled. -/
def Prototype.isSpellable (prototype : Prototype) : Bool :=
  isName prototype.name && prototype.parameters.all isName

/-- Whether an expression can be printed: it can be spelled, and its operators are registered. -/
def Expr.isPrintable (operators : Operators) (expr : Expr) : Bool :=
  expr.isSpellable && expr.isRegistered operators

/-- Whether an item can be printed. -/
def Item.isPrintable (operators : Operators) : Item -> Bool
  | declaration prototype => prototype.isSpellable
  | definition function => function.prototype.isSpellable && function.body.isPrintable operators
  | expression body => body.isPrintable operators

variable {operators : Operators}

/-! ## Printable programs can be spelled -/

/-- Brackets around tokens can be spelled. -/
theorem isSpellable_bracketed {tokens : List Token}
    (spellable : ∀ token ∈ tokens, token.isSpellable = true) :
    ∀ token ∈ bracketed tokens, token.isSpellable = true := by
  intro token member
  simp only [bracketed, List.cons_append, List.mem_cons, List.mem_append, List.not_mem_nil,
    or_false] at member
  rcases member with rfl | inside | rfl
  · decide
  · exact spellable token inside
  · decide

mutual

/-- The tokens of an expression can be spelled if its parts can. -/
theorem Expr.isSpellable_tokens (expr : Expr) (spellable : expr.isSpellable = true) :
    ∀ token ∈ expr.tokens operators, token.isSpellable = true := by
  match expr with
  | .number value => simpa [Expr.tokens, Token.isSpellable, Expr.isSpellable] using spellable
  | .reference name => simpa [Expr.tokens, Token.isSpellable, Expr.isSpellable] using spellable
  | .binary operator left right =>
    simp only [Expr.isSpellable, Bool.and_eq_true] at spellable
    obtain ⟨⟨symbol, leftSpellable⟩, rightSpellable⟩ := spellable
    have leftTokens := Expr.isSpellable_tokens left leftSpellable
    have rightTokens := Expr.isSpellable_tokens right rightSpellable
    intro token member
    rw [Expr.tokens, List.mem_append, List.mem_cons] at member
    rcases member with inLeft | rfl | inRight
    · split at inLeft
      · exact isSpellable_bracketed leftTokens token inLeft
      · exact leftTokens token inLeft
    · exact symbol
    · split at inRight
      · exact isSpellable_bracketed rightTokens token inRight
      · exact rightTokens token inRight
  | .call function arguments =>
    simp only [Expr.isSpellable, Bool.and_eq_true] at spellable
    intro token member
    rw [Expr.tokens, List.mem_cons] at member
    rcases member with rfl | inside
    · exact spellable.1
    · refine isSpellable_bracketed ?_ token inside
      match arguments with
      | [] => simp [Expr.argumentTokens]
      | first :: others =>
        simp only [Expr.areSpellable, Bool.and_eq_true] at spellable
        intro token member
        rcases List.mem_append.mp member with inFirst | inOthers
        · exact Expr.isSpellable_tokens first spellable.2.1 token inFirst
        · exact Expr.isSpellable_laterTokens others spellable.2.2 token inOthers

theorem Expr.isSpellable_laterTokens (exprs : List Expr)
    (spellable : Expr.areSpellable exprs = true) :
    ∀ token ∈ Expr.laterTokens operators exprs, token.isSpellable = true := by
  match exprs with
  | [] => simp [Expr.laterTokens]
  | next :: others =>
    simp only [Expr.areSpellable, Bool.and_eq_true] at spellable
    intro token member
    rw [Expr.laterTokens, List.mem_cons, List.mem_append] at member
    rcases member with rfl | inNext | inOthers
    · decide
    · exact Expr.isSpellable_tokens next spellable.1 token inNext
    · exact Expr.isSpellable_laterTokens others spellable.2 token inOthers

end

theorem Prototype.isSpellable_tokens (prototype : Prototype)
    (spellable : prototype.isSpellable = true) :
    ∀ token ∈ prototype.tokens, token.isSpellable = true := by
  simp only [Prototype.isSpellable, Bool.and_eq_true, List.all_eq_true] at spellable
  intro token member
  rcases List.mem_cons.mp member with rfl | inside
  · exact spellable.1
  · refine isSpellable_bracketed (fun token listed => ?_) token inside
    obtain ⟨name, parameter, rfl⟩ := List.mem_map.mp listed
    exact spellable.2 name parameter

theorem Item.isSpellable_tokens (item : Item) (printable : item.isPrintable operators = true) :
    ∀ token ∈ item.tokens operators, token.isSpellable = true := by
  intro token member
  cases item with
  | declaration prototype =>
    rcases List.mem_cons.mp member with rfl | inside
    · rfl
    · exact prototype.isSpellable_tokens printable token inside
  | definition function =>
    simp only [Item.isPrintable, Expr.isPrintable, Bool.and_eq_true] at printable
    simp only [Item.tokens, List.cons_append, List.mem_cons, List.mem_append] at member
    rcases member with rfl | inPrototype | inBody
    · rfl
    · exact function.prototype.isSpellable_tokens printable.1 token inPrototype
    · exact function.body.isSpellable_tokens printable.2.1 token inBody
  | expression body =>
    simp only [Item.isPrintable, Expr.isPrintable, Bool.and_eq_true] at printable
    exact body.isSpellable_tokens printable.1 token member

/-- Every token of a printable program can be spelled. -/
theorem isSpellable_programTokens {items : List Item}
    (printable : ∀ item ∈ items, item.isPrintable operators = true) :
    ∀ token ∈ programTokens operators items, token.isSpellable = true := by
  intro token member
  obtain ⟨item, listed, inside⟩ := List.mem_flatMap.mp member
  rcases List.mem_append.mp inside with inItem | separator
  · exact item.isSpellable_tokens (printable item listed) token inItem
  · obtain rfl := List.mem_singleton.mp separator
    decide

/-! ## Printed items are read back -/

/-- A printed expression is read up to a token that goes on with no expression. -/
theorem parse_expression_tokens (leaves : operators.LeavesSigns) {expr : Expr}
    (registered : expr.isRegistered operators = true) {rest : List Token}
    (uncalled : rest.head? ≠ some ExpressionState.opening)
    (noOperator : operators.binary? rest.head? = none) :
    (Parser.expression operators).parse (expr.tokens operators ++ rest) = (.ok expr, rest) := by
  have alone : expr.StartsBehind operators [] := by simp [Expr.StartsBehind]
  have ends : expr.EndsBefore operators rest := ⟨uncalled, by simp [noOperator]⟩
  rw [ExpressionState.parse_start,
    ExpressionState.readsBack_tokens leaves expr registered [] [] rest alone ends,
    ExpressionState.parse_end noOperator]
  rfl

/-- A printed item is read up to a token that goes on with no expression. -/
theorem parse_item_tokens (leaves : operators.LeavesSigns) {item : Item}
    (printable : item.isPrintable operators = true) {rest : List Token}
    (uncalled : rest.head? ≠ some ExpressionState.opening)
    (noOperator : operators.binary? rest.head? = none) :
    (Parser.item operators).parse (item.tokens operators ++ rest) = (.ok item, rest) := by
  cases item with
  | declaration prototype =>
    rw [Item.tokens, List.cons_append, Parser.parse_item_declare, Parser.parse_prototype]
    rfl
  | definition function =>
    simp only [Item.isPrintable, Expr.isPrintable, Bool.and_eq_true] at printable
    rw [Item.tokens, List.cons_append, List.cons_append, List.append_assoc,
      Parser.parse_item_define, Parser.parse_prototype]
    simp only [parse_expression_tokens leaves printable.2.2 uncalled noOperator]
    rfl
  | expression body =>
    simp only [Item.isPrintable, Expr.isPrintable, Bool.and_eq_true] at printable
    rw [Item.tokens, Parser.parse_item_expression
      (ExpressionState.head?_tokens_ne (by decide) body rest)
      (ExpressionState.head?_tokens_ne (by decide) body rest),
      parse_expression_tokens leaves printable.2 uncalled noOperator]
    rfl

/-- The first token of an item is a keyword or starts an operand. -/
theorem head?_item_tokens_ne_itemSeparator (item : Item) (rest : List Token) :
    (item.tokens operators ++ rest).head? ≠ some .itemSeparator := by
  cases item with
  | declaration prototype => simp [Item.tokens, Token.itemSeparator]
  | definition function => simp [Item.tokens, Token.itemSeparator]
  | expression body => exact ExpressionState.head?_tokens_ne (by decide) body rest

/-! ## Reading item after item -/

section Loop

variable {stream : TokenStream}

theorem readItems_of_end (exhausted : stream.tokens = []) :
    (readItems operators stream).1 = [] := by
  rw [readItems]
  split
  · rfl
  · rename_i token current
    simp [exhausted] at current

/-- A separator in front of an item is skipped. -/
theorem readItems_of_separator (separated : stream.tokens.head? = some .itemSeparator) :
    readItems operators stream = readItems operators stream.look.advance := by
  rw [readItems]
  split
  · rename_i current
    simp [separated] at current
  · rename_i token current
    rw [TokenStream.head?_look, separated] at current
    rw [if_pos (Option.some.inj current).symm]

/-- An item that can be read is the first, and reading goes on behind it. -/
theorem readItems_of_ok (unseparated : stream.tokens.head? ≠ some .itemSeparator) {item : Item}
    (read : ((Parser.item operators).run stream).1 = .ok item) :
    (readItems operators stream).1 =
      .ok item :: (readItems operators ((Parser.item operators).run stream).2).1 := by
  rw [readItems]
  split
  · rename_i current
    rw [TokenStream.head?_look, List.head?_eq_none_iff] at current
    have shorter := (Parser.productive_item operators).run_length_lt read
    simp [current] at shorter
  · rename_i token current
    rw [TokenStream.head?_look] at current
    rw [if_neg (by rintro rfl; exact unseparated current)]
    split
    · rename_i other same
      rw [same] at read
      rw [Except.ok.inj read]
    · rename_i error failed
      simp [failed] at read

end Loop

/-- The tokens of a printable program are read as the program. -/
theorem readItems_programTokens (leaves : operators.LeavesSigns)
    (leavesSeparator : operators.precedence? ';' = none) {items : List Item}
    (printable : ∀ item ∈ items, item.isPrintable operators = true) {stream : TokenStream}
    (coming : stream.tokens = programTokens operators items) :
    (readItems operators stream).1 = items.map .ok := by
  induction items generalizing stream with
  | nil => exact readItems_of_end coming
  | cons item others inductionHypothesis =>
    have shape : stream.tokens =
        item.tokens operators ++ .itemSeparator :: programTokens operators others := by
      rw [coming, programTokens, List.flatMap_cons, List.append_assoc, List.singleton_append]
      rfl
    have parsed : (Parser.item operators).parse stream.tokens =
        (.ok item, .itemSeparator :: programTokens operators others) := by
      rw [shape]
      exact parse_item_tokens leaves (printable item List.mem_cons_self)
        (by simp [Token.itemSeparator, ExpressionState.opening])
        (Operators.binary?_symbol_of_none leavesSeparator)
    have read : ((Parser.item operators).run stream).1 = .ok item := by
      rw [Parser.run_fst, parsed]
    have left : ((Parser.item operators).run stream).2.tokens =
        .itemSeparator :: programTokens operators others := by
      rw [Parser.tokens_run, parsed]
    have unseparated : stream.tokens.head? ≠ some .itemSeparator := by
      rw [shape]
      exact head?_item_tokens_ne_itemSeparator item _
    have later : ((Parser.item operators).run stream).2.look.advance.tokens =
        programTokens operators others := by
      rw [TokenStream.tokens_look_advance, left, List.tail_cons]
    rw [readItems_of_ok unseparated read, readItems_of_separator (by rw [left]; rfl),
      inductionHypothesis (fun item member => printable item (List.mem_cons_of_mem _ member)) later]
    rfl

/-- A source that delivers the text of a printable program is read as the program, without a syntax
error, under every table that leaves the signs of the language alone. -/
theorem readItems_programText (operators : Operators) (leaves : operators.LeavesSigns)
    (leavesSeparator : operators.precedence? ';' = none) (items : List Item)
    (printable : ∀ item ∈ items, item.isPrintable operators = true) (source : Source)
    (delivers : source.Delivers (Utf8.encodeChars (programText operators items))) :
    (readItems operators (.ofSource source)).1 = items.map .ok := by
  have spellable := isSpellable_programTokens printable
  have oneLine : '\n' ∉ programText operators items :=
    Token.notMem_spaced spellable (by decide) (by decide) (by decide)
  have coming : (TokenStream.ofSource source).tokens = programTokens operators items := by
    calc (TokenStream.ofSource source).tokens
        = source.tokens := TokenStream.tokens_ofSource source
      _ = Token.ofText (programText operators items) :=
          Source.tokens_of_delivers_last oneLine delivers
      _ = programTokens operators items := Token.ofText_spaced spellable
  exact readItems_programTokens leaves leavesSeparator printable coming

/-- The definition of a function by a product with a difference, whose brackets are printed, and a
call of it are read back from a source of two chunks. -/
theorem readItems_product_of_difference :
    let one : Binary64 := .ofBits 0x3FF0000000000000
    let items : List Item :=
      [.definition ⟨⟨"f", ["x"]⟩,
        .binary '*' (.reference "x") (.binary '-' (.reference "x") (.number one))⟩,
       .expression (.call "f" [.number one])]
    let bytes := Utf8.encodeChars (programText .standard items)
    Operators.standard.LeavesSigns ∧ Operators.standard.precedence? ';' = none ∧
      (∀ item ∈ items, item.isPrintable .standard = true) ∧
      Source.Delivers [.data (bytes.take 5), .data (bytes.drop 5)] bytes ∧
      (readItems .standard (.ofSource [.data (bytes.take 5), .data (bytes.drop 5)])).1 =
        items.map .ok := by
  intro one items bytes
  have leaves : Operators.standard.LeavesSigns := ⟨by decide, by decide, by decide⟩
  have printable : ∀ item ∈ items, item.isPrintable .standard = true := by decide
  have delivers : Source.Delivers [.data (bytes.take 5), .data (bytes.drop 5)] bytes :=
    ⟨by simp [Chunk.passes], by simp [Chunk.bytes]⟩
  exact ⟨leaves, by decide, printable, delivers,
    readItems_programText .standard leaves (by decide) items printable _ delivers⟩

end ExprShell
