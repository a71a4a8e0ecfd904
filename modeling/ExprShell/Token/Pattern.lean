import ExprShell.Number.Notation
import ExprShell.Text.Blank
import ExprShell.Token.Basic
/-!
# Patterns of tokens and comments

Tokens and comments are described by two patterns. What a pattern matches at a place is said by the
list of all ways to match it there, the preferred one first: of two alternatives the first comes
first, and what is optional or repeated takes as much as it can before it takes less. A search goes
to the first place with a match and takes the preferred one.
-/

namespace ExprShell

/-- A class of characters: those in some ranges, ends included, or all others. -/
structure CharClass where
  ranges : List (Char × Char)
  complement : Bool
deriving DecidableEq, Repr

namespace CharClass

/-- Whether a class has a character. -/
def contains (charClass : CharClass) (c : Char) : Bool :=
  (charClass.ranges.any fun range => decide (range.1 ≤ c ∧ c ≤ range.2)) != charClass.complement

/-- The letters, `[A-Za-z]`. -/
def letters : CharClass := ⟨[('A', 'Z'), ('a', 'z')], false⟩

/-- Letters and digits, `[A-Za-z0-9]`. -/
def lettersAndDigits : CharClass := ⟨[('A', 'Z'), ('a', 'z'), ('0', '9')], false⟩

/-- The digits, `[0-9]`. -/
def digits : CharClass := ⟨[('0', '9')], false⟩

/-- A single character, such as `#` or `\.`. -/
def just (c : Char) : CharClass := ⟨[(c, c)], false⟩

/-- All characters but white space, `\S`. -/
def visible : CharClass :=
  ⟨blankRanges.map fun range => (Char.ofNat range.1, Char.ofNat range.2), true⟩

/-- All characters but the newline, `.` in a pattern. -/
def inLine : CharClass := ⟨[('\n', '\n')], true⟩

end CharClass

/-- A pattern of characters. Only single characters are repeated. -/
inductive Pattern
  /-- A character of a class. -/
  | one (charClass : CharClass)
  /-- Characters of a class, as many as possible. -/
  | many (charClass : CharClass)
  /-- A match of a pattern, if possible. -/
  | optional (inner : Pattern)
  /-- The end of a line, or of the text. -/
  | lineEnd
  /-- One pattern behind the other. -/
  | seq (first second : Pattern)
  /-- One of two patterns, the first one if possible. -/
  | either (first second : Pattern)
  /-- A pattern of which the match is kept under a name. -/
  | group (name : String) (inner : Pattern)
deriving DecidableEq, Repr

/-- A match: the characters taken, the text behind them, and what is kept under names. -/
structure Found where
  taken : List Char
  rest : List Char
  groups : List (String × List Char)
deriving DecidableEq, Repr

namespace Found

/-- The match that takes nothing of a text. -/
def nothing (text : List Char) : Found := ⟨[], text, []⟩

/-- A match and another one right behind it. -/
def followedBy (first second : Found) : Found :=
  ⟨first.taken ++ second.taken, second.rest, first.groups ++ second.groups⟩

/-- A match that is kept under a name. -/
def keptAs (name : String) (found : Found) : Found :=
  { found with groups := (name, found.taken) :: found.groups }

end Found

namespace Pattern

/-- The ways to take a character of a class. -/
def waysOne (charClass : CharClass) : List Char -> List Found
  | [] => []
  | c :: rest => if charClass.contains c then [⟨[c], rest, []⟩] else []

/-- The ways to take characters of a class, more before fewer. -/
def waysMany (charClass : CharClass) : List Char -> List Found
  | [] => [.nothing []]
  | c :: rest =>
    if charClass.contains c then
      (waysMany charClass rest).map (Found.followedBy ⟨[c], rest, []⟩) ++ [.nothing (c :: rest)]
    else [.nothing (c :: rest)]

/-- All ways to match a pattern at the beginning of a text, the preferred one first. -/
def ways : Pattern -> List Char -> List Found
  | one charClass, text => waysOne charClass text
  | many charClass, text => waysMany charClass text
  | optional inner, text => inner.ways text ++ [.nothing text]
  | lineEnd, text => if text.head?.all (· == '\n') then [.nothing text] else []
  | seq first second, text =>
    (first.ways text).flatMap fun found => (second.ways found.rest).map found.followedBy
  | either first second, text => first.ways text ++ second.ways text
  | group name inner, text => (inner.ways text).map (Found.keptAs name)

section Ways

variable (first second : Pattern) (charClass : CharClass) (text : List Char)

@[simp] theorem ways_one_nil : (one charClass).ways [] = [] := rfl

@[simp] theorem ways_one_cons (c : Char) : (one charClass).ways (c :: text) =
    if charClass.contains c then [⟨[c], text, []⟩] else [] := rfl

@[simp] theorem ways_many_nil : (many charClass).ways [] = [.nothing []] := rfl

@[simp] theorem ways_many_cons (c : Char) : (many charClass).ways (c :: text) =
    if charClass.contains c then
      ((many charClass).ways text).map (Found.followedBy ⟨[c], text, []⟩) ++ [.nothing (c :: text)]
    else [.nothing (c :: text)] := rfl

@[simp] theorem ways_optional : (optional first).ways text = first.ways text ++ [.nothing text] :=
  rfl

@[simp] theorem ways_lineEnd :
    lineEnd.ways text = if text.head?.all (· == '\n') then [.nothing text] else [] := rfl

@[simp] theorem ways_seq : (seq first second).ways text =
    (first.ways text).flatMap fun found => (second.ways found.rest).map found.followedBy := rfl

@[simp] theorem ways_either :
    (either first second).ways text = first.ways text ++ second.ways text := rfl

@[simp] theorem ways_group (name : String) :
    (group name first).ways text = (first.ways text).map (Found.keptAs name) := rfl

end Ways

/-- The match at the first place that has one, and the characters in front of that place. -/
def find? (pattern : Pattern) : List Char -> Option (List Char × Found)
  | [] => (pattern.ways []).head?.map fun found => ([], found)
  | c :: rest =>
    match (pattern.ways (c :: rest)).head? with
    | some found => some ([], found)
    | none => (find? pattern rest).map fun (skipped, found) => (c :: skipped, found)

/-- All matches from left to right, each one searched behind the one before it. A match of no
characters, which no pattern here has, would be the last one. -/
def findAll (pattern : Pattern) (text : List Char) : List Found :=
  match pattern.find? text with
  | none => []
  | some (_, found) =>
    found :: if found.rest.length < text.length then findAll pattern found.rest else []
termination_by text.length

/-- A text without the first match. -/
def removeFirst (pattern : Pattern) (text : List Char) : List Char :=
  match pattern.find? text with
  | none => text
  | some (skipped, found) => skipped ++ found.rest

/-- Characters of a class, one at least and as many as possible. -/
def atLeastOne (charClass : CharClass) : Pattern := seq (one charClass) (many charClass)

/-- A word, `[A-Za-z][A-Za-z0-9]*`. -/
def word : Pattern := seq (one .letters) (many .lettersAndDigits)

/-- A number, `[0-9]+\.?[0-9]*|\.[0-9]+`. -/
def number : Pattern :=
  either (seq (atLeastOne .digits) (seq (optional (one (.just '.'))) (many .digits)))
    (seq (one (.just '.')) (atLeastOne .digits))

/-- A token,
`(?P<ident>[A-Za-z][A-Za-z0-9]*)|(?P<number>[0-9]+\.?[0-9]*|\.[0-9]+)|(?P<char>\S)`. -/
def token : Pattern :=
  either (group "ident" word) (either (group "number" number) (group "char" (one .visible)))

/-- A comment, `(?m)#.*$`. -/
def comment : Pattern := seq (one (.just '#')) (seq (many .inLine) lineEnd)

end Pattern

/-- The token that a match stands for by what is kept under its names. -/
def Token.ofFound? (found : Found) : Option Token :=
  match found.groups.lookup "ident" with
  | some word => some (ofWord (String.ofList word))
  | none =>
    match found.groups.lookup "number" with
    | some text => (Binary64.ofText? text).map number
    | none => (found.groups.lookup "char").bind fun text => text.head?.map symbol

end ExprShell
