import ExprShell.Proofs.Source.Delivery
import ExprShell.Proofs.Stream.Pulls
import Mathlib.Data.List.Infix
/-!
# Looks between the calls

Somebody may look at a stream between the calls that its reader makes. Such looks change neither
what the reader is told nor what is left to read, since a stream that has been looked at answers
each call with the token that has the number of the advances so far.

Before the first call it is different. A stream that nobody has looked at has no current token, so
an advance that is the first call of all passes none. Whoever looks before such an advance makes it,
and with it every call behind it, answer one token further on.
-/

namespace ExprShell

namespace TokenStream

/-- A call that the reader of a stream asks for, or a look that is put in between. -/
inductive Touch
  | ask (call : Call)
  | peek
deriving DecidableEq, Repr

namespace Touch

/-- The call that the stream sees. -/
def seen : Touch -> Call
  | ask call => call
  | peek => .current

/-- The call that the reader asked for. -/
def asked? : Touch -> Option Call
  | ask call => some call
  | peek => none

/-- What the reader asked for, without the looks put in between. -/
def asked (touches : List Touch) : List Call := touches.filterMap asked?

@[simp] theorem asked_nil : asked [] = [] := rfl

@[simp] theorem asked_cons_ask (call : Call) (others : List Touch) :
    asked (ask call :: others) = call :: asked others := rfl

@[simp] theorem asked_cons_peek (others : List Touch) : asked (peek :: others) = asked others := rfl

@[simp] theorem asked_map_ask (calls : List Call) : asked (calls.map ask) = calls := by
  rw [asked, List.filterMap_map]
  exact List.filterMap_some

@[simp] theorem map_seen_map_ask (calls : List Call) : (calls.map ask).map seen = calls := by
  rw [List.map_map]
  exact List.map_id calls

/-- All advances are asked for. -/
@[simp] theorem count_advance_map_seen (touches : List Touch) :
    (touches.map seen).count .advance = (asked touches).count .advance := by
  induction touches with
  | nil => rfl
  | cons first others inductionHypothesis =>
    cases first with
    | ask request =>
      rw [List.map_cons, asked_cons_ask, seen, List.count_cons, List.count_cons,
        inductionHypothesis]
    | peek => exact inductionHypothesis

end Touch

open Touch

/-- What the stream answers to the reader's calls. Looks in between are answered to others. -/
def answers (stream : TokenStream) : List Touch -> List (Option Token)
  | [] => []
  | .ask request :: others =>
    (stream.call request).head? :: (stream.call request).answers others
  | .peek :: others => stream.look.answers others

/-- The beginnings of a list with a first element start with this element. -/
theorem map_tail_inits_cons {Element Image : Type} (image : List Element -> Image)
    (first : Element) (others : List Element) :
    (first :: others).inits.tail.map image =
      image [first] :: others.inits.tail.map fun start => image (first :: start) := by
  cases others with
  | nil => rfl
  | cons second others => simp [Function.comp_def]

/-- On a stream that has been looked at, every call is answered with the token that has the number
of the advances so far, whoever looks in between. -/
theorem answers_past (stream : TokenStream) (passed : Nat) (touches : List Touch) :
    (stream.past passed).answers touches = (asked touches).inits.tail.map
      fun start => stream.tokens[passed + start.count .advance]? := by
  induction touches generalizing passed with
  | nil => rfl
  | cons first others inductionHypothesis =>
    match first with
    | .ask .current =>
      rw [answers, call, look_past, inductionHypothesis, asked_cons_ask, map_tail_inits_cons,
        head?_past]
      rfl
    | .ask .advance =>
      rw [answers, call, ← past_succ, inductionHypothesis, asked_cons_ask, map_tail_inits_cons,
        head?_past]
      simp only [List.count_cons_self, Nat.add_assoc, Nat.add_comm 1]
      rfl
    | .peek => rw [answers, look_past, inductionHypothesis, asked_cons_peek]

/-- Behind a first look, the advances alone are counted. -/
theorem answers_look (stream : TokenStream) (touches : List Touch) :
    stream.look.answers touches =
      (asked touches).inits.tail.map fun start => stream.tokens[start.count .advance]? := by
  have looked := stream.answers_past 0 touches
  simp only [Nat.zero_add] at looked
  exact looked

/-! ## Streams that nobody has looked at -/

variable {stream : TokenStream}

/-- The advances among some calls to a fresh stream that pass no token. It is the first call of all,
if that is an advance. -/
def idle (calls : List Call) : Nat := if calls.head? = some .advance then 1 else 0

/-- Looks behind a first advance leave it the first call of all. -/
theorem idle_map_seen {touches : List Touch}
    (unpeeked : (asked touches).head? = some .advance →
      (touches.map seen).head? = some .advance) :
    idle (touches.map seen) = idle (asked touches) := by
  match touches with
  | [] => rfl
  | .ask _ :: _ => rfl
  | .peek :: others =>
    have other : (asked others).head? ≠ some .advance := fun advances => by
      simpa [seen] using unpeeked advances
    rw [asked_cons_peek, idle, idle, if_neg other]
    rfl

/-- Each advance on a fresh stream passes a token, unless it is the first call of all. -/
theorem look_calls_of_fresh (fresh : stream.started = false) (touches : List Touch) :
    (stream.calls (touches.map seen)).look =
      stream.past ((asked touches).count .advance - idle (touches.map seen)) := by
  cases touches with
  | nil => rfl
  | cons first others =>
    rw [List.map_cons, calls_of_fresh fresh, look_past, count_advance_map_seen]
    match first with
    | .ask .current => rfl
    | .ask .advance => rw [asked_cons_ask, List.count_cons_self]; rfl
    | .peek => rfl

/-- On a fresh stream, every call is answered with the token that has the number of the advances so
far, less the idle one. -/
theorem answers_of_fresh (fresh : stream.started = false) (touches : List Touch) :
    stream.answers touches = (asked touches).inits.tail.map fun start =>
      stream.tokens[start.count .advance - idle (touches.map seen)]? := by
  match touches with
  | [] => rfl
  | .peek :: others => exact stream.answers_look others
  | .ask .current :: others =>
    have looked := stream.answers_look (.ask .current :: others)
    rw [answers, call, look_look] at looked
    exact looked
  | .ask .advance :: others =>
    -- The advance is answered as a look, and yet the calls behind it count it.
    rw [answers, call, advance_of_fresh fresh, answers_look, head?_look,
      List.head?_eq_getElem?, asked_cons_ask, map_tail_inits_cons]
    simp only [List.count_cons_self]
    rfl

/-- Looks put in between the calls to a stream change neither the answers to these calls nor what is
left of the stream, unless the first call is an advance and a look comes before it. In any case each
call is answered with the token that has the number of the advances so far, and as many tokens are
passed. An advance that is the first call of all does not count. -/
theorem calls_unmoved_by_peeks (source : Source) (touches : List Touch) :
    let stream := ofSource source
    let requests := asked touches
    let calls := touches.map seen
    ((requests.head? = some .advance → calls.head? = some .advance) →
      stream.answers touches = stream.answers (requests.map .ask) ∧
        (stream.calls calls).look = (stream.calls requests).look) ∧
    (stream.answers touches = requests.inits.tail.map fun start =>
      source.tokens[start.count .advance - idle calls]?) ∧
    (stream.calls calls).look.head? = source.tokens[requests.count .advance - idle calls]? ∧
    (stream.calls calls).tokens = source.tokens.drop (requests.count .advance - idle calls) := by
  intro stream requests calls
  have fresh : stream.started = false := rfl
  have all : stream.tokens = source.tokens := tokens_ofSource source
  have answered := answers_of_fresh fresh touches
  have left := look_calls_of_fresh fresh touches
  refine ⟨fun unpeeked => ?_, all ▸ answered, ?_, ?_⟩
  · have sameIdle : idle calls = idle requests := idle_map_seen unpeeked
    have askedAnswered := answers_of_fresh fresh (requests.map .ask)
    have askedLeft := look_calls_of_fresh fresh (requests.map .ask)
    rw [asked_map_ask, map_seen_map_ask, ← sameIdle] at askedAnswered askedLeft
    exact ⟨answered.trans askedAnswered.symm, left.trans askedLeft.symm⟩
  · rw [left, head?_past, all]
  · rw [← tokens_look, left, tokens_past, all]

/-- The reader starts with an advance, and the looks come behind it, within a line and in front of
the next one. -/
theorem calls_unmoved_by_peeks_behind_first_advance :
    let source : Source := [.data "a b\nc".toUTF8.data.toList]
    let stream := ofSource source
    let touches : List Touch := [.ask .advance, .peek, .ask .advance, .peek, .peek, .ask .advance]
    let requests := asked touches
    let calls := touches.map seen
    (requests.head? = some .advance → calls.head? = some .advance) ∧
      stream.answers touches = [some (.name "a"), some (.name "b"), some (.name "c")] ∧
      stream.answers (requests.map .ask) = stream.answers touches ∧
      (stream.calls requests).look = (stream.calls calls).look ∧
      (stream.calls calls).tokens = [.name "c"] := by
  intro source stream touches requests calls
  have tokens : source.tokens = [.name "a", .name "b", .name "c"] := by decide +kernel
  obtain ⟨unmoved, answered, _, left⟩ := calls_unmoved_by_peeks source touches
  rw [tokens] at answered left
  obtain ⟨sameAnswers, sameStream⟩ := unmoved fun _ => rfl
  exact ⟨fun _ => rfl, answered, sameAnswers.symm, sameStream.symm, left⟩

/-- A look in front of a first advance moves its answer. Nor does such an advance lead to the token
that has the number of the advances. -/
theorem not_always_unmoved_by_peeks :
    (¬ ∀ (source : Source) (touches : List Touch),
      (ofSource source).answers touches =
          (ofSource source).answers ((asked touches).map .ask) ∧
        ((ofSource source).calls (touches.map seen)).tokens =
          ((ofSource source).calls (asked touches)).tokens) ∧
    ¬ ∀ (source : Source) (requests : List Call),
      ((ofSource source).calls requests).look.head? =
        source.tokens[requests.count .advance]? := by
  let source : Source := [.data "a b\n".toUTF8.data.toList]
  have tokens : (ofSource source).tokens = [.name "a", .name "b"] := by decide +kernel
  constructor
  · intro always
    obtain ⟨sameAnswers, _⟩ := always source [.peek, .ask .advance]
    rw [answers_of_fresh rfl, answers_of_fresh rfl, tokens] at sameAnswers
    simp [idle, seen] at sameAnswers
  · intro always
    have current := always source [.advance]
    rw [calls_of_fresh rfl, look_past, head?_past, ← tokens_ofSource source, tokens] at current
    simp at current

end TokenStream

end ExprShell
