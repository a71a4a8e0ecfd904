import ExprShell.PrototypeTable
import Mathlib.Data.Finset.Card
/-!
# Undoing changes of a prototype table

Every change of a table gives back the entry that it displaced. Putting these entries back, the
latest first, leads to a table that cannot be told from the one before the changes. A prototype is
put back under its own name, whatever name it is given with, so this rests on an invariant of all
tables that can come about: an entry stands under the name of its prototype.
-/

namespace ExprShell

namespace PrototypeTable

variable {table other : PrototypeTable} {asked : String}

theorem get?_restore_some (table : PrototypeTable) (prototype : Prototype)
    (restored name : String) :
    (table.restore restored (some prototype)).get? name =
      if prototype.name = name then some prototype else table.get? name :=
  table.get?_insert prototype name

theorem get?_restore_none (table : PrototypeTable) (restored name : String) :
    (table.restore restored none).get? name = if restored = name then none else table.get? name :=
  table.get?_remove restored name

/-! ## What a table shows -/

/-- The names that have a prototype. -/
def names (table : PrototypeTable) : Finset String := table.entries.keys.toFinset

@[simp] theorem mem_names : asked ∈ table.names ↔ table.contains asked = true := by
  rw [names, List.mem_toFinset, Std.HashMap.mem_keys, contains, Std.HashMap.contains_iff_mem]

/-- The size of a table is the number of names that have a prototype. -/
theorem card_names (table : PrototypeTable) : table.names.card = table.size := by
  rw [names, List.toFinset_card_of_nodup Std.HashMap.nodup_keys, Std.HashMap.length_keys, size]

/-- That two tables answer every question alike. -/
structure Alike (first second : PrototypeTable) : Prop where
  get? : ∀ name, first.get? name = second.get? name
  contains : ∀ name, first.contains name = second.contains name
  size : first.size = second.size
  isEmpty : first.isEmpty = second.isEmpty

/-- Tables with the same entries are alike. -/
theorem Alike.of_get? (same : ∀ name, table.get? name = other.get? name) : table.Alike other := by
  have contained (name : String) : table.contains name = other.contains name := by
    rw [contains_eq_isSome_get?, contains_eq_isSome_get?, same]
  have sizes : table.size = other.size := by
    rw [← card_names, ← card_names]
    congr 1
    ext name
    rw [mem_names, mem_names, contained]
  refine ⟨same, contained, sizes, ?_⟩
  have empty (table : PrototypeTable) : table.isEmpty = (table.size == 0) :=
    Std.HashMap.isEmpty_eq_size_eq_zero
  rw [empty, empty, sizes]

/-! ## Tables that can come about -/

/-- The tables that changes can lead to. A copy of a table is any table with the same entries. -/
inductive Reachable : PrototypeTable -> Prop
  | empty : Reachable .empty
  | insert {table : PrototypeTable} (reachable : Reachable table) (prototype : Prototype) :
      Reachable (table.insert prototype).1
  | remove {table : PrototypeTable} (reachable : Reachable table) (name : String) :
      Reachable (table.remove name).1
  | restore {table : PrototypeTable} (reachable : Reachable table) (name : String)
      (previous : Option Prototype) : Reachable (table.restore name previous)
  | copy {table copy : PrototypeTable} (reachable : Reachable table)
      (same : ∀ name, copy.get? name = table.get? name) : Reachable copy

/-- That every entry stands under the name of its prototype. -/
def WellNamed (table : PrototypeTable) : Prop :=
  ∀ name prototype, table.get? name = some prototype → prototype.name = name

theorem WellNamed.insert (wellNamed : table.WellNamed) (prototype : Prototype) :
    (table.insert prototype).1.WellNamed := by
  intro name entry found
  rw [get?_insert] at found
  split at found
  · rename_i itsName
    obtain rfl := Option.some.inj found
    exact itsName
  · exact wellNamed name entry found

theorem WellNamed.remove (wellNamed : table.WellNamed) (erased : String) :
    (table.remove erased).1.WellNamed := by
  intro name entry found
  rw [get?_remove] at found
  split at found
  · simp at found
  · exact wellNamed name entry found

/-- Whatever is put back, and under whichever name, is entered or dropped. -/
theorem WellNamed.restore (wellNamed : table.WellNamed) (restored : String) :
    ∀ previous, (table.restore restored previous).WellNamed
  | some prototype => wellNamed.insert prototype
  | none => wellNamed.remove restored

/-- No change brings an entry under a name that is not its own. -/
theorem Reachable.wellNamed (reachable : table.Reachable) : table.WellNamed := by
  induction reachable with
  | empty => simp [WellNamed]
  | insert _ prototype inductionHypothesis => exact inductionHypothesis.insert prototype
  | remove _ name inductionHypothesis => exact inductionHypothesis.remove name
  | restore _ name previous inductionHypothesis => exact inductionHypothesis.restore name previous
  | copy _ same inductionHypothesis =>
    intro name prototype found
    exact inductionHypothesis name prototype ((same name).symm.trans found)

/-! ## Changes and their undoing -/

/-- A change of a table that gives back the entry it displaces. -/
inductive Change
  | insert (prototype : Prototype)
  | remove (name : String)
deriving DecidableEq, Repr

namespace Change

/-- The only name whose entry a change affects. -/
def affected : Change -> String
  | insert prototype => prototype.name
  | remove name => name

/-- The table after a change, and the entry displaced. -/
def apply (table : PrototypeTable) : Change -> PrototypeTable × Option Prototype
  | insert prototype => table.insert prototype
  | remove name => table.remove name

/-- A change gives back what the table held under its name. -/
@[simp] theorem apply_snd (change : Change) (table : PrototypeTable) :
    (change.apply table).2 = table.get? change.affected := by
  cases change <;> rfl

/-- A change leaves the entries of other names. -/
theorem get?_apply_of_ne {change : Change} (differs : change.affected ≠ asked) :
    (change.apply table).1.get? asked = table.get? asked := by
  cases change with
  | insert prototype => exact (table.get?_insert prototype asked).trans (if_neg differs)
  | remove removed => exact (table.get?_remove removed asked).trans (if_neg differs)

theorem wellNamed_apply (wellNamed : table.WellNamed) :
    ∀ change : Change, (change.apply table).1.WellNamed
  | insert prototype => wellNamed.insert prototype
  | remove name => wellNamed.remove name

end Change

/-- A name whose entry was displaced, and that entry. -/
structure Displaced where
  name : String
  previous : Option Prototype
deriving DecidableEq, Repr

/-- Makes changes one after the other: the table after them, and what each of them displaced. -/
def changeAll : List Change -> PrototypeTable -> PrototypeTable × List Displaced
  | [], table => (table, [])
  | change :: others, table =>
    let changed := change.apply table
    let later := changeAll others changed.1
    (later.1, ⟨change.affected, changed.2⟩ :: later.2)

/-- Puts displaced entries back, the latest first. -/
def undoAll (table : PrototypeTable) (displaced : List Displaced) : PrototypeTable :=
  displaced.foldr (fun entry table => table.restore entry.name entry.previous) table

/-- Putting back the entry that a well-named table has under a name makes another table agree with
it there, and changes nothing elsewhere. -/
theorem get?_restore_get? (wellNamed : table.WellNamed) (other : PrototypeTable)
    (restored name : String) :
    (other.restore restored (table.get? restored)).get? name =
      if restored = name then table.get? name else other.get? name := by
  cases held : table.get? restored with
  | none =>
    rw [get?_restore_none]
    split
    · rename_i same
      rw [← same, held]
    · rfl
  | some prototype =>
    rw [get?_restore_some, wellNamed restored prototype held]
    split
    · rename_i same
      rw [← same, held]
    · rfl

/-- Changes are undone: under every name the entry is the one before them. -/
theorem get?_undoAll_changeAll (wellNamed : table.WellNamed) (changes : List Change)
    (name : String) :
    (undoAll (changeAll changes table).1 (changeAll changes table).2).get? name =
      table.get? name := by
  induction changes generalizing table with
  | nil => rfl
  | cons change others inductionHypothesis =>
    -- The later changes are undone first, which leads back behind the first one.
    have behind := inductionHypothesis (change.wellNamed_apply wellNamed)
    rw [changeAll, undoAll, List.foldr_cons, ← undoAll, change.apply_snd,
      get?_restore_get? wellNamed]
    split
    · rfl
    · rename_i differs
      rw [behind, Change.get?_apply_of_ne differs]

/-- Every change gives back one entry. -/
theorem length_changeAll (changes : List Change) (table : PrototypeTable) :
    (changeAll changes table).2.length = changes.length := by
  induction changes generalizing table with
  | nil => rfl
  | cons change others inductionHypothesis =>
    rw [changeAll, List.length_cons, List.length_cons, inductionHypothesis]

/-- Each change displaces the entry that is found under its name just before it. -/
theorem changeAll_append_cons (before after : List Change) (change : Change)
    (table : PrototypeTable) :
    (changeAll (before ++ change :: after) table).2[before.length]? =
      some ⟨change.affected, (changeAll before table).1.get? change.affected⟩ := by
  induction before generalizing table with
  | nil => simp [changeAll]
  | cons first others inductionHypothesis => exact inductionHypothesis (first.apply table).1

/-- In every table that can come about, entries stand under the names of their prototypes and the
size is the number of names that have one. Whatever changes are made, each gives back what was found
under its name just before it; and putting all of that back, the latest first, leads to a table that
answers as the one before the changes. -/
theorem undoAll_changeAll (reachable : table.Reachable) :
    table.WellNamed ∧
      (∃ names : Finset String,
        (∀ name, name ∈ names ↔ table.contains name = true) ∧ names.card = table.size) ∧
      ∀ changes : List Change,
        (undoAll (changeAll changes table).1 (changeAll changes table).2).Alike table ∧
        (changeAll changes table).2.length = changes.length ∧
        ∀ before change after, changes = before ++ change :: after →
          (changeAll changes table).2[before.length]? =
            some ⟨change.affected, (changeAll before table).1.get? change.affected⟩ := by
  have wellNamed := reachable.wellNamed
  refine ⟨wellNamed, ⟨table.names, fun _ => mem_names, table.card_names⟩, fun changes => ?_⟩
  refine ⟨.of_get? (get?_undoAll_changeAll wellNamed changes), length_changeAll changes table, ?_⟩
  rintro before change after rfl
  exact changeAll_append_cons before after change table

/-- A prototype that was put back for another name, and changes that shadow it, drop it, enter it
again and drop a name that is not there. -/
theorem undoAll_changeAll_of_mismatch :
    let table := (empty.insert ⟨"f", ["a"]⟩).1.restore "h" (some ⟨"g", ["x"]⟩)
    let changes : List Change := [.insert ⟨"f", []⟩, .remove "g", .insert ⟨"g", ["y", "z"]⟩,
      .remove "f", .remove "f", .insert ⟨"k", []⟩]
    let displaced : List Displaced := [⟨"f", some ⟨"f", ["a"]⟩⟩, ⟨"g", some ⟨"g", ["x"]⟩⟩,
      ⟨"g", none⟩, ⟨"f", some ⟨"f", []⟩⟩, ⟨"f", none⟩, ⟨"k", none⟩]
    let undone := undoAll (changeAll changes table).1 (changeAll changes table).2
    table.Reachable ∧ (changeAll changes table).2 = displaced ∧
      (changeAll changes table).1.contains "f" = false ∧
      undone.get? "f" = some ⟨"f", ["a"]⟩ ∧ undone.get? "g" = some ⟨"g", ["x"]⟩ ∧
      undone.contains "h" = false ∧ undone.contains "k" = false ∧ undone.size = 2 := by
  intro table changes displaced undone
  have reachable : table.Reachable := (Reachable.empty.insert _).restore _ _
  obtain ⟨_, ⟨names, known, counted⟩, undo⟩ := undoAll_changeAll reachable
  obtain ⟨alike, -, -⟩ := undo changes
  have entries (name : String) : table.get? name =
      if "g" = name then some ⟨"g", ["x"]⟩ else if "f" = name then some ⟨"f", ["a"]⟩ else none := by
    simp [table, get?_restore_some, get?_insert]
  have held (name : String) : name ∈ names ↔ name ∈ ({"f", "g"} : Finset String) := by
    rw [known, contains_eq_isSome_get?, entries]
    grind
  have size : table.size = 2 := by
    rw [← counted, Finset.ext held]
    decide
  refine ⟨reachable, ?_, ?_, ?_, ?_, ?_, ?_, alike.size.trans size⟩
  · simp only [changes, displaced, changeAll, Change.apply_snd]
    simp [Change.apply, Change.affected, get?_insert, get?_remove, entries]
  · simp [changes, changeAll, Change.apply, contains_eq_isSome_get?, get?_insert, get?_remove]
  · rw [alike.get?, entries]
    rfl
  · rw [alike.get?, entries]
    rfl
  · rw [alike.contains, contains_eq_isSome_get?, entries]
    rfl
  · rw [alike.contains, contains_eq_isSome_get?, entries]
    rfl

end PrototypeTable

end ExprShell
