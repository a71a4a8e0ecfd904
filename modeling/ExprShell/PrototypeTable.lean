import ExprShell.Program
import Std.Data.HashMap
/-!
# Prototype tables

The prototypes of the functions that a session knows, by name. Every change gives back the entry it
displaced, and `restore` puts that entry back.
-/

namespace ExprShell

/-- Prototypes by function name. -/
structure PrototypeTable where
  entries : Std.HashMap String Prototype

namespace PrototypeTable

/-- The table without entries. -/
def empty : PrototypeTable := ⟨∅⟩

/-- The prototype of a name. -/
def get? (table : PrototypeTable) (name : String) : Option Prototype := table.entries[name]?

/-- Whether a name has a prototype. -/
def contains (table : PrototypeTable) (name : String) : Bool := table.entries.contains name

/-- How many names have a prototype. -/
def size (table : PrototypeTable) : Nat := table.entries.size

/-- Whether no name has a prototype. -/
def isEmpty (table : PrototypeTable) : Bool := table.entries.isEmpty

/-- Enters a prototype under its own name: the table after, and the entry displaced. -/
def insert (table : PrototypeTable) (prototype : Prototype) :
    PrototypeTable × Option Prototype :=
  (⟨table.entries.insert prototype.name prototype⟩, table.get? prototype.name)

/-- Drops the entry of a name: the table after, and the entry dropped. -/
def remove (table : PrototypeTable) (name : String) : PrototypeTable × Option Prototype :=
  (⟨table.entries.erase name⟩, table.get? name)

/-- Puts back the entry a name had: a prototype goes under its own name, and without one the name
is dropped. -/
def restore (table : PrototypeTable) (name : String) : Option Prototype -> PrototypeTable
  | some prototype => (table.insert prototype).1
  | none => (table.remove name).1

@[simp] theorem get?_empty (name : String) : empty.get? name = none := by
  simp [empty, get?]

theorem get?_insert (table : PrototypeTable) (prototype : Prototype) (name : String) :
    (table.insert prototype).1.get? name =
      if prototype.name = name then some prototype else table.get? name := by
  simp [insert, get?, Std.HashMap.getElem?_insert]

theorem get?_remove (table : PrototypeTable) (erased name : String) :
    (table.remove erased).1.get? name = if erased = name then none else table.get? name := by
  simp [remove, get?, Std.HashMap.getElem?_erase]

theorem contains_eq_isSome_get? (table : PrototypeTable) (name : String) :
    table.contains name = (table.get? name).isSome := by
  simp [contains, get?]

end PrototypeTable

end ExprShell
