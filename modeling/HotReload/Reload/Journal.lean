import HotReload.Reload.Event

/-!
# Journals

A journal numbers events in the order in which they are recorded, from 0, and keeps the last of
them: all if it has no capacity, and otherwise as many as the capacity says. Numbering goes on when
entries are dropped.
-/

namespace HotReload

/-- A recorded event: its number, its level and the unit it concerns. -/
structure Entry where
  seq : Nat
  level : Level
  unit : String
  event : Event
  deriving DecidableEq, Repr, Inhabited

/-- A **journal**: how many entries it keeps, the number of the next one, and the entries kept,
oldest first. -/
structure Journal where
  capacity : Option Nat
  next : Nat
  entries : List Entry
  deriving DecidableEq, Repr, Inhabited

namespace Journal

/-- The journal without entries. -/
def empty (capacity : Option Nat) : Journal := ⟨capacity, 0, []⟩

/-- The last entries, as many as the capacity allows. -/
def trim (capacity : Option Nat) (entries : List Entry) : List Entry :=
  match capacity with
  | none => entries
  | some n => entries.drop (entries.length - n)

/-- Records an event at a level, and tells its number. -/
def record (j : Journal) (level : Level) (unit : String) (event : Event) : Nat × Journal :=
  (j.next,
    { j with
      -- an entry that is dropped at once has used up its number too
      next := j.next + 1
      entries := trim j.capacity (j.entries ++ [⟨j.next, level, unit, event⟩]) })

/-- Records an event at its own level. -/
def log (j : Journal) (unit : String) (event : Event) : Journal :=
  (j.record event.level unit event).2

/-- Records events of one unit, one after the other. -/
def logAll (j : Journal) (unit : String) (events : List Event) : Journal :=
  events.foldl (·.log unit) j

/-- The entries that concern a unit. -/
def entriesFor (j : Journal) (unit : String) : List Entry := j.entries.filter (·.unit == unit)

/-- How many entries are kept. -/
def size (j : Journal) : Nat := j.entries.length

@[simp] theorem capacity_record (j : Journal) (level : Level) (unit : String) (event : Event) :
    (j.record level unit event).2.capacity = j.capacity := rfl

end Journal

end HotReload
