import HotReload.Value

/-!
# Heaps

A *heap* remembers the objects constructed in the units that share it, so that a reload can find
them. It does not keep them alive. Which objects are alive is not the heap's business, so the
operations that need to know take a test `live`.

An entry whose object has died stays until a *sweep*. Registration sweeps first when the entries
have doubled since the last sweep, and no sooner than at `Heap.minSweep` entries, which keeps the
length within twice the number that the last sweep left (`Heap.length_entries_push_le`).
-/

namespace HotReload

/-- A **heap**: the registered objects, dead ones included and the newest one first, how many they
are, and the length at which registration sweeps. -/
structure Heap where
  newestFirst : List ObjectId
  tracked : Nat
  sweepAt : Nat
  tracked_eq : tracked = newestFirst.length := by rfl

namespace Heap

/-- Below this many entries registration does not sweep. -/
def minSweep : Nat := 64

/-- The heap without entries. -/
def empty : Heap := { newestFirst := [], tracked := 0, sweepAt := 0 }

instance : Inhabited Heap := ⟨empty⟩

/-- The entries in registration order, dead ones included. -/
def entries (h : Heap) : List ObjectId := h.newestFirst.reverse

/-- True if the next registration has to sweep first. -/
def isDue (h : Heap) : Bool :=
  -- an empty heap has never been swept, so the least length counts as well
  h.tracked ≥ max h.sweepAt minSweep

/-- The entries whose object is alive, in registration order. -/
def living (live : ObjectId → Bool) (h : Heap) : List ObjectId := h.entries.filter live

/-- Drops the dead entries and sets the length at which the next sweep is due. -/
def sweep (live : ObjectId → Bool) (h : Heap) : Heap :=
  let kept := h.newestFirst.filter live
  { newestFirst := kept, tracked := kept.length, sweepAt := max (2 * kept.length) minSweep }

/-- How many entries a sweep drops. -/
def deadCount (live : ObjectId → Bool) (h : Heap) : Nat := h.tracked - (h.living live).length

/-- Appends an entry. -/
def push (o : ObjectId) (h : Heap) : Heap :=
  { h with
    newestFirst := o :: h.newestFirst
    tracked := h.tracked + 1
    tracked_eq := by simp [h.tracked_eq] }

/-- Registers an object, sweeping first if that is due. -/
def register (live : ObjectId → Bool) (o : ObjectId) (h : Heap) : Heap :=
  (if h.isDue then h.sweep live else h).push o

theorem length_entries (h : Heap) : h.entries.length = h.tracked := by
  simp [entries, h.tracked_eq]

@[simp] theorem entries_push (o : ObjectId) (h : Heap) : (h.push o).entries = h.entries ++ [o] := by
  simp [entries, push]

/-- A sweep leaves the living entries. -/
@[simp] theorem entries_sweep (live : ObjectId → Bool) (h : Heap) :
    (h.sweep live).entries = h.living live := by
  simp [entries, sweep, living, List.filter_reverse]

@[simp] theorem living_sweep (live : ObjectId → Bool) (h : Heap) :
    (h.sweep live).living live = h.living live := by
  rw [living, entries_sweep]
  simp [living]

/-- A registration adds one entry to the living ones and loses none. -/
theorem living_register (live : ObjectId → Bool) (o : ObjectId) (h : Heap) :
    (h.register live o).living live = h.living live ++ [o].filter live := by
  simp only [register]
  split <;> simp [living]

/-- An entry is only added below the length at which a sweep is due. -/
theorem length_entries_push_le (o : ObjectId) (h : Heap) (hd : h.isDue = false) :
    (h.push o).tracked ≤ max h.sweepAt minSweep := by
  simp [isDue, push] at *
  omega

end Heap

end HotReload
