import HotReload.Reload.Event

/-!
# Statistics

How many changes of each kind a repair made. Each step of a repair says what it adds to the counts,
beside the event that is journaled; both together are its *deeds*. The tally of deeds adds up what
the steps have said, and does not look at events. That counts and events agree is a theorem about
the steps.
-/

namespace HotReload

/-- **Counts** of what a repair changed or found missing. -/
structure Stats where
  bindingsRepointed : Nat
  removedSymbols : Nat
  subtypesRepointed : Nat
  removedTypes : Nat
  objectsRetargeted : Nat
  objectsRejected : Nat
  deriving DecidableEq, Repr, Inhabited

namespace Stats

/-- No changes. -/
def zero : Stats := ⟨0, 0, 0, 0, 0, 0⟩

/-- The sums of the counts. -/
def add (a b : Stats) : Stats :=
  ⟨a.bindingsRepointed + b.bindingsRepointed, a.removedSymbols + b.removedSymbols,
    a.subtypesRepointed + b.subtypesRepointed, a.removedTypes + b.removedTypes,
    a.objectsRetargeted + b.objectsRetargeted, a.objectsRejected + b.objectsRejected⟩

instance : Add Stats := ⟨add⟩

/-- True if nothing was changed or found missing. -/
def isZero (s : Stats) : Bool := s == zero

/-- The counts, in the order of the fields. -/
def counts (s : Stats) : List Nat :=
  [s.bindingsRepointed, s.removedSymbols, s.subtypesRepointed, s.removedTypes, s.objectsRetargeted,
    s.objectsRejected]

/-- True if every count is at most `limit`. -/
def fits (limit : Nat) (s : Stats) : Bool := s.counts.all (· ≤ limit)

theorem add_def (a b : Stats) :
    a + b = ⟨a.bindingsRepointed + b.bindingsRepointed, a.removedSymbols + b.removedSymbols,
      a.subtypesRepointed + b.subtypesRepointed, a.removedTypes + b.removedTypes,
      a.objectsRetargeted + b.objectsRetargeted, a.objectsRejected + b.objectsRejected⟩ := rfl

theorem add_assoc (a b c : Stats) : a + b + c = a + (b + c) := by
  simp [add_def, Nat.add_assoc]

@[simp] theorem zero_add (a : Stats) : zero + a = a := by
  simp [add_def, zero]

@[simp] theorem add_zero (a : Stats) : a + zero = a := by
  simp [add_def, zero]

end Stats

/-- A **deed** of a repair: what it adds to the counts, and the event that says what was done. -/
structure Deed where
  counts : Stats
  event : Event
  deriving DecidableEq, Repr, Inhabited

namespace Stats

/-- What deeds add to the counts. -/
def tally : List Deed → Stats
  | [] => zero
  | d :: ds => d.counts + tally ds

/-- Tallies add up. -/
theorem tally_append (ds es : List Deed) : tally (ds ++ es) = tally ds + tally es := by
  induction ds with
  | nil => simp [tally]
  | cons d ds ih => simp [tally, ih, add_assoc]

end Stats

end HotReload
