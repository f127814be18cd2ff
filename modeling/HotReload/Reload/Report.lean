import HotReload.Reload.Batch
import HotReload.Reload.Journal
import HotReload.Reload.Stats

/-!
# Reports

What a reload or a wrap did. A report is information: all repair has been done when it is made.
-/

namespace HotReload

/-- A **report**: the units recompiled or wrapped in the order of completion, the units given up on,
the units that the scan for references skipped, the counts and the journal. -/
structure Report where
  reloaded : List String
  failures : List Failure
  skippedUnits : List String
  stats : Stats
  events : List Entry
  deriving DecidableEq, Repr, Inhabited

namespace Report

/-- True if nothing failed and nothing was skipped. -/
def isClean (r : Report) : Bool := r.failures.isEmpty && r.skippedUnits.isEmpty

/-- The failure of a unit, if it failed. -/
def failure? (r : Report) (unit : String) : Option Failure := r.failures.find? (·.unit == unit)

/-- The entries of a level. -/
def entriesAt (r : Report) (level : Level) : List Entry := r.events.filter (·.level == level)

/-- A report is clean exactly if it lists neither a failure nor a skipped unit. -/
theorem isClean_iff (r : Report) : r.isClean = true ↔ r.failures = [] ∧ r.skippedUnits = [] := by
  simp [isClean, List.isEmpty_iff]

end Report

end HotReload
