import HotReload.World.Description

/-!
# Configuration

How often a unit is attempted, how its new table is installed, and what the journal keeps.
-/

namespace HotReload

/-- The version of the library. -/
def version : String := "0.1.0"

/-- How a recompiled table is applied to its unit. -/
inductive InstallMode where
  /-- Names of the new table overwrite, all others are kept. -/
  | merge
  /-- The new table takes the place of the old one. -/
  | replace
  deriving DecidableEq, Repr, Inhabited

/-- The name of a mode in descriptions. -/
def InstallMode.description : InstallMode → String
  | merge => "Merge"
  | replace => "Replace"

/-- A **configuration**. -/
structure Config where
  /-- Attempts per unit and batch. -/
  retryBudget : Nat
  installMode : InstallMode
  /-- How many entries the journal of a session keeps; all if absent. -/
  journalCapacity : Option Nat
  /-- Whether references to a definition without successor are journaled. -/
  logRemovedSymbols : Bool
  deriving DecidableEq, Repr

/-- What makes a configuration unusable. -/
inductive ConfigError where
  | zeroRetryBudget
  | zeroJournalCapacity
  deriving DecidableEq, Repr, Inhabited

/-- The wording of a configuration error. -/
def ConfigError.message : ConfigError → String
  | zeroRetryBudget => "retry budget must be at least 1"
  | zeroJournalCapacity => "journal capacity must be at least 1"

namespace Config

/-- How often a unit is attempted unless the configuration says otherwise. -/
def defaultRetryBudget : Nat := 10

/-- The configuration of a host that sets nothing. -/
def standard : Config := ⟨defaultRetryBudget, .merge, none, true⟩

instance : Inhabited Config := ⟨standard⟩

/-- The first fault of a configuration. The budget is looked at before the capacity. -/
def fault? (c : Config) : Option ConfigError :=
  if c.retryBudget = 0 then some .zeroRetryBudget
  else if c.journalCapacity = some 0 then some .zeroJournalCapacity
  else none

/-- The written form of a configuration. -/
def description (c : Config) : String :=
  described "ReloadConfig"
    [("retry_budget", toString c.retryBudget),
     ("install_mode", c.installMode.description),
     ("journal_capacity", describedOption (c.journalCapacity.map toString)),
     ("log_removed_symbols", describedBool c.logRemovedSymbols)]

end Config

end HotReload
