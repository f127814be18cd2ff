import HotReload.Datum
import HotReload.Reload.Config
import HotReload.Toml.Document

/-!
# Reading configurations

A configuration is read from a record whose missing keys take their standard values and whose other
keys are passed over. The values can also be given without their keys, as a list in the order of the
keys.

A number outside the range of its key is as unreadable as a value of the wrong kind, so what was
read may still be unusable only in the ways that `Config.fault?` finds.
-/

namespace HotReload

/-- The formats in which a configuration can be written. -/
inductive Format where
  | json
  | toml
  deriving DecidableEq, Repr

namespace Datum

/-- True for the datum that stands for no data after the name of a mode. -/
def isUnit (form : Format) : Datum → Bool
  | null => form = .json
  | list [] => form = .toml
  | record [] => form = .toml
  | _ => false

/-- A natural number up to a limit. -/
def nat? (limit : Nat) : Datum → Option Nat
  | int n => if 0 ≤ n ∧ n ≤ limit then some n.toNat else none
  | _ => none

/-- A truth value. -/
def bool? : Datum → Option Bool
  | bool b => some b
  | _ => none

end Datum

/-- The mode of a name. -/
def InstallMode.ofName? : String → Option InstallMode
  | "merge" => some .merge
  | "replace" => some .replace
  | _ => none

/-- A mode: its name, or a record that has its name as only key. -/
def InstallMode.ofDatum? (form : Format) : Datum → Option InstallMode
  | .text name => ofName? name
  | .record [(name, d)] => if d.isUnit form then ofName? name else none
  | _ => none

namespace Config

/-- The largest retry budget. -/
def maxBudget : Nat := UInt32.size - 1

/-- The largest journal capacity. -/
def maxCapacity : Nat := UInt64.size - 1

/-- The keys of a configuration, in order. -/
def keys : List String :=
  ["retry_budget", "install_mode", "journal_capacity", "log_removed_symbols"]

/-- A journal capacity; null stands for none. -/
def capacity? : Datum → Option (Option Nat)
  | .null => some none
  | d => (d.nat? maxCapacity).map some

/-- A configuration with the value of one key. Unknown keys change nothing. -/
def put? (form : Format) (c : Config) (key : String) (d : Datum) : Option Config :=
  match key with
  | "retry_budget" => (d.nat? maxBudget).map ({ c with retryBudget := · })
  | "install_mode" => (InstallMode.ofDatum? form d).map ({ c with installMode := · })
  | "journal_capacity" => (capacity? d).map ({ c with journalCapacity := · })
  | "log_removed_symbols" => d.bool?.map ({ c with logRemovedSymbols := · })
  | _ => some c

/-- **Reading** of a configuration. -/
def ofDatum? (form : Format) : Datum → Option Config
  | .record entries => entries.foldlM (fun c e => c.put? form e.1 e.2) standard
  | .list items =>
    -- fewer items leave the last keys at their standard values
    if items.length ≤ keys.length then
      (keys.zip items).foldlM (fun c e => c.put? form e.1 e.2) standard
    else none
  | _ => none

/-- Why a text is no configuration that can be used. -/
inductive ReadError where
  /-- The text does not describe a configuration. -/
  | unreadable
  /-- The configuration cannot be used. -/
  | unusable (e : ConfigError)
  deriving DecidableEq, Repr, Inhabited

/-- Reads a configuration and checks it. -/
def read (form : Format) (d : Option Datum) : Except ReadError Config :=
  match d.bind (ofDatum? form) with
  | none => .error .unreadable
  | some c =>
    match c.fault? with
    | some e => .error (.unusable e)
    | none => .ok c

/-- Reads a configuration from a TOML document and checks it. -/
def ofToml (source : String) : Except ReadError Config := read .toml (Toml.parse source)

end Config

end HotReload
