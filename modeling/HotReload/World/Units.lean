import HotReload.Error
import HotReload.World.Liveness

/-!
# Units and registries

A unit is a named table of exports. A registry finds loaded units by name and remembers the order in
which they were loaded. A unit's identity is not its name: after `World.unload` a second
`World.load` makes a new unit of the same name.

Exports can be written entry by entry, or a whole table at a time with `World.mergeExports` and
`World.replaceExports`. Third parties read them through `World.introspect`, which a sealed unit
refuses.
-/

namespace HotReload.World

variable {σ : Type}

/-! ### Exports -/

/-- What a unit exports. -/
def exports (w : World σ) (u : UnitId) : Table Value := (w.unit u).exports

/-- One export of a unit. -/
def export? (w : World σ) (u : UnitId) (name : String) : Option Value := (w.exports u).get? name

/-- Replaces the export table of a unit. -/
def replaceExports (w : World σ) (u : UnitId) (table : Table Value) : World σ :=
  w.putUnit u { w.unit u with exports := table }

/-- Writes one export of a unit. -/
def setExport (w : World σ) (u : UnitId) (name : String) (v : Value) : World σ :=
  w.replaceExports u ((w.exports u).insert name v)

/-- Removes one export of a unit. -/
def eraseExport (w : World σ) (u : UnitId) (name : String) : World σ :=
  w.replaceExports u ((w.exports u).erase name)

/-- Writes a table over the exports of a unit: names that the table lacks keep their value. -/
def mergeExports (w : World σ) (u : UnitId) (table : Table Value) : World σ :=
  w.replaceExports u ((w.exports u).merge table)

/-- The exports of a unit, unless it is sealed. -/
def introspect (w : World σ) (u : UnitId) : Except IntrospectError (Table Value) :=
  match (w.unit u).sealReason with
  | some reason => .error (.isSealed (w.unit u).name reason)
  | none => .ok (w.exports u)

/-- True if the unit shows its exports. -/
def isOpen (w : World σ) (u : UnitId) : Bool := (w.unit u).sealReason.isNone

/-! ### Registries -/

/-- The loaded unit of a name. -/
def unit? (w : World σ) (r : RegistryId) (name : String) : Option UnitId :=
  (w.registry r).units.get? name

/-- The loaded units, in load order. -/
def unitsOf (w : World σ) (r : RegistryId) : List UnitId := (w.registry r).units.values

/-- Makes a unit without exports and enters it under its name, in the place of a unit that has
it. -/
def enterUnit (w : World σ) (r : RegistryId) (name : String) (sealReason : Option String) :
    UnitId × World σ :=
  let (u, w) := w.newUnit ⟨name, .empty, (w.registry r).heap, sealReason⟩
  (u, w.putRegistry r { w.registry r with units := (w.registry r).units.insert name u })

/-- The unit of a name, made on first use. -/
def load (w : World σ) (r : RegistryId) (name : String) : UnitId × World σ :=
  match w.unit? r name with
  | some u => (u, w)
  -- unloaded before, or never loaded: either way a unit of its own
  | none => w.enterUnit r name none

/-- A new sealed unit under a name. -/
def loadSealed (w : World σ) (r : RegistryId) (name reason : String) : UnitId × World σ :=
  w.enterUnit r name (some reason)

/-- Takes a unit out of a registry. -/
def unload (w : World σ) (r : RegistryId) (name : String) : World σ :=
  w.putRegistry r { w.registry r with units := (w.registry r).units.erase name }

/-! ### Small laws -/

@[simp] theorem exports_replaceExports_self (w : World σ) (u : UnitId) (table : Table Value) :
    (w.replaceExports u table).exports u = table := by
  simp [exports, replaceExports, unit_putUnit]

theorem exports_replaceExports (w : World σ) (u v : UnitId) (table : Table Value) :
    (w.replaceExports u table).exports v = if v = u then table else w.exports v := by
  simp only [exports, replaceExports, unit_putUnit]
  split <;> rfl

/-- A write to a slot changes that slot and no other. -/
theorem export?_setExport (w : World σ) (u v : UnitId) (x name : String) (a : Value) :
    (w.setExport u x a).export? v name =
      if v = u ∧ name = x then some a else w.export? v name := by
  simp only [export?, setExport, exports_replaceExports]
  by_cases hv : v = u
  · subst hv
    simp [Table.get?_insert]
  · simp [hv]

@[simp] theorem type_replaceExports (w : World σ) (u : UnitId) (table : Table Value) (t : TypeId) :
    (w.replaceExports u table).type t = w.type t := rfl

@[simp] theorem object_replaceExports (w : World σ) (u : UnitId) (table : Table Value)
    (o : ObjectId) : (w.replaceExports u table).object o = w.object o := rfl

@[simp] theorem callable_replaceExports (w : World σ) (u : UnitId) (table : Table Value)
    (c : CallableId) : (w.replaceExports u table).callable c = w.callable c := rfl

end HotReload.World
