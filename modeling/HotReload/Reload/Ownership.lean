import HotReload.World.Types

/-!
# Ownership of exports

A unit exports definitions that it owns and definitions that it holds a copy of. Ownership goes by
the name of the unit, not by its identity.
-/

namespace HotReload

/-- The entries of a table that hold definitions, in table order. -/
def Table.definitions (table : Table Value) : List (String × Definition) :=
  table.entries.filterMap fun e => e.2.definition?.map (e.1, ·)

/-- The types among entries, in order. -/
def typesAmong (defs : List (String × Definition)) : List TypeId := defs.filterMap (·.2.type?)

namespace World

variable {σ : Type} (w : World σ)

/-- True if the named unit owns the definition. -/
def owns (unit : String) (d : Definition) : Bool := w.ownerOf d == unit

/-- The entries of a table that hold definitions owned by the named unit. -/
def ownDefinitions (unit : String) (table : Table Value) : List (String × Definition) :=
  table.definitions.filter fun e => w.owns unit e.2

/-- The entries of a table that hold definitions of other units. -/
def foreignDefinitions (unit : String) (table : Table Value) : List (String × Definition) :=
  table.definitions.filter fun e => !w.owns unit e.2

end World

end HotReload
