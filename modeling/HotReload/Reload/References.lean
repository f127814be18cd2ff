import HotReload.Reload.Snapshot

/-!
# References to stale definitions

Before a reload recompiles anything, every loaded unit is scanned for export slots that hold a stale
definition of another unit. A slot found is a *binding*. The repair looks bindings up by qualified
name, which the old and the new definition share.

A unit that refuses introspection is skipped, and its slots will not be repaired.
-/

namespace HotReload

/-- A **binding**: an export slot of `holder` that held the stale definition `stale`, called
`key`. -/
structure ExternalBinding where
  holder : UnitId
  localName : String
  stale : Definition
  key : QualifiedName
  deriving DecidableEq, Repr

/-- The bindings found by a scan, in load order and export order, and the units that it skipped,
each with the reason. -/
structure References where
  bindings : List ExternalBinding
  skipped : List (String × IntrospectError)
  deriving Inhabited

namespace References

variable {σ : Type}

/-- The bindings of one unit, given its exports. -/
def ofTable (w : World σ) (s : Snapshot) (u : UnitId) (table : Table Value) :
    List ExternalBinding :=
  ((w.foreignDefinitions (w.unit u).name table).filter fun e => s.isStale e.2).map fun e =>
    ⟨u, e.1, e.2, w.nameOf e.2⟩

/-- **Scan.** The bindings of the given units. -/
def scan (w : World σ) (s : Snapshot) : List UnitId → References
  | [] => ⟨[], []⟩
  | u :: us =>
    let rest := scan w s us
    match w.introspect u with
    | .ok table => { rest with bindings := ofTable w s u table ++ rest.bindings }
    -- no failure: the slots of this unit are lost to the repair, and that is reported
    | .error e => { rest with skipped := ((w.unit u).name, e) :: rest.skipped }

/-- The bindings to definitions of this name. -/
def holders (r : References) (key : QualifiedName) : List ExternalBinding :=
  r.bindings.filter (·.key == key)

/-- The distinct names that bindings go by. -/
def keys (r : References) : List QualifiedName := (r.bindings.map (·.key)).eraseDups

/-- The names that bindings to definitions of the named unit go by, in order and each of them
once. -/
def keysOwnedBy (r : References) (unit : String) : List QualifiedName :=
  QualifiedName.orderedSet ((r.bindings.map (·.key)).filter (·.isIn unit))

/-- The names of the units that were skipped. -/
def skippedUnits (r : References) : List String := r.skipped.map (·.1)

/-- The nodes that the bindings keep alive. -/
def nodes (r : References) : List Node :=
  r.bindings.flatMap fun b => .unit b.holder :: (Value.definition b.stale).nodes

end References

end HotReload
