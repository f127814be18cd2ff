import HotReload.Reload.Ownership
import HotReload.World.Units

/-!
# Snapshots

A *snapshot* copies the export tables of the target units before a reload. The definitions in them
are the *stale* ones: those that the reload may replace. Staleness is a matter of identity, so a
definition made later is never stale, whatever its name.
-/

namespace HotReload

/-- A **snapshot**: the target units with their export tables, by unit name and in the order in
which they were captured, and the stale definitions. -/
structure Snapshot where
  tables : Table (UnitId × Table Value)
  stale : List Definition
  deriving Inhabited

namespace Snapshot

variable {σ : Type}

/-- The snapshot of no units. -/
def empty : Snapshot := ⟨.empty, []⟩

/-- The snapshot with one more unit, whose exports are `table`. -/
def add (s : Snapshot) (u : UnitId) (name : String) (table : Table Value) : Snapshot :=
  { tables := s.tables.insert name (u, table)
    stale := s.stale ++ (table.definitions.map (·.2)).filter (!s.stale.contains ·) }

/-- Adds units one after the other. The first one that refuses introspection fails the whole. -/
def addAll (w : World σ) : List UnitId → Snapshot → Except IntrospectError Snapshot
  | [], s => .ok s
  | u :: us, s =>
    match w.introspect u with
    | .error e => .error e
    | .ok table => addAll w us (s.add u (w.unit u).name table)

/-- **Capture.** The snapshot of the given units. -/
def capture (w : World σ) (units : List UnitId) : Except IntrospectError Snapshot :=
  addAll w units empty

/-- True if a target exported the definition. -/
def isStale (s : Snapshot) (d : Definition) : Bool := s.stale.contains d

/-- The target units. -/
def units (s : Snapshot) : List UnitId := s.tables.values.map (·.1)

/-- What the named target exported. -/
def exports? (s : Snapshot) (unit : String) : Option (Table Value) := (s.tables.get? unit).map (·.2)

/-- How many definitions are stale. -/
def staleCount (s : Snapshot) : Nat := s.stale.eraseDups.length

/-- The types that the named target exported and owned, in export order, each of them once. -/
def ownTypes (s : Snapshot) (w : World σ) (unit : String) : List TypeId :=
  match s.exports? unit with
  -- a unit that is no target has nothing to be succeeded
  | none => []
  | some table => (typesAmong (w.ownDefinitions unit table)).eraseDups

/-- The nodes that the snapshot keeps alive. -/
def nodes (s : Snapshot) : List Node :=
  s.tables.values.flatMap fun t => .unit t.1 :: t.2.values.flatMap Value.nodes

end Snapshot

end HotReload
