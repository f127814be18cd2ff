import HotReload.Scenario.Stage

/-!
# Steps about variables, registries and units
-/

namespace HotReload.Scenario

open Play

/-- The units of a registry, each with whether it is sealed. -/
def unitsAnswer (w : World Stage) (r : RegistryId) : Answer :=
  let us := w.unitsOf r
  .record
    [("units", .list (us.map fun u => .list [.value w (.unit u), .bool (!w.isOpen u)])),
     ("len", .count us.length),
     ("empty", .bool us.isEmpty)]

/-- The units of a registry with what they export, and how many objects of its heap are alive. -/
def dumpAnswer (w : World Stage) (r : RegistryId) : Answer :=
  .record
    [("units", .list ((w.unitsOf r).map fun u =>
        .list [.value w (.unit u), .table w (w.exports u)])),
     ("live", .count (w.livingIn (w.registry r).heap).length)]

/-- The definitions that a unit exports: all, those that it owns, and those of other units. -/
def indexAnswer (w : World Stage) (u : UnitId) (table : Table Value) : Answer :=
  let name := (w.unit u).name
  .record
    [("all", .definitions w table.definitions),
     ("internal", .definitions w (w.ownDefinitions name table)),
     ("external", .definitions w (w.foreignDefinitions name table))]

/-- A value that may be absent. -/
def valueAnswer? (w : World Stage) (v : Option Value) : Answer := .present? (v.map (.value w))

/-- Makes a heap. -/
def makeHeap : Play HeapId := do
  let (h, w) := (← get).newHeap
  set w
  return h

/-- The heap of a registry. -/
def heapOfRegistry (r : RegistryId) : Play HeapId := do return ((← get).registry r).heap

namespace UnitStep

/-- Performs a step about variables, registries or units. -/
def perform : UnitStep → Play Answer
  | assign target v => do answer target (← value v)
  | drop var => do return .bool (← dropVar var)
  | registry name heapOf => do
    let h ← match heapOf with
      | some other => heapOfRegistry (← registryOf other)
      | none => makeHeap
    let (r, w) := (← get).newRegistry h
    set w
    onStage fun s => { s with registries := s.registries.insert name r }
    return .null
  | load target name => do
    let (u, w) := (← get).load (← read).registry name
    set w
    answer target (.unit u)
  | loadSealed target name reason => do
    let (u, w) := (← get).loadSealed (← read).registry name reason
    set w
    answer target (.unit u)
  | unload name => do
    let w ← get
    let r := (← read).registry
    set (w.unload r name)
    return valueAnswer? w ((w.unit? r name).map .unit)
  | units => do return unitsAnswer (← get) (← read).registry
  | contains name => do return .bool ((← get).unit? (← read).registry name).isSome
  | dump => do return dumpAnswer (← get) (← read).registry
  | setExport u name v => do
    let u ← unit u
    let v ← value v
    let w ← get
    set (w.setExport u name v)
    return valueAnswer? w (w.export? u name)
  | getExport target u name => do
    let u ← unit u
    answer? target ((← get).export? u name)
  | removeExport u name => do
    let u ← unit u
    let w ← get
    set (w.eraseExport u name)
    return valueAnswer? w (w.export? u name)
  | exports u => do
    let u ← unit u
    let w ← get
    return .table w (w.exports u)
  | introspect u => do
    let u ← unit u
    let w ← get
    return .table w (← ofExcept .introspect (w.introspect u))
  | merge u table => do
    let u ← unit u
    let table ← tableOf table
    modify fun w => w.mergeExports u table
    let w ← get
    return .table w (w.exports u)
  | replace u table => do
    let u ← unit u
    let table ← tableOf table
    let old := (← get).exports u
    modify fun w => w.replaceExports u table
    let w ← get
    return .list [.table w old, .table w (w.exports u)]
  | index u => do
    let u ← unit u
    let w ← get
    return indexAnswer w u (← ofExcept .introspect (w.introspect u))
  | ownExports owner u => do
    let u ← unit u
    let w ← get
    return .definitions w (w.ownDefinitions owner (w.exports u))

end UnitStep

end HotReload.Scenario
