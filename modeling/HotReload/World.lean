import HotReload.Expr
import HotReload.Heap
import HotReload.Node
import HotReload.QualifiedName
import HotReload.Store
import HotReload.Table

/-!
# Worlds

A *world* is the state of a running program that can be reloaded: its units, callables, types and
objects, the heaps that track the objects and the registries that hold the units. Whatever else the
host keeps (variables, sources, open sessions) is its own state `σ`, which the engine carries along
and never reads.

Cells refer to each other by identity. `World.unit`, `World.callable`, `World.type`, `World.object`,
`World.heap` and `World.registry` read a cell; the `put` functions write one; the `new` functions
allocate one and return its identity. Nothing is ever freed: what is still alive is a question of
reachability, answered in `HotReload.World.Liveness`.

Some references keep what they refer to alive and some do not. A type's `subtypes`, a heap's entries
and the `home` of a callable or a type do not.
-/

namespace HotReload

/-- How a member is bound when it is called through an object or a type. -/
inductive Binding where
  /-- Receives the object. -/
  | onObject
  /-- Receives the type it was resolved on. -/
  | onType
  /-- Receives no receiver. -/
  | static
  deriving DecidableEq, Repr, Inhabited

/-- How the objects of a type store their fields. -/
inductive Layout where
  /-- An open field table, which any other dynamic type can take over. -/
  | dynamic
  /-- Fixed slots, which only a type with the same slots can take over. -/
  | fixed (slots : List String)
  /-- Storage of the host, never taken over. -/
  | native
  deriving DecidableEq, Repr, Inhabited

/-- A **unit of code**: a named table of exports. A sealed unit refuses introspection and says
why. -/
structure CodeUnit where
  name : String
  exports : Table Value
  heap : HeapId
  sealReason : Option String
  deriving Inhabited

/-- A **callable**. Its globals are looked up in its home unit at the time of the call. A wrapper
knows the callable that it wraps. -/
structure Callable where
  owner : String
  name : String
  home : Option UnitId
  body : Expr
  inner : Option CallableId
  deriving Inhabited

/-- A callable attached to a type. -/
structure Member where
  callable : CallableId
  binding : Binding
  deriving DecidableEq, Repr, Inhabited

/-- A **type**. `ancestors` are its direct ancestors in declaration order; `subtypes` are the types
that list it as a direct ancestor, dead ones included. -/
structure TypeDecl where
  owner : String
  name : String
  home : UnitId
  layout : Layout
  ancestors : List TypeId
  subtypes : List TypeId
  members : Table Member
  deriving Inhabited

/-- An **object**: its current type and its fields. -/
structure Object where
  type : TypeId
  fields : Table Value
  deriving Inhabited

/-- A **registry**: the loaded units in load order and the heap that they share. -/
structure Registry where
  units : Table UnitId
  heap : HeapId
  deriving Inhabited

/-- Identity of the guard that serialises the calls of one reloader. -/
structure GuardId where
  index : Nat
  deriving DecidableEq, Repr, Inhabited

/-- A **world** with host state `σ`. `pins` are the nodes that running code holds on to. -/
structure World (σ : Type) where
  units : Store CodeUnit
  callables : Store Callable
  types : Store TypeDecl
  objects : Store Object
  heaps : Store Heap
  registries : Store Registry
  guards : Store Bool
  pins : NumberedSet Node
  host : σ

namespace World

variable {σ : Type}

/-- The world in which nothing has been loaded. -/
def initial (host : σ) : World σ :=
  { units := .empty, callables := .empty, types := .empty, objects := .empty, heaps := .empty,
    registries := .empty, guards := .empty, pins := .empty, host := host }

/-! ### Reading cells -/

/-- The unit of this identity. -/
def unit (w : World σ) (u : UnitId) : CodeUnit := w.units.get u.index

/-- The callable of this identity. -/
def callable (w : World σ) (c : CallableId) : Callable := w.callables.get c.index

/-- The type of this identity. -/
def type (w : World σ) (t : TypeId) : TypeDecl := w.types.get t.index

/-- The object of this identity. -/
def object (w : World σ) (o : ObjectId) : Object := w.objects.get o.index

/-- The heap of this identity. -/
def heap (w : World σ) (h : HeapId) : Heap := w.heaps.get h.index

/-- The registry of this identity. -/
def registry (w : World σ) (r : RegistryId) : Registry := w.registries.get r.index

/-- True while a call holds the guard. -/
def isHeld (w : World σ) (g : GuardId) : Bool := w.guards.get g.index

/-! ### Writing cells -/

/-- Writes a unit. -/
def putUnit (w : World σ) (u : UnitId) (cell : CodeUnit) : World σ :=
  { w with units := w.units.set u.index cell }

/-- Writes a type. -/
def putType (w : World σ) (t : TypeId) (cell : TypeDecl) : World σ :=
  { w with types := w.types.set t.index cell }

/-- Writes an object. -/
def putObject (w : World σ) (o : ObjectId) (cell : Object) : World σ :=
  { w with objects := w.objects.set o.index cell }

/-- Writes a heap. -/
def putHeap (w : World σ) (h : HeapId) (cell : Heap) : World σ :=
  { w with heaps := w.heaps.set h.index cell }

/-- Writes a registry. -/
def putRegistry (w : World σ) (r : RegistryId) (cell : Registry) : World σ :=
  { w with registries := w.registries.set r.index cell }

/-- Takes or releases a guard. -/
def putGuard (w : World σ) (g : GuardId) (held : Bool) : World σ :=
  { w with guards := w.guards.set g.index held }

/-! ### Allocating cells -/

/-- A new unit. -/
def newUnit (w : World σ) (cell : CodeUnit) : UnitId × World σ :=
  (⟨w.units.size⟩, { w with units := (w.units.alloc cell).2 })

/-- A new callable. -/
def newCallable (w : World σ) (cell : Callable) : CallableId × World σ :=
  (⟨w.callables.size⟩, { w with callables := (w.callables.alloc cell).2 })

/-- A new type cell, not yet known to its ancestors. -/
def newType (w : World σ) (cell : TypeDecl) : TypeId × World σ :=
  (⟨w.types.size⟩, { w with types := (w.types.alloc cell).2 })

/-- A new object of a type, without fields and in no heap. -/
def newObject (w : World σ) (t : TypeId) : ObjectId × World σ :=
  (⟨w.objects.size⟩, { w with objects := (w.objects.alloc ⟨t, .empty⟩).2 })

/-- A new heap. -/
def newHeap (w : World σ) : HeapId × World σ :=
  (⟨w.heaps.size⟩, { w with heaps := (w.heaps.alloc .empty).2 })

/-- A new registry without units over a heap. -/
def newRegistry (w : World σ) (h : HeapId) : RegistryId × World σ :=
  (⟨w.registries.size⟩, { w with registries := (w.registries.alloc ⟨.empty, h⟩).2 })

/-- A new guard, which nobody holds. -/
def newGuard (w : World σ) : GuardId × World σ :=
  (⟨w.guards.size⟩, { w with guards := (w.guards.alloc false).2 })

/-! ### Pins -/

/-- Pins more nodes. -/
def pin (w : World σ) (nodes : List Node) : World σ :=
  { w with pins := nodes.foldl NumberedSet.insert w.pins }

/-- Runs `act` with more nodes pinned and unpins them afterwards. -/
def holding {α : Type} (nodes : List Node) (act : World σ → α × World σ) (w : World σ) :
    α × World σ :=
  let pins := w.pins
  let (a, w') := act (w.pin nodes)
  -- what `act` has pinned on its own account is let go as well
  (a, { w' with pins := pins })

/-- What is pinned afterwards: the new nodes and those that were pinned before. -/
theorem contains_pins_pin (w : World σ) (nodes : List Node) (n : Node) :
    (w.pin nodes).pins.contains n = true ↔ n ∈ nodes ∨ w.pins.contains n = true := by
  simp only [pin]
  generalize w.pins = pins
  induction nodes generalizing pins with
  | nil => simp
  | cons m ms ih =>
    -- the induction is on the new nodes, for any set that they are added to
    rw [List.foldl_cons, ih, NumberedSet.contains_insert, List.mem_cons]
    exact ⟨fun h => h.elim (.inl ∘ .inr) fun h => h.elim (.inl ∘ .inl) .inr,
      fun h => h.elim (fun h => h.elim (.inr ∘ .inl) .inl) (.inr ∘ .inr)⟩

/-- Afterwards the pins are what they have been. -/
@[simp] theorem pins_holding {α : Type} (nodes : List Node) (act : World σ → α × World σ)
    (w : World σ) : (w.holding nodes act).2.pins = w.pins := rfl

/-! ### Frame laws -/

/-- What is read after a write is what was written, at that place. The other sorts of cells
follow. -/
theorem unit_putUnit (w : World σ) (u v : UnitId) (cell : CodeUnit) :
    (w.putUnit u cell).unit v = if v = u then cell else w.unit v := by
  cases u; cases v; simp [putUnit, unit, Store.get_set]

theorem type_putType (w : World σ) (t s : TypeId) (cell : TypeDecl) :
    (w.putType t cell).type s = if s = t then cell else w.type s := by
  cases t; cases s; simp [putType, type, Store.get_set]

theorem object_putObject (w : World σ) (o p : ObjectId) (cell : Object) :
    (w.putObject o cell).object p = if p = o then cell else w.object p := by
  cases o; cases p; simp [putObject, object, Store.get_set]

theorem heap_putHeap (w : World σ) (h k : HeapId) (cell : Heap) :
    (w.putHeap h cell).heap k = if k = h then cell else w.heap k := by
  cases h; cases k; simp [putHeap, heap, Store.get_set]

theorem registry_putRegistry (w : World σ) (r s : RegistryId) (cell : Registry) :
    (w.putRegistry r cell).registry s = if s = r then cell else w.registry s := by
  cases r; cases s; simp [putRegistry, registry, Store.get_set]

theorem isHeld_putGuard (w : World σ) (g k : GuardId) (held : Bool) :
    (w.putGuard g held).isHeld k = if k = g then held else w.isHeld k := by
  cases g; cases k; simp [putGuard, isHeld, Store.get_set]

/-- A write to one store leaves the other ones alone. -/
@[simp] theorem type_putUnit (w : World σ) (u : UnitId) (cell : CodeUnit) (t : TypeId) :
    (w.putUnit u cell).type t = w.type t := rfl

@[simp] theorem object_putUnit (w : World σ) (u : UnitId) (cell : CodeUnit) (o : ObjectId) :
    (w.putUnit u cell).object o = w.object o := rfl

@[simp] theorem callable_putUnit (w : World σ) (u : UnitId) (cell : CodeUnit) (c : CallableId) :
    (w.putUnit u cell).callable c = w.callable c := rfl

@[simp] theorem unit_putType (w : World σ) (t : TypeId) (cell : TypeDecl) (u : UnitId) :
    (w.putType t cell).unit u = w.unit u := rfl

@[simp] theorem object_putType (w : World σ) (t : TypeId) (cell : TypeDecl) (o : ObjectId) :
    (w.putType t cell).object o = w.object o := rfl

@[simp] theorem callable_putType (w : World σ) (t : TypeId) (cell : TypeDecl) (c : CallableId) :
    (w.putType t cell).callable c = w.callable c := rfl

@[simp] theorem unit_putObject (w : World σ) (o : ObjectId) (cell : Object) (u : UnitId) :
    (w.putObject o cell).unit u = w.unit u := rfl

@[simp] theorem type_putObject (w : World σ) (o : ObjectId) (cell : Object) (t : TypeId) :
    (w.putObject o cell).type t = w.type t := rfl

end World

end HotReload
