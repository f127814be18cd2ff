import HotReload.Error
import HotReload.World.Types

/-!
# Objects and heaps

An object has a type, which `World.retarget` can change as long as the storage of the old and the
new type agree, and a table of fields. A heap finds the objects registered in it. Its operations are
those of `Heap`, with liveness in the world as the test.
-/

namespace HotReload

/-- True if objects can move between the two layouts. -/
def Layout.agrees : Layout → Layout → Bool
  | .dynamic, .dynamic => true
  | .fixed a, .fixed b => a == b
  | _, _ => false

namespace World

variable {σ : Type}

/-! ### Retargeting -/

/-- What stands in the way of moving an object from one type to another. -/
def retypeError? (w : World σ) (source target : TypeId) : Option RetypeError :=
  if source = target then none
  -- a refusal names the type that is to blame, and the old one is asked first
  else if (w.type source).layout = .native then some (.native (w.typeName source).text)
  else if (w.type target).layout = .native then some (.native (w.typeName target).text)
  else if (w.type source).layout.agrees (w.type target).layout then none
  else some (.layoutMismatch (w.typeName source).text (w.typeName target).text)

/-- Points an object at another type, which leaves its fields as they are. -/
def setTypeOf (w : World σ) (o : ObjectId) (t : TypeId) : World σ :=
  w.putObject o { w.object o with type := t }

/-- **Retargeting.** Moves an object to another type, or says why not. -/
def retarget (w : World σ) (o : ObjectId) (t : TypeId) : Except RetypeError (World σ) :=
  match w.retypeError? (w.object o).type t with
  | some e => .error e
  | none => .ok (w.setTypeOf o t)

/-- True if the type of the object is a subtype of `t`. -/
def isInstance (w : World σ) (o : ObjectId) (t : TypeId) : Bool := w.isSubtype (w.object o).type t

/-! ### Fields -/

/-- A field of an object. -/
def field? (w : World σ) (o : ObjectId) (name : String) : Option Value :=
  (w.object o).fields.get? name

/-- Writes a field of an object. -/
def setField (w : World σ) (o : ObjectId) (name : String) (v : Value) : World σ :=
  w.putObject o { w.object o with fields := (w.object o).fields.insert name v }

/-! ### Heaps -/

variable [Host σ]

/-- Drops the dead entries of a heap. -/
def sweepHeap (w : World σ) (h : HeapId) : World σ :=
  let living := w.living
  w.putHeap h ((w.heap h).sweep fun o => living.contains (.object o))

/-- Drops the dead entries of a heap, and tells how many they were. -/
def prune (w : World σ) (h : HeapId) : Nat × World σ :=
  let living := w.living
  ((w.heap h).deadCount fun o => living.contains (.object o), w.sweepHeap h)

/-- Registers an object in a heap, sweeping first if that is due. -/
def register (w : World σ) (h : HeapId) (o : ObjectId) : World σ :=
  let w := if (w.heap h).isDue then w.sweepHeap h else w
  -- the sweep is over, so nobody asks whether the new object is alive
  w.putHeap h ((w.heap h).push o)

/-- The living objects of a heap, in registration order. -/
def livingIn (w : World σ) (h : HeapId) : List ObjectId :=
  let living := w.living
  (w.heap h).living fun o => living.contains (.object o)

/-- The living objects of a heap. The dead entries are swept out on the way. -/
def liveObjects (w : World σ) (h : HeapId) : List ObjectId × World σ :=
  (w.livingIn h, w.sweepHeap h)

/-- What registration does to the heap. -/
theorem heap_register (w : World σ) (h : HeapId) (o : ObjectId) :
    (w.register h o).heap h =
      (w.heap h).register (fun p => w.living.contains (.object p)) o := by
  simp only [register, heap_putHeap, if_true, Heap.register, sweepHeap]
  split <;> simp [heap_putHeap]

omit [Host σ] in
@[simp] theorem fields_setTypeOf (w : World σ) (o p : ObjectId) (t : TypeId) :
    ((w.setTypeOf o t).object p).fields = (w.object p).fields := by
  simp only [setTypeOf, object_putObject]
  split
  · next h => rw [h]
  · rfl

end World

end HotReload
