import HotReload.Scenario.Stage

/-!
# Steps about objects, heaps and values
-/

namespace HotReload.Scenario

open Play

/-- The heap of the registry of a step. -/
def heapHere : Play HeapId := do return ((← get).registry (← read).registry).heap

/-- How many entries of a heap are alive, how many there are, and whether none is alive. -/
def heapAnswer (w : World Stage) (h : HeapId) : Answer :=
  let n := (w.livingIn h).length
  .record
    [("len", .count n), ("tracked", .count (w.heap h).tracked), ("empty", .bool (n == 0))]

/-- What there is to say about a value. -/
def valueReport (v : Value) : Answer :=
  .record
    [("kind", .text v.kind),
     ("nil", .bool (v == .nil)),
     ("str", .text? v.str?),
     ("int", (v.int?.map fun n => .int n.toInt).getD .null),
     ("is", .list [.bool v.definition?.isSome, .bool v.callable?.isSome, .bool v.type?.isSome,
        .bool v.object?.isSome, .bool v.unit?.isSome])]

/-- Constructs objects of a type and lets go of each of them at once. -/
def constructTransient (t : TypeId) : Nat → Play Unit
  | 0 => pure ()
  | n + 1 => do
    discard (ofAct (World.construct World.run t []))
    constructTransient t n

namespace ObjectStep

/-- Performs a step about objects, heaps or values. -/
def perform : ObjectStep → Play Answer
  | make target subject => do
    let t ← type subject
    let (o, w) := (← get).newObject t
    set w
    answer target (.object o)
  | register subject => do
    let o ← object subject
    let h ← heapHere
    modify fun w => w.register h o
    return .count ((← get).livingIn h).length
  | retarget subject type => do
    let o ← object subject
    let t ← Scenario.type type
    set (← ofExcept .retype ((← get).retarget o t))
    return .value (← get) (.object o)
  | typeOf subject => do
    let o ← object subject
    let w ← get
    return .value w (.type (w.object o).type)
  | isInstance subject type => do
    let o ← object subject
    let t ← Scenario.type type
    return .bool ((← get).isInstance o t)
  | field subject name => do
    let o ← object subject
    let w ← get
    return .present? ((w.field? o name).map (.value w))
  | setField subject name v => do
    let o ← object subject
    let v ← value v
    let w ← get
    set (w.setField o name v)
    return .present? ((w.field? o name).map (.value w))
  | method target subject name args => do
    let o ← object subject
    let args ← values args
    answer target (← ofAct (World.callMethod World.run o name args))
  | transient subject count => do
    let t ← type subject
    constructTransient t count
    return heapAnswer (← get) (← heapHere)
  | heap => do return heapAnswer (← get) (← heapHere)
  | prune => do
    let h ← heapHere
    let (dropped, w) := (← get).prune h
    set w
    return .list [.count dropped, heapAnswer w h]
  | live => do
    let h ← heapHere
    let (os, w) := (← get).liveObjects h
    set w
    return .values w (os.map .object)
  | call target subject args => do
    let v ← value subject
    let args ← values args
    answer target (← ofAct (World.invoke World.run v args))
  | describe subject cell => do
    let v ← value subject
    let w ← get
    return .text (if cell then w.describeCell v else w.describe v)
  | equal a b => do
    let a ← value a
    let b ← value b
    return .bool (a == b)
  | inspect subject => do return valueReport (← value subject)

end ObjectStep

end HotReload.Scenario
