import HotReload.Reload.Config
import HotReload.Reload.Journal
import HotReload.Reload.References
import HotReload.Reload.Stats
import HotReload.World.Objects

/-!
# Sessions

A *session* is what one reload or wrap knows about the time before it: a snapshot of its targets,
the bindings to stale definitions, the objects of stale types, and its journal.
-/

namespace HotReload

/-- Where a session finds objects. -/
inductive Enumerator where
  /-- The living objects of the heap of a registry. -/
  | heapOf (r : RegistryId)
  /-- These objects. -/
  | listed (objects : List ObjectId)
  deriving Repr

instance : Inhabited Enumerator := ⟨.listed []⟩

namespace Enumerator

variable {σ : Type}

/-- The objects, and the world after its heap has been swept for them. -/
def objects [Host σ] (w : World σ) : Enumerator → List ObjectId × World σ
  | heapOf r => w.liveObjects (w.registry r).heap
  | listed os => (os, w)

/-- The nodes that an enumerator keeps alive. -/
def nodes : Enumerator → List Node
  | heapOf r => [.registry r]
  | listed os => os.map .object

end Enumerator

/-- An object that had a stale type when the session was opened. -/
structure StaleObject where
  object : ObjectId
  type : TypeId
  deriving DecidableEq, Repr, Inhabited

/-- A **session**. -/
structure Session where
  config : Config
  snapshot : Snapshot
  references : References
  objects : List StaleObject
  journal : Journal
  deriving Inhabited

namespace Session

variable {σ : Type}

/-- The objects among `os` whose type is stale. -/
def staleObjects (w : World σ) (s : Snapshot) (os : List ObjectId) : List StaleObject :=
  (os.map fun o => ⟨o, (w.object o).type⟩).filter fun e => s.isStale (.type e.type)

/-- The journal of a session that has just been opened: it says which units were skipped. -/
def firstJournal (config : Config) (references : References) : Journal :=
  references.skipped.foldl (fun j e => j.log e.1 (.unitSkipped e.2.message))
    (.empty config.journalCapacity)

/-- **Opening a session** on targets of a registry. A target that refuses introspection stops it
before anything has changed. -/
def start [Host σ] (w : World σ) (targets : List UnitId) (r : RegistryId) (enumerator : Enumerator)
    (config : Config) : Except IntrospectError Session × World σ :=
  match Snapshot.capture w targets with
  | .error e => (.error e, w)
  | .ok snapshot =>
    let references := References.scan w snapshot (w.unitsOf r)
    -- finding the objects may sweep a heap, so it comes last
    let (os, w') := w.holding (snapshot.nodes ++ references.nodes) (enumerator.objects ·)
    (.ok ⟨config, snapshot, references, staleObjects w' snapshot os,
      firstJournal config references⟩, w')

/-- The objects that had the given type when the session was opened. -/
def objectsOf (s : Session) (t : TypeId) : List ObjectId :=
  (s.objects.filter (·.type == t)).map (·.object)

/-- Whether an event is journaled: all are, except that removed symbols can be left out. -/
def journals (config : Config) (e : Event) : Bool := config.logRemovedSymbols || !e.isSymbolRemoved

/-- Journals the deeds of a repair of the named unit. -/
def note (s : Session) (unit : String) (deeds : List Deed) : Session :=
  { s with journal := s.journal.logAll unit ((deeds.map Deed.event).filter (journals s.config)) }

/-- The nodes that a session keeps alive. -/
def nodes (s : Session) : List Node :=
  s.snapshot.nodes ++ s.references.nodes ++ s.objects.map (.object ·.object)

end Session

end HotReload
