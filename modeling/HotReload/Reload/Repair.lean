import HotReload.Reload.Session

/-!
# Repair

After a unit has a new table, what pointed at its old definitions is pointed at their successors:
bindings, the ancestor lists of subtypes, and objects. A definition's *successor* is the first one
of the unit's current exports that the unit owns and that has the same qualified name; old and new
have nothing else in common.

Every function here returns its deeds: where something is done, it is counted and an event says so.
-/

namespace HotReload

variable {σ : Type}

namespace World

/-! ### Bindings -/

/-- Points a binding at the successor `d` of what it held, provided that the slot still holds that
and that `d` is another definition. -/
def repointBinding (w : World σ) (b : ExternalBinding) (d : Definition) : World σ × List Deed :=
  match w.export? b.holder b.localName with
  | some (.definition held) =>
    -- a slot that has been written since the scan is left as it is
    if held = b.stale ∧ held ≠ d then
      (w.setExport b.holder b.localName (.definition d),
        [⟨{ Stats.zero with bindingsRepointed := 1 },
          .bindingRepointed (w.unit b.holder).name b.localName b.key.text⟩])
    else (w, [])
  | _ => (w, [])

/-- Runs a repair step over a list and appends the deeds. -/
def repairEach {α : Type} (step : World σ → α → World σ × List Deed) :
    List α → World σ → World σ × List Deed
  | [], w => (w, [])
  | a :: as, w =>
    let (w, ds) := step w a
    let (w, es) := repairEach step as w
    (w, ds ++ es)

/-- The first definition of each qualified name. -/
def claims (w : World σ) (current : List (String × Definition)) :
    List (QualifiedName × Definition) :=
  current.foldl
    (fun claimed e =>
      -- a name that is exported twice belongs to the definition that comes first
      let key := w.nameOf e.2
      if (claimed.map (·.1)).contains key then claimed else claimed ++ [(key, e.2)])
    []

/-- Points the bindings to definitions of a name at the definition that claims the name. -/
def repointHolders (r : References) (w : World σ) (claim : QualifiedName × Definition) :
    World σ × List Deed :=
  repairEach (fun w b => w.repointBinding b claim.2) (r.holders claim.1) w

/-- The definitions of the named unit that bindings refer to and that nothing claims. -/
def removedSymbols (r : References) (unit : String) (claimed : List QualifiedName) : List Deed :=
  ((r.keysOwnedBy unit).filter (!claimed.contains ·)).map fun key =>
    ⟨{ Stats.zero with removedSymbols := 1 }, .symbolRemoved key.text (r.holders key).length⟩

/-- Repairs the bindings to definitions of the named unit. -/
def repointBindings (r : References) (unit : String) (current : List (String × Definition))
    (w : World σ) : World σ × List Deed :=
  let claimed := w.claims current
  let (w, ds) := repairEach (repointHolders r) claimed w
  (w, ds ++ removedSymbols r unit (claimed.map (·.1)))

/-! ### Ancestor lists -/

/-- True if `t` goes by the name of `new` without being `new`. -/
def isPredecessor (w : World σ) (new t : TypeId) : Bool :=
  t != new && w.typeName t == w.typeName new

/-- Points the ancestors of `s` that go by the name of `new` at `new`. -/
def repointAncestors (new : TypeId) (w : World σ) (s : TypeId) : World σ × List Deed :=
  if (w.ancestors s).any (w.isPredecessor new) then
    (w.setAncestors s ((w.ancestors s).map fun t => if w.isPredecessor new t then new else t),
      [⟨{ Stats.zero with subtypesRepointed := 1 },
        .ancestorRepointed (w.typeName s).text (w.typeName new).text⟩])
  else (w, [])

/-- Repairs the ancestor lists of the subtypes of `old`. -/
def repointSubtypes [Host σ] (old new : TypeId) (w : World σ) : World σ × List Deed :=
  repairEach (repointAncestors new) (w.subtypes old) w

/-! ### Objects -/

/-- Moves an object to the new type, unless it has it already or cannot take it on. -/
def retargetObject (new : TypeId) (w : World σ) (o : ObjectId) : World σ × List Deed :=
  if (w.object o).type = new then (w, [])
  else
    match w.retarget o new with
    | .ok w' =>
      (w', [⟨{ Stats.zero with objectsRetargeted := 1 }, .objectRetargeted (w.typeName new).text⟩])
    -- the object keeps its type, and the repair goes on
    | .error e =>
      (w, [⟨{ Stats.zero with objectsRejected := 1 },
        .retypeRejected (w.typeName new).text e.message⟩])

/-- Repairs the objects that had the type `old` when the session was opened. -/
def retargetObjects (s : Session) (old new : TypeId) (w : World σ) : World σ × List Deed :=
  repairEach (retargetObject new) (s.objectsOf old) w

/-! ### Types -/

/-- The first of the types that has the name of `old`. -/
def successor? (w : World σ) (types : List TypeId) (old : TypeId) : Option TypeId :=
  types.find? fun t => (w.type t).name == (w.type old).name

/-- Repairs what pointed at one old type. -/
def repairType [Host σ] (s : Session) (types : List TypeId) (w : World σ) (old : TypeId) :
    World σ × List Deed :=
  match w.successor? types old with
  | none => (w, [⟨{ Stats.zero with removedTypes := 1 }, .typeRemoved (w.typeName old).text⟩])
  | some new =>
    -- exported again as it was
    if old = new then (w, [])
    else
      let (w, ds) := w.repointSubtypes old new
      let (w, es) := w.retargetObjects s old new
      (w, ds ++ es)

/-! ### Units -/

/-- Repairs everything that pointed at old definitions of a unit whose current own definitions are
`current`. -/
def repairFrom [Host σ] (s : Session) (unit : String) (current : List (String × Definition))
    (w : World σ) : World σ × List Deed :=
  let (w, ds) := repointBindings s.references unit current w
  -- types by the exports at the time of the snapshot: those are the ones others point at
  let (w, es) := repairEach (repairType s (typesAmong current)) (s.snapshot.ownTypes w unit) w
  (w, ds ++ es)

/-- **Repair** of everything that pointed at old definitions of `u`. -/
def repair [Host σ] (s : Session) (u : UnitId) (w : World σ) : World σ × List Deed :=
  let unit := (w.unit u).name
  let current := w.ownDefinitions unit (w.exports u)
  let kept := current.flatMap fun e => (Value.definition e.2).nodes
  let (ds, w) := w.holding (.unit u :: kept) fun w => (repairFrom s unit current w).swap
  (w, ds)

end World

namespace Session

/-- **Propagation.** Repairs the given units one after the other and journals what was done. -/
def propagate [Host σ] (s : Session) : List UnitId → World σ → Session × Stats × World σ
  | [], w => (s, .zero, w)
  | u :: us, w =>
    let (w, deeds) := w.repair s u
    let (s, stats, w) := (s.note (w.unit u).name deeds).propagate us w
    (s, Stats.tally deeds + stats, w)

end Session

end HotReload
