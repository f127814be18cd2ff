import HotReload.Proofs.Repair.Propagation
import HotReload.Proofs.World.Reachability
import HotReload.Proofs.World.Soundness

/-!
# Repairs in step

A repair of types reads types without their members, objects, and what is alive; and what is alive
depends on roots and references. It reads no callable. So worlds that agree in these things are
**twins** (`World.Twins`), and if they are repaired for the same old types, with the same objects
recorded, then they go through the repair in step and are twins when it is over
(`World.Twins.repairTypes`).
-/

namespace HotReload

variable {σ : Type}

namespace World

/-! ### Types that are written in step -/

/-- **Types in step.** As many types, and the same ones but for their members. -/
structure TypesInStep (w w' : World σ) : Prop where
  size : w'.types.size = w.types.size
  types : w.SameTypes w'

namespace TypesInStep

variable {w w' : World σ}

/-- A write to a type that does not concern members. -/
theorem putType (h : w.TypesInStep w') (t : TypeId) {f : TypeDecl → TypeDecl}
    (hf : ∀ cell members, f { cell with members := members } = { f cell with members := members }) :
    (w.putType t (f (w.type t))).TypesInStep (w'.putType t (f (w'.type t))) where
  size := by
    -- a write makes both stores large enough for the type
    have hsize : ∀ v : World σ, ∀ cell, (v.putType t cell).types.size =
        max v.types.size (t.index + 1) := fun v cell => v.types.size_set _ _
    rw [hsize, hsize, h.size]
  types s := by
    rw [type_putType, type_putType]
    split
    · obtain ⟨members, heq⟩ := h.types t
      exact ⟨members, by rw [heq, hf]⟩
    · exact h.types s

/-- Both drop the subtype. -/
theorem dropSubtype (h : w.TypesInStep w') (t s : TypeId) :
    (w.dropSubtype t s).TypesInStep (w'.dropSubtype t s) :=
  h.putType t (f := fun cell => { cell with subtypes := cell.subtypes.filter (· ≠ s) })
    fun _ _ => rfl

/-- Both add the subtype, or both have it already. -/
theorem addSubtype (h : w.TypesInStep w') (t s : TypeId) :
    (w.addSubtype t s).TypesInStep (w'.addSubtype t s) := by
  have hback := h.types.subtypes t
  unfold World.addSubtype
  split
  · next hold =>
    rw [if_pos (hback.symm ▸ hold)]
    exact h
  · next hnew =>
    rw [if_neg (hback.symm ▸ hnew)]
    exact h.putType t (f := fun cell => { cell with subtypes := cell.subtypes ++ [s] })
      fun _ _ => rfl

/-- Several writes are made in step if each of them is. -/
theorem foldl {f : World σ → TypeId → World σ}
    (hf : ∀ {w w'} t, TypesInStep w w' → TypesInStep (f w t) (f w' t)) (ts : List TypeId)
    (h : w.TypesInStep w') : (ts.foldl f w).TypesInStep (ts.foldl f w') := by
  induction ts generalizing w w' with
  | nil => exact h
  | cons t ts ih => exact ih (hf t h)

/-- Both get the new ancestors. -/
theorem setAncestors (h : w.TypesInStep w') (s : TypeId) (new : List TypeId) :
    (w.setAncestors s new).TypesInStep (w'.setAncestors s new) := by
  have hput := h.putType s (f := fun cell => { cell with ancestors := new }) fun _ _ => rfl
  unfold World.setAncestors
  rw [h.types.ancestors]
  exact foldl (fun t h => h.addSubtype t s) _ (foldl (fun t h => h.dropSubtype t s) _ hput)

end TypesInStep

/-! ### Twins -/

/-- What a unit refers to depends on the nodes in its slots. -/
theorem mem_successors_unit_congr {w w' : World σ} {u : UnitId}
    (h : ∀ x, (w'.export? u x).map Value.nodes = (w.export? u x).map Value.nodes) (n : Node) :
    n ∈ w'.successors (.unit u) ↔ n ∈ w.successors (.unit u) := by
  -- what a unit leads to is told by its slots, and of these only the nodes count
  have hslots : ∀ v : World σ, n ∈ v.successors (.unit u) ↔
      ∃ x ns, (v.export? u x).map Value.nodes = some ns ∧ n ∈ ns := by
    intro v
    simp only [mem_successors_unit, Option.map_eq_some_iff]
    constructor
    · rintro ⟨x, a, ha, hn⟩
      exact ⟨x, a.nodes, ⟨a, ha, rfl⟩, hn⟩
    · rintro ⟨x, _, ⟨a, ha, rfl⟩, hn⟩
      exact ⟨x, a, ha, hn⟩
  simp only [hslots, h]

/-- **Twins.** The worlds agree in types but for their members, in objects and registries, in their
roots, and in what their units refer to. -/
structure Twins [Host σ] (w w' : World σ) : Prop extends w.TypesInStep w' where
  units : w'.units.size = w.units.size
  objects : w'.objects = w.objects
  registries : w'.registries = w.registries
  roots : ∀ n, n ∈ w'.roots ↔ n ∈ w.roots
  slots : ∀ u n, n ∈ w'.successors (.unit u) ↔ n ∈ w.successors (.unit u)

/-- A repair of bindings writes tables and pins what it keeps, and makes no unit. -/
theorem withBindings_eq (w : World σ) (s : Session) (u : UnitId) :
    ∃ units, (w.withBindings s u).1 = { w.pin (w.keptFor u) with units := units } ∧
      units.size = w.units.size := by
  -- the relation says that units alone have been written, as many as there were
  refine repairEach_related
    (R := fun v v' => ∃ units, v' = { v with units := units } ∧ units.size = v.units.size)
    (fun v => ⟨v.units, rfl, rfl⟩) ?_ _ (w.pin (w.keptFor u)) fun t _ v => ?_
  · rintro v _ _ ⟨units, rfl, hsize⟩ ⟨units', rfl, hsize'⟩
    exact ⟨units', rfl, hsize'.trans hsize⟩
  · by_cases hacts : v.Acts t
    · rw [repoint_of_acts hacts]
      exact ⟨_, rfl, v.units.size_set_of_lt (index_lt_of_export? hacts.1) _⟩
    · rw [repoint_of_not_acts hacts]
      exact ⟨v.units, rfl, rfl⟩

/-- No repair makes a unit. -/
theorem size_units_propagate [Host σ] (s : Session) (us : List UnitId) (w : World σ) :
    (s.propagate us w).2.2.units.size = w.units.size := by
  rw [(s.propagate_eq_repairEach us w).2]
  refine repairEach_related (R := fun v v' => v'.units.size = v.units.size) (fun _ => rfl)
    (fun h h' => h'.trans h) us w fun u _ v => ?_
  have htypes := (typeFrame_repairTypes s (v.unit u).name (typesAmong (v.ownExports u))
    (v.withBindings s u).1).units
  obtain ⟨units, heq, hsize⟩ := v.withBindings_eq s u
  rw [heq] at htypes
  rw [repair_eq, heq, htypes]
  exact hsize

/-- Passes whose steps keep two worlds in a relation keep them in it. -/
theorem repairEach_inStep {α : Type} {R : World σ → World σ → Prop}
    {step step' : World σ → α → World σ × List Deed} {as : List α} {w w' : World σ} (h : R w w')
    (hstep : ∀ a ∈ as, ∀ v v', R v v' → R (step v a).1 (step' v' a).1) :
    R (repairEach step as w).1 (repairEach step' as w').1 := by
  induction as generalizing w w' with
  | nil => exact h
  | cons a as ih =>
    rw [repairEach_cons, repairEach_cons]
    exact ih (hstep a List.mem_cons_self w w' h) fun b hb => hstep b (List.mem_cons_of_mem a hb)

namespace Twins

variable [Host σ] {w w' : World σ}

/-- Twins know the same nodes. -/
theorem knows (h : w.Twins w') : w'.knows = w.knows := by
  funext n
  cases n <;> simp only [World.knows, h.units, h.size, h.objects, h.registries]

/-- They have the same objects. -/
theorem object (h : w.Twins w') (o : ObjectId) : w'.object o = w.object o := by
  rw [World.object, h.objects, World.object]

/-- **The same nodes are alive** in twins. -/
theorem reaches_iff (h : w.Twins w') (n : Node) : w'.Reaches n ↔ w.Reaches n := by
  refine reaches_iff_of_edges h.roots h.knows (fun m k => ?_) n
  cases m with
  | unit u => exact h.slots u k
  | type t =>
    show k ∈ (w'.ancestors t).map .type ↔ k ∈ (w.ancestors t).map .type
    rw [h.types.ancestors]
  | object o => simp only [successors, h.object]
  | registry r => simp only [successors, registry, h.registries]

/-- The same types live, so they see the same subtypes. -/
theorem subtypes (h : w.Twins w') (t : TypeId) : w'.subtypes t = w.subtypes t := by
  simp only [World.subtypes, h.types.subtypes, living_contains_eq_of_reaches (h.reaches_iff _)]

/-- Names are the same, and so are predecessors. -/
theorem isPredecessor (h : w.Twins w') (new t : TypeId) :
    w'.isPredecessor new t = w.isPredecessor new t := by
  simp only [World.isPredecessor, h.types.typeName]

/-- Layouts are the same, so the same objects may be retyped. -/
theorem retypeError? (h : w.Twins w') (source target : TypeId) :
    w'.retypeError? source target = w.retypeError? source target := by
  have hlayout : ∀ t, (w'.type t).layout = (w.type t).layout := by
    intro t
    obtain ⟨members, heq⟩ := h.types t
    rw [heq]
  simp only [World.retypeError?, h.types.typeName, hlayout]

/-- Twins with the same nodes pinned are twins. -/
theorem pin (h : w.Twins w') {nodes nodes' : List Node} (hnodes : ∀ n, n ∈ nodes' ↔ n ∈ nodes) :
    (w.pin nodes).Twins (w'.pin nodes') where
  size := h.size
  types := h.types
  units := h.units
  objects := h.objects
  registries := h.registries
  roots n := by
    have hroots := h.roots n
    rw [mem_roots, mem_roots] at hroots
    rw [mem_roots, mem_roots, contains_pins_pin, contains_pins_pin, or_assoc, or_assoc, hnodes]
    -- the roots are the nodes that are pinned now, and the roots from before
    exact or_congr_right hroots
  slots := h.slots

/-- Heaps and guards are no concern of twins. -/
theorem putHeapsGuards (h : w.Twins w') (heaps heaps' : Store Heap) (guards guards' : Store Bool) :
    ({ w with heaps := heaps, guards := guards } : World σ).Twins
      { w' with heaps := heaps', guards := guards' } :=
  ⟨⟨h.size, h.types⟩, h.units, h.objects, h.registries, h.roots, h.slots⟩

/-- Twins stay twins as tables are written, as long as slots refer to the same nodes. -/
theorem putUnits (h : w.Twins w') {units units' : Store CodeUnit}
    (hsize : units.size = w.units.size) (hsize' : units'.size = w'.units.size)
    (hslots : ∀ u x, (({ w' with units := units' } : World σ).export? u x).map Value.nodes =
      (({ w with units := units } : World σ).export? u x).map Value.nodes) :
    ({ w with units := units } : World σ).Twins { w' with units := units' } where
  size := h.size
  types := h.types
  units := hsize'.trans (h.units.trans hsize.symm)
  objects := h.objects
  registries := h.registries
  roots := h.roots
  slots u := mem_successors_unit_congr (hslots u)

/-! ### The steps of a repair of types -/

/-- New ancestors in both worlds. -/
theorem setAncestors (h : w.Twins w') (s : TypeId) (new : List TypeId) :
    (w.setAncestors s new).Twins (w'.setAncestors s new) := by
  have htypes := h.toTypesInStep.setAncestors s new
  obtain ⟨types, heq⟩ := w.setAncestors_eq s new
  obtain ⟨types', heq'⟩ := w'.setAncestors_eq s new
  rw [heq, heq'] at htypes ⊢
  exact ⟨htypes, h.units, h.objects, h.registries, h.roots, h.slots⟩

/-- One succession in both worlds. -/
theorem repointAncestors (h : w.Twins w') (new s : TypeId) :
    (World.repointAncestors new w s).1.Twins (World.repointAncestors new w' s).1 := by
  have hpredecessor : w'.isPredecessor new = w.isPredecessor new :=
    funext fun t => h.isPredecessor new t
  unfold World.repointAncestors
  rw [h.types.ancestors, hpredecessor]
  split
  · exact h.setAncestors s _
  · exact h

/-- The same move in both worlds. -/
theorem retargetObject (h : w.Twins w') (new : TypeId) (o : ObjectId) :
    (World.retargetObject new w o).1.Twins (World.retargetObject new w' o).1 := by
  rw [retargetObject_fst, retargetObject_fst, h.object, h.retypeError?]
  split
  · -- both make the move, or both refuse it
    refine ⟨⟨h.size, h.types⟩, h.units, ?_, h.registries, h.roots, h.slots⟩
    show w'.objects.set _ { w'.object o with type := new } = w.objects.set _ _
    rw [h.objects, h.object]
  · exact h

/-- **The repair for one old type**, if the same objects are recorded with it. -/
theorem repairType (h : w.Twins w') {s s' : Session} (types : List TypeId) {old : TypeId}
    (hobjects : s'.objectsOf old = s.objectsOf old) :
    (World.repairType s types w old).1.Twins (World.repairType s' types w' old).1 := by
  have hsuccessor := h.types.successor? types old
  obtain ⟨hsucc, heq⟩ | ⟨hsucc, heq⟩ | ⟨new, hne, hsucc, heq⟩ := repairType_cases s types w old
  · rw [heq, repairType_of_removed (hsuccessor.trans hsucc)]
    exact h
  · rw [heq, repairType_self (hsuccessor.trans hsucc)]
    exact h
  · rw [heq, repairType_of_succeeded (hsuccessor.trans hsucc) hne]
    -- both worlds have the same list of subtypes, and the same list of objects
    have hsubtypes : (w.repointSubtypes old new).1.Twins (w'.repointSubtypes old new).1 := by
      unfold repointSubtypes
      rw [h.subtypes]
      exact repairEach_inStep h fun s _ v v' hv => hv.repointAncestors new s
    show (retargetObjects s old new _).1.Twins (retargetObjects s' old new _).1
    unfold retargetObjects
    rw [hobjects]
    exact repairEach_inStep hsubtypes fun o _ v v' hv => hv.retargetObject new o

/-- **Twins are repaired in step** for the same old types. -/
theorem repairTypes (h : w.Twins w') {s s' : Session} (unit : String) (types : List TypeId)
    (holds : s'.snapshot.ownTypes w' unit = s.snapshot.ownTypes w unit)
    (hobjects : ∀ t, s'.objectsOf t = s.objectsOf t) :
    (World.repairTypes s unit types w).1.Twins (World.repairTypes s' unit types w').1 := by
  unfold World.repairTypes
  rw [holds]
  exact repairEach_inStep h fun old _ v v' hv => hv.repairType types (hobjects old)

end Twins

end World

end HotReload
