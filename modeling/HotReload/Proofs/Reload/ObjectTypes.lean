import HotReload.Proofs.Reload.AncestorLists
import HotReload.Proofs.Reload.Pinned
import HotReload.Proofs.Reload.Recompilers

/-!
# What a propagation does to objects

A session is opened in a world `w`, things happen, and in a world `w₁` the references to some of its
targets are repaired. The session knows an object by the type that it had in `w`, if a target
exported this type. When the repair comes to the unit of the type, it looks for the heir of the
type's name. If that is another type (`World.Replaces`), the object is moved to it, provided that
the two types are of one storage (`World.SharesStorage`). All other objects keep their types, and no
object has its fields written (`Session.propagate_objects`).

The session goes by identity where it asks for objects, and by name where it asks for heirs. So an
object whose type has been replaced meanwhile, by an earlier repair or by the host, is not looked up
under its present type, and a type that a target exports without owning it has no heir there.
-/

namespace HotReload

variable {σ : Type}

/-- **Types that are replaced.** One of the units owned and exported `old` in `w`, and another type
is the heir of its name in `w₁`. -/
def World.Replaces (w w₁ : World σ) (us : List UnitId) (old new : TypeId) : Prop :=
  ∃ u ∈ us, w.Exports u old ∧ w₁.heir? u (w₁.type old).name = some new ∧ old ≠ new

/-- What a snapshot calls its units are targets. -/
theorem Snapshot.mem_of_mem_units {w : World σ} {targets : List UnitId} {s : Snapshot}
    (h : capture w targets = .ok s) {u : UnitId} (hu : u ∈ s.units) : u ∈ targets := by
  obtain ⟨t, ht, rfl⟩ := List.mem_map.mp hu
  exact (mem_tables h ht).1

namespace Session

variable [Host σ] {w w' w₁ : World σ} {targets us : List UnitId} {r : RegistryId} {e : Enumerator}
  {config : Config} {s : Session}

/-- **The objects of a type** that a session knows are those that it found with this type, if a
target exported it. -/
theorem mem_objectsOf_of_start (hstart : start w targets r e config = (.ok s, w')) {o : ObjectId}
    {t : TypeId} :
    o ∈ s.objectsOf t ↔ o ∈ s.found w e ∧ (w.object o).type = t ∧
      ∃ u ∈ targets, ∃ y, w.export? u y = some (.definition (.type t)) := by
  obtain ⟨hopened, -, -, hobjects, -⟩ := opened_of_start hstart
  rw [← Snapshot.isStale_iff hopened.capture_eq]
  have hrecorded : (⟨o, t⟩ : StaleObject) ∈ s.objects ↔
      o ∈ s.found w e ∧ (w.object o).type = t ∧ s.snapshot.isStale (.type t) = true := by
    rw [hobjects, mem_staleObjects]
    exact and_congr_right fun _ => and_congr_left fun _ => eq_comm
  exact mem_objectsOf.trans hrecorded

omit [Host σ] in
/-- **Objects are moved** from types that are replaced to those that replace them. -/
theorem Opened.mem_moves_iff (hopened : s.Opened w targets r) (hw : w.Sound) (hlater : w.Later w₁)
    (htargets : ∀ u ∈ us, u ∈ s.snapshot.units) (hknown : ∀ u ∈ us, w.knows (.unit u) = true)
    {o : ObjectId} {new : TypeId} :
    (o, new) ∈ us.flatMap (s.moves w₁) ↔
      ∃ old, w.Replaces w₁ us old new ∧ o ∈ s.objectsOf old := by
  -- the types of the record are those that the unit exported at the start
  have hown : ∀ u ∈ us, ∀ t, t ∈ s.snapshot.ownTypes w₁ (w₁.unit u).name ↔ w.Exports u t :=
    fun u hu t => hopened.mem_ownTypes hw hlater (htargets u hu) (hknown u hu)
  constructor
  · intro hm
    obtain ⟨u, hu, hm⟩ := List.mem_flatMap.mp hm
    obtain ⟨old, hold, hheir, hne, ho⟩ := mem_moves.mp hm
    exact ⟨old, ⟨u, hu, (hown u hu old).mp hold, hheir, hne⟩, ho⟩
  · rintro ⟨old, ⟨u, hu, hexports, hheir, hne⟩, ho⟩
    refine List.mem_flatMap.mpr ⟨u, hu, mem_moves.mpr ⟨old, ?_, hheir, hne, ho⟩⟩
    exact (hown u hu old).mpr hexports

/-- **What a propagation does to objects.** Let a session be opened in `w`, let its journal be
anything by now, and let a later world `w₁` be repaired for targets with different names. Then an
object that the session found, and that has the same type as then, is given the type that replaces
this one if the two are of one storage. An object keeps its type if nothing replaces it, if the
session did not find the object, or if no target exported the type that it had then. The fields of
an object are not written in any case. -/
theorem propagate_objects (journal : Journal)
    (hstart : start w targets r e config = (.ok s, w')) (hw : w.Sound) (hlater : w.Later w₁)
    (hnames : (us.map fun u => (w₁.unit u).name).Nodup)
    (htargets : ∀ u ∈ us, u ∈ s.snapshot.units) (hknown : ∀ u ∈ us, w.knows (.unit u) = true)
    (o : ObjectId) :
    let old := (w.object o).type
    let before := w₁.object o
    let after := ({ s with journal := journal }.propagate us w₁).2.2.object o
    (o ∈ s.found w e → before.type = old →
      (∀ new, w.Replaces w₁ us old new →
        after.type = if w₁.SharesStorage old new then new else old) ∧
      ((¬ ∃ new, w.Replaces w₁ us old new) → after.type = old)) ∧
    ((o ∉ s.found w e ∨
        ¬ ∃ t ∈ targets, ∃ y, w.export? t y = some (.definition (.type old))) →
      after.type = before.type) ∧
    after.fields = before.fields := by
  intro old before after
  have hopened : ({ s with journal := journal } : Session).Opened w targets r :=
    (opened_of_start hstart).1.of_journal
  have hfits := hopened.fits (World.keepsNames_of_later hw hlater r targets)
  have hone := hopened.oneTarget_moves hnames
  -- the whole propagation is one pass over the moves that it makes
  have hafter : after =
      (World.moveEach (us.flatMap (Session.moves { s with journal := journal } w₁)) w₁).1.object o :=
    congrArg (Store.get · o.index) (propagate_moves hfits us)
  have hmove : ∀ new, (o, new) ∈ us.flatMap (Session.moves { s with journal := journal } w₁) ↔
      w.Replaces w₁ us old new ∧ o ∈ s.objectsOf old := by
    intro new
    rw [hopened.mem_moves_iff hw hlater htargets hknown]
    constructor
    · rintro ⟨t, hreplaces, ho⟩
      obtain rfl : old = t := ((mem_objectsOf_of_start hstart).mp ho).2.1
      exact ⟨hreplaces, ho⟩
    · exact fun h => ⟨old, h⟩
  -- what is in no list of objects is not moved
  have hstays : (∀ new, w.Replaces w₁ us old new → o ∉ s.objectsOf old) →
      after.type = before.type := by
    intro hnone
    rw [hafter, World.object_moveEach_of_notMem]
    rintro ⟨o', new⟩ hm rfl
    exact hnone new ((hmove new).mp hm).1 ((hmove new).mp hm).2
  refine ⟨fun hfound hkept => ⟨?_, ?_⟩, ?_, ?_⟩
  · intro new hreplaces
    obtain ⟨u, hu, ⟨y, hy⟩, -, hne⟩ := id hreplaces
    have htarget := Snapshot.mem_of_mem_units hopened.capture_eq (htargets u hu)
    have ho : o ∈ s.objectsOf old :=
      (mem_objectsOf_of_start hstart).mpr
        ⟨hfound, rfl, u, htarget, y, (w.mem_ownExports.mp hy).1⟩
    -- types differ, so a refusal is a matter of the layouts
    have hrefusal : w₁.refusal? (o, new) = none ↔ w₁.SharesStorage old new := by
      show w₁.retypeError? before.type new = none ↔ _
      rw [hkept, World.retypeError?_eq_none_iff, or_iff_right hne]
    rw [hafter, World.type_moveEach hone w₁ ((hmove new).mpr ⟨hreplaces, ho⟩)]
    show (if w₁.refusal? (o, new) = none then new else before.type) = _
    simp only [hrefusal, hkept]
  · intro hnone
    rw [hstays fun new hreplaces => absurd ⟨new, hreplaces⟩ hnone, hkept]
  · intro hunknown
    refine hstays fun new _ ho => ?_
    obtain ⟨hfound, -, hexported⟩ := (mem_objectsOf_of_start hstart).mp ho
    rcases hunknown with hmissed | hforeign
    · exact hmissed hfound
    · exact hforeign hexported
  · rw [hafter]
    exact World.fields_moveEach _ w₁ o

open Scenario.TwoUnits

/-- Two objects of a type `C` that `b` exports. -/
def inhabited : World Fixture :=
  let (c, w) := bare.declareType ⟨"b", "C", ⟨0⟩, .fixed ["x"], [], [], .empty⟩ []
  let (_, w) := w.newObject c
  let (_, w) := w.newObject c
  w.setExport ⟨0⟩ "C" (.type c)

/-- The same after `b` has been given another type `C` with the same slots. -/
def redeclared : World Fixture :=
  let (c, w) := inhabited.declareType ⟨"b", "C", ⟨0⟩, .fixed ["x"], [], [], .empty⟩ []
  w.setExport ⟨0⟩ "C" (.type c)

/-- Of the two objects the session finds the first, and only this one gets the new type. -/
theorem propagate_objects_listed :
    ∃ s w', start inhabited [⟨0⟩] ⟨0⟩ (.listed [⟨0⟩]) .standard = (.ok s, w') ∧
      inhabited.Replaces redeclared [⟨0⟩] ⟨0⟩ ⟨1⟩ ∧
      ((s.propagate [⟨0⟩] redeclared).2.2.object ⟨0⟩).type = ⟨1⟩ ∧
      ((s.propagate [⟨0⟩] redeclared).2.2.object ⟨1⟩).type = ⟨0⟩ := by
  have hopen : ∀ u ∈ [⟨0⟩], inhabited.isOpen u = true := by decide +kernel
  obtain ⟨s, w', hstart⟩ := exists_start hopen ⟨0⟩ (.listed [⟨0⟩]) .standard
  have hsound : inhabited.Sound := by decide +kernel
  have hlater : inhabited.Later redeclared :=
    (World.later_declareType _ _ _).trans (World.later_replaceExports _ _ _)
  have hnames : ([⟨0⟩].map fun u => (redeclared.unit u).name).Nodup := List.nodup_singleton _
  have hunits : s.snapshot.units = [⟨0⟩] := by
    have hcaptured : (Snapshot.capture inhabited [⟨0⟩]).map Snapshot.units = .ok [⟨0⟩] := by
      decide +kernel
    rw [(opened_of_start hstart).1.capture_eq] at hcaptured
    exact Except.ok.inj hcaptured
  have htargets : ∀ u ∈ [⟨0⟩], u ∈ s.snapshot.units := fun u hu => hunits ▸ hu
  have hknown : ∀ u ∈ [⟨0⟩], inhabited.knows (.unit u) = true := by decide +kernel
  have hreplaces : inhabited.Replaces redeclared [⟨0⟩] ⟨0⟩ ⟨1⟩ := by
    refine ⟨⟨0⟩, List.mem_singleton_self _, ⟨"C", ?_⟩, ?_, ?_⟩
    all_goals decide +kernel
  have hobject := propagate_objects s.journal hstart hsound hlater hnames htargets hknown
  refine ⟨s, w', hstart, hreplaces, ?_, ?_⟩
  · -- the object that was listed moves
    have hstorage : redeclared.SharesStorage ⟨0⟩ ⟨1⟩ := by decide +kernel
    have hfound : ⟨0⟩ ∈ s.found inhabited (.listed [⟨0⟩]) := List.mem_singleton_self _
    exact (((hobject ⟨0⟩).1 hfound rfl).1 ⟨1⟩ hreplaces).trans (if_pos hstorage)
  · -- the other has the same type and stays, since nobody listed it
    have hmissed : ⟨1⟩ ∉ s.found inhabited (.listed [⟨0⟩]) := by
      show (⟨1⟩ : ObjectId) ∉ [⟨0⟩]
      decide
    exact (hobject ⟨1⟩).2.1 (.inl hmissed)

end Session

end HotReload
