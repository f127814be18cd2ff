import HotReload.Proofs.Reload.Recompilers
import HotReload.Proofs.Reload.Reported
import HotReload.Proofs.World.Storage

/-!
# Objects that change their types during a reload

A recompiler may move an object to another type. The repair that follows treats this unlike a slot
that a recompiler writes. Before it writes a slot it looks whether the slot still holds what it held
when the session was opened. Before it moves an object it looks whether the object is of the new
type by now, but not whether it is still of the old one.

So what a recompiler has made of an object is overruled (`Reloader.Overruled`) if the session knows
the object by an old type that another one succeeds, and if the type that the object has been given
and this successor are of one storage. In all other cases it stays (`Reloader.retyped_iff`).
`Reloader.retyped_elsewhere` is a reload that takes an object back from the type to which a
recompiler has just moved it.
-/

namespace HotReload

variable {σ : Type} [Host σ]

namespace Reloader

/-- **Overruled.** Whatever type the object `o` has when the repair starts, it gives way to `new`:
the enumerator found the object with an old type that `new` succeeds by now, and the type at hand is
another one of the same storage. -/
structure Overruled (r : Reloader) (c : Course σ) (w : World σ) (o : ObjectId) (new : TypeId) :
    Prop where
  relocated : ∃ u ∈ c.batch.reloaded, ∃ old, r.Relocates w c.compiled u o old new
  ne : (c.compiled.object o).type ≠ new
  storage : c.compiled.SharesStorage (c.compiled.object o).type new

variable {recompile : Recompiler σ} {r : Reloader} {names : List String} {w : World σ}
  {c : Course σ}

namespace Course

/-- A slot that has been written since the call was made is none of those that wait for a
definition. -/
theorem export?_returned_of_ne (hlawful : recompile.Lawful) (hw : w.Sound)
    (h : r.course? recompile names w = some c) {k : UnitId} {x : String}
    (hne : c.compiled.export? k x ≠ w.export? k x) :
    (c.returned r w).export? k x = c.compiled.export? k x := by
  have hexports : (c.returned r w).export? k x =
      (World.repointEach (c.batch.reloaded.flatMap (c.closing.repointings c.compiled))
        c.compiled).1.export? k x := by
    rw [export?_returned, World.export?, repaired,
      (Session.propagate_bindings (fits hlawful hw h) c.batch.reloaded).1]
    rfl
  rw [hexports]
  refine World.export?_repointEach_of_not_pending _ c.compiled fun t ht hholder hslot hheld => ?_
  -- a binding records what its slot held when the call was made
  obtain ⟨u, -, ht⟩ := List.mem_flatMap.mp ht
  have hbinding := (Session.mem_repointings.mp ht).1
  have hstale := ((opened_session h).mem_bindings_iff.mp hbinding).1.held
  rw [hholder, hslot] at hstale
  exact hne (hheld.trans hstale.symm)

theorem type_returned_of_overruled (hlawful : recompile.Lawful) (hw : w.Sound)
    (h : r.course? recompile names w = some c) {o : ObjectId} {new : TypeId}
    (hover : r.Overruled c w o new) : ((c.returned r w).object o).type = new := by
  obtain ⟨u, hu, old, hr⟩ := hover.relocated
  rw [type_returned_of_relocates hlawful hw h hu hr]
  exact if_pos (World.retypeError?_eq_none_iff.mpr (.inr hover.storage))

theorem type_returned_of_not_overruled (hlawful : recompile.Lawful) (hw : w.Sound)
    (h : r.course? recompile names w = some c) {o : ObjectId}
    (hnone : ∀ new, ¬ r.Overruled c w o new) :
    ((c.returned r w).object o).type = (c.compiled.object o).type := by
  by_cases hrelocated : ∃ new, ∃ u ∈ c.batch.reloaded, ∃ old, r.Relocates w c.compiled u o old new
  · obtain ⟨new, u, hu, old, hr⟩ := hrelocated
    rw [type_returned_of_relocates hlawful hw h hu hr]
    -- the move of the repair may be refused, or it is to the type that the object has
    split
    · next hfree =>
      rcases World.retypeError?_eq_none_iff.mp hfree with hsame | hstorage
      · exact hsame.symm
      · by_contra hne
        exact hnone new ⟨⟨u, hu, old, hr⟩, Ne.symm hne, hstorage⟩
    · rfl
  · exact type_returned_of_not_relocates hlawful hw h fun u hu old new hr =>
      hrelocated ⟨new, u, hu, old, hr⟩

end Course

/-- **What becomes of changes that are made during a reload.** Whichever units are reloaded and
whatever their recompilers do meanwhile,

* an object has in the end the type that it had when the repair started exactly if no type overrules
  it, and otherwise it has the type that does;
* a slot that held something else when the repair started than when the call was made is left as it
  was written.

For an object it makes no difference when it was given its type, nor by whom this type is
exported. -/
theorem retyped_iff (hlawful : recompile.Lawful) (hw : w.Sound)
    (hcourse : r.course? recompile names w = some c) (o : ObjectId) :
    let after := (r.reload recompile names w).2
    ((after.object o).type = (c.compiled.object o).type ↔ ¬ ∃ new, r.Overruled c w o new) ∧
      (∀ new, r.Overruled c w o new → (after.object o).type = new) ∧
      ∀ k x, c.compiled.export? k x ≠ w.export? k x →
        after.export? k x = c.compiled.export? k x := by
  intro after
  -- from here on it is about the stages of this call
  have hafter : after = c.returned r w := congrArg Prod.snd (reload_of_course hcourse)
  rw [hafter]
  refine ⟨⟨?_, fun hnone => ?_⟩, fun new => ?_, fun k x => ?_⟩
  · rintro hkept ⟨new, hover⟩
    rw [Course.type_returned_of_overruled hlawful hw hcourse hover] at hkept
    exact hover.ne hkept.symm
  · exact Course.type_returned_of_not_overruled hlawful hw hcourse (not_exists.mp hnone)
  · exact Course.type_returned_of_overruled hlawful hw hcourse
  · exact Course.export?_returned_of_ne hlawful hw hcourse

end Reloader

namespace Recompiler

omit [Host σ]

/-- Moves the object `o` to the type `t`, if that is possible, and makes a new type of the given
name and layout, which it returns as the only export. -/
def moving (o : ObjectId) (t : TypeId) (name : String) (layout : Layout) : Recompiler σ :=
  fun u _ w =>
    let cell := ⟨(w.unit u).name, name, u, layout, [], [], .empty⟩
    let (new, w) := (w.retargeted o t).declareType cell []
    (.ok (.ofList [(name, .type new)]), w)

theorem lawful_moving (o : ObjectId) (t : TypeId) (name : String) (layout : Layout) :
    (moving o t name layout : Recompiler σ).Lawful := by
  -- only objects are written before the type is made
  have hmoved : ∀ w : World σ, ∃ objects, w.retargeted o t = { w with objects := objects } ∧
      w.objects.size ≤ objects.size := by
    intro w
    unfold World.retargeted World.retarget
    cases w.retypeError? (w.object o).type t with
    | some e => exact ⟨w.objects, rfl, Nat.le_refl _⟩
    | none => exact ⟨_, rfl, w.objects.size_le_size_set _ _⟩
  refine ⟨fun u r w hw => ?_, fun u r w _ => ?_, fun u r w table _ htable e he => ?_,
    fun u r w => ?_⟩ <;> obtain ⟨objects, heq, hsize⟩ := hmoved w
  · refine World.sound_declareType ?_ _ (List.forall_mem_nil _)
    rw [heq]
    exact hw.of_stores rfl rfl rfl (Nat.le_refl _) hsize
  · refine World.Later.trans ?_ (World.later_declareType _ _ _)
    rw [heq]
    exact World.later_of_stores rfl rfl rfl hsize
  · cases htable
    obtain rfl := List.mem_singleton.mp he
    exact decide_eq_true (World.lt_size_types_declareType _ _ _)
  · refine (World.pins_declareType _ _ _).trans ?_
    rw [heq]

end Recompiler

namespace Reloader

open Scenario.TwoUnits

/-- Unit `b` exports a type and `a` exports another one, and `a` holds an object of the first. -/
def lodging : World Fixture :=
  let (c, w) := bare.declareType ⟨"b", "C", ⟨0⟩, .dynamic, [], [], .empty⟩ []
  let (x, w) := w.declareType ⟨"a", "X", ⟨1⟩, .dynamic, [], [], .empty⟩ []
  let (o, w) := w.newObject c
  let w := w.register ⟨0⟩ o
  let w := w.setExport ⟨0⟩ "C" (.type c)
  w.replaceExports ⟨1⟩ (.ofList [("X", .type x), ("o", .object o)])

/-- The course of a reload of `b` that moves the object to the type of `a` and makes the type of `b`
anew with the given layout. -/
def rehousing (layout : Layout) : Option (Course Fixture) :=
  reloader.course? (.moving ⟨0⟩ ⟨1⟩ "C" layout) ["b"] lodging

/-- With other storage the new type of `b` overrules nothing, and the object stays where it has been
moved to. -/
theorem retyped_refused :
    ((reloader.reload (.moving ⟨0⟩ ⟨1⟩ "C" (.fixed [])) ["b"] lodging).2.object ⟨0⟩).type =
      ⟨1⟩ := by
  let c := (rehousing (.fixed [])).get (by decide +kernel)
  have hcourse : rehousing (.fixed []) = some c := (Option.some_get _).symm
  have hsound : lodging.Sound := by decide +kernel
  have hmoved : (c.compiled.object ⟨0⟩).type = ⟨1⟩ := by decide +kernel
  have hreloaded : c.batch.reloaded = [⟨0⟩] := by decide +kernel
  have hold : (lodging.object ⟨0⟩).type = ⟨0⟩ := by decide +kernel
  have hsuccessor : c.compiled.successor? (typesAmong (c.compiled.ownExports ⟨0⟩)) ⟨0⟩ =
      some ⟨2⟩ := by decide +kernel
  have hstorage : ¬ c.compiled.SharesStorage ⟨1⟩ ⟨2⟩ := by decide +kernel
  have hstays := (retyped_iff (Recompiler.lawful_moving _ _ _ _) hsound hcourse ⟨0⟩).1
  rw [hmoved] at hstays
  refine hstays.mpr ?_
  rintro ⟨new, ⟨u, hu, old, hr⟩, -, hsame⟩
  -- there is one old type and one new one that the repair could have in mind
  obtain rfl := List.mem_singleton.mp (hreloaded ▸ hu)
  obtain rfl := hold.symm.trans hr.type
  obtain rfl := Option.some.inj (hsuccessor.symm.trans hr.succeeded)
  rw [hmoved] at hsame
  exact hstorage hsame

/-- **An object is taken back.** It is of a type that the target `b` exports when the call is made,
the recompiler of `b` moves it to a type that no target exports, and in the end it is of neither. -/
theorem retyped_elsewhere :
    ∃ (c : Course Fixture) (report : Report) (w' : World Fixture),
      lodging.Sound ∧ (Recompiler.moving ⟨0⟩ ⟨1⟩ "C" .dynamic : Recompiler Fixture).Lawful ∧
      reloader.course? (.moving ⟨0⟩ ⟨1⟩ "C" .dynamic) ["b"] lodging = some c ∧
      reloader.reload (.moving ⟨0⟩ ⟨1⟩ "C" .dynamic) ["b"] lodging = (.ok report, w') ∧
      report.failures = [] ∧ ⟨0⟩ ∈ lodging.livingIn (lodging.registry reloader.registry).heap ∧
      (∃ u ∈ c.targets, ∃ y,
        lodging.export? u y = some (.definition (.type (lodging.object ⟨0⟩).type))) ∧
      (c.compiled.object ⟨0⟩).type = ⟨1⟩ ∧
      (∀ u ∈ c.targets, ∀ y, lodging.export? u y ≠ some (.definition (.type ⟨1⟩))) ∧
      (w'.object ⟨0⟩).type ≠ ⟨1⟩ := by
  let c := (rehousing .dynamic).get (by decide +kernel)
  have hcourse : rehousing .dynamic = some c := (Option.some_get _).symm
  have hforeign : ∀ u ∈ c.targets, ∀ e ∈ (lodging.exports u).entries,
      e.2 ≠ .definition (.type ⟨1⟩) := by decide +kernel
  refine ⟨c, c.report, c.returned reloader lodging, ?_, Recompiler.lawful_moving _ _ _ _, hcourse,
    reload_of_course hcourse, ?_, ?_, ⟨⟨0⟩, ?_, "C", ?_⟩, ?_, fun u hu y hy => ?foreign, ?_⟩
  case foreign => exact hforeign u hu (y, _) ((Table.get?_eq_some_iff _ _ _).mp hy) rfl
  all_goals decide +kernel

end Reloader

end HotReload
