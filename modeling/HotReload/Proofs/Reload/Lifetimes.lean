import HotReload.Proofs.Reload.Evaluation
import HotReload.Proofs.Reload.Recompilers

/-!
# Storage is for life

The life of an object begins in the middle of a construction: the object is made first, with the
type that is constructed and without fields, and from there on everything is a run, `init` and all
that it calls included (`World.run_from_newObject`). So what runs keep (`World.Run.object_kept`) is
kept from the beginning of the life of an object to its end (`World.Run.storage_for_life`).
-/

namespace HotReload

variable {σ : Type} [Host σ] {writes : ObjectId → String → Bool}

namespace World

/-- If a construction returns an object, it is the one that was made. -/
theorem eq_of_construct {run : Runner σ} {w : World σ} {t : TypeId} {args : List Value}
    {o : ObjectId} (h : ((construct run t args).run.run w).1 = .ok o) : o = (w.newObject t).1 := by
  -- whatever the constructor does, the object that was made first is what is returned
  have hreturn : ∀ (act : Act σ PUnit) (p : ObjectId) (v : World σ),
      ((act >>= fun _ => pure p : Act σ ObjectId).run.run v).1 = .ok o → o = p := by
    intro act p v h
    rw [ExceptT.run_bind, StateT.run_bind] at h
    cases hresult : act.run.run v with
    | mk result v' =>
      rw [hresult] at h
      cases result with
      | ok _ => exact (Except.ok.inj h).symm
      | error e => cases h
  have hsetUp : ∀ (p : ObjectId) (v : World σ),
      ((setUp run t p args).run.run v).1 = .ok o → o = p := by
    intro p v h
    have hlater : ((if ((v.registerAtHome t p).resolve? t "init").isSome then
        discard (callMethod run p "init" args) >>= fun _ => pure p
      else pure p : Act σ ObjectId).run.run (v.registerAtHome t p)).1 = .ok o := h
    split at hlater
    · exact hreturn _ p _ hlater
    · exact (Except.ok.inj hlater).symm
  rw [run_run_construct] at h
  exact hsetUp _ _ h

namespace Run

/-- **Storage is for life.** Along a run of any length,

* an object has a type of the layout that its type had when the run began, and the very same type if
  the host stores it, and it has the fields that it had, but for those that the host writes;
* an object that is made on the way has a type of the layout of the type it is made with, and this
  very type if the host stores it, and it has no fields but those that the host writes.

A construction makes its object first, and the rest of it is a run if calls are. So it makes no
difference how long ago, by whose code and within which call the object was made. -/
theorem storage_for_life {w v : World σ} (hw : w.Grounded) (hrun : w.Run writes v) :
    (∀ o, o.index < w.objects.size →
      (v.type (v.object o).type).layout = (w.type (w.object o).type).layout ∧
        ((w.type (w.object o).type).layout = .native → (v.object o).type = (w.object o).type) ∧
        v.unwritten writes o = w.unwritten writes o) ∧
      ∀ t, t.index < v.types.size →
        (∀ (run : Runner σ) args,
          (∀ c args, (run c args).Runs writes args fun _ => ([] : List Value)) → v.Backs args →
          (v.newObject t).2.Run writes ((World.construct run t args).run.run v).2 ∧
            ∀ o, ((World.construct run t args).run.run v).1 = .ok o → o = (v.newObject t).1) ∧
        ∀ w', (v.newObject t).2.Run writes w' →
          (w'.type (w'.object (v.newObject t).1).type).layout = (v.type t).layout ∧
            ((v.type t).layout = .native → (w'.object (v.newObject t).1).type = t) ∧
            w'.unwritten writes (v.newObject t).1 = [] := by
  have hv := (hrun.keepsStorage hw).grounded
  refine ⟨fun o ho => hrun.object_kept hw ho, fun t ht => ⟨fun run args hcalls hargs => ?_, ?_⟩⟩
  · exact ⟨(run_from_newObject hcalls hv ht hargs).1, fun o ho => eq_of_construct ho⟩
  · intro w' hafter
    have hmade : v.KeepsTypes writes (v.newObject t).2 := keepsTypes_newObject ht
    -- the object lives on from the world in which it has just been made, with no field written yet
    have hlife := hafter.object_kept (hmade.grounded hv) (v.lt_size_objects_newObject t)
    have hobject : (v.newObject t).2.object (v.newObject t).1 = ⟨t, .empty⟩ := by
      rw [object_newObject, if_pos rfl]
    have hnone : (v.newObject t).2.unwritten writes (v.newObject t).1 = [] := by
      rw [unwritten, hobject]
      rfl
    rw [hnone, hobject] at hlife
    exact hlife

end Run

end World

/-! ### Redeclared types -/

/-- Makes a new type of the given name and layout, and returns a table with this one export. -/
def Recompiler.redeclaring (name : String) (layout : Layout) : Recompiler σ := fun u _ w =>
  let (t, w) := w.declareType ⟨(w.unit u).name, name, u, layout, [], [], .empty⟩ []
  (.ok (.ofList [(name, .type t)]), w)

omit [Host σ] in
theorem Recompiler.returns_redeclaring (name : String) (layout : Layout) :
    (redeclaring name layout : Recompiler σ).Returns := by
  intro u r w table _ h x v hv
  cases h
  have hentry : (x, v) = (name, .type ⟨w.types.size⟩) :=
    List.mem_singleton.mp ((Table.get?_eq_some_iff _ _ _).mp hv)
  cases hentry
  exact World.isBacked_type.mpr (w.lt_size_types_declareType _ _)

/-- It makes a type, and that is all. -/
theorem World.Run.of_redeclaring (name : String) (layout : Layout) (u : UnitId) (r : RegistryId)
    (w : World σ) : w.Run writes (Recompiler.redeclaring name layout u r w).2 :=
  .host (w.keepsTypes_declareType _ _)

namespace World.Run

open Scenario.TwoUnits

/-- A unit `b` that exports a type `C` with a slot `x` and a type `N` of which the host stores the
objects, and an object of `C`. Objects of `N` get a field `y` when they are constructed. -/
def furnished : World Fixture :=
  let (init, w) := bare.newCallable ⟨"b", "init", some ⟨0⟩, .setField (.arg 0) "y" (.arg 1), none⟩
  let (c, w) := w.declareType ⟨"b", "C", ⟨0⟩, .fixed ["x"], [], [], .empty⟩ []
  let (n, w) :=
    w.declareType ⟨"b", "N", ⟨0⟩, .native, [], [], .ofList [("init", ⟨init, .onObject⟩)]⟩ []
  let w := (w.setExport ⟨0⟩ "C" (.type c)).setExport ⟨0⟩ "N" (.type n)
  let (o, w) := w.newObject c
  w.setField o "x" (.bool true)

/-- A reloader that knows of some objects. -/
def listing (os : List ObjectId) : Reloader := { reloader with enumerator := .listed os }

/-- The world after `b` has been given a new `C` with the same slot. -/
def moved : World Fixture :=
  ((listing [⟨0⟩]).reload (.redeclaring "C" (.fixed ["x"])) ["b"] furnished).2

/-- The same after an object of `N` has been constructed. -/
def joined : World Fixture := ((World.construct World.run ⟨1⟩ [.int 5]).run.run moved).2

/-- The same after `b` has been given a new `N`. -/
def rejected : World Fixture :=
  ((listing [⟨0⟩, ⟨1⟩]).reload (.redeclaring "N" .native) ["b"] joined).2

/-- The object of `C` has moved to a type of the same layout with its field, and the object of `N`
may not move. -/
theorem storage_for_life_rejected :
    (moved.object ⟨0⟩).type = ⟨2⟩ ∧ (moved.type (moved.object ⟨0⟩).type).layout = .fixed ["x"] ∧
      moved.unwritten (fun _ _ => false) ⟨0⟩ = [("x", .bool true)] ∧
      joined.field? ⟨1⟩ "y" = some (.int 5) ∧ (rejected.object ⟨1⟩).type = ⟨1⟩ := by
  have hgrounded : furnished.Grounded := by decide +kernel
  have hmoved : ∀ writes, furnished.Run writes moved := fun writes =>
    .reload (fun u reg v _ => of_redeclaring "C" (.fixed ["x"]) u reg v)
      (Recompiler.returns_redeclaring "C" (.fixed ["x"])) _ _ _
  -- nobody writes a field while `b` is reloaded
  obtain ⟨hlayout, -, hfields⟩ :=
    (storage_for_life hgrounded (hmoved fun _ _ => false)).1 ⟨0⟩ (by decide +kernel)
  obtain ⟨hconstruct, hlife⟩ :=
    (storage_for_life hgrounded (hmoved everyField)).2 ⟨1⟩ (by decide +kernel)
  have hjoined : (moved.newObject ⟨1⟩).2.Run everyField joined :=
    (hconstruct World.run [.int 5] (fun c args v hv hargs =>
      ⟨(runs_run c args v hv hargs).1, fun _ _ => backs_nil⟩) (by decide +kernel)).1
  -- after the construction `b` is reloaded once more, with a native type
  have hrejected : (moved.newObject ⟨1⟩).2.Run everyField rejected :=
    hjoined.trans (.reload (fun u reg v _ => of_redeclaring "N" .native u reg v)
      (Recompiler.returns_redeclaring "N" .native) _ _ _)
  have hnumber : (moved.newObject ⟨1⟩).1 = ⟨1⟩ := by decide +kernel
  refine ⟨by decide +kernel, hlayout.trans (by decide +kernel), hfields.trans (by decide +kernel),
    by decide +kernel, ?_⟩
  exact hnumber ▸ (hlife rejected hrejected).2.1 (by decide +kernel)

end World.Run

end HotReload
