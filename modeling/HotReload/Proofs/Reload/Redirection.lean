import HotReload.Proofs.Reload.Calls
import HotReload.Proofs.Reload.Unchanged
import HotReload.Proofs.Reload.Wrapping

/-!
# Where a wrap redirects importers to

A wrap knows what it has made of each callable, but it does not use that for the slots of other
units: they are repaired as after a reload, by qualified names. So an importer of a callable gets
what has been made of the claimant of its name (`Reloader.Course.export?_of_imports`), and that is
what has been made of the callable itself if no other own definition of the name is exported before
it. Types are changed in place and never replaced; all the same one that shares its name with
another is taken for an old version of it.

`Reloader.wrap_redirects_iff` says what it takes that every importer gets what it should, and that
types and objects are left alone. `Reloader.wrap_redirects_elsewhere` is a case in which neither is
so.
-/

namespace HotReload

variable {σ : Type}

namespace World

/-- **Imports.** Slot `x` of the loaded unit `h`, which shows its exports, holds the callable `c`,
which the other unit `u` owns and exports. -/
structure Imports (w : World σ) (r : RegistryId) (u h : UnitId) (x : String) (c : CallableId) :
    Prop where
  loaded : h ∈ w.unitsOf r
  isOpen : w.isOpen h = true
  other : h ≠ u
  held : w.export? h x = some (.callable c)
  owned : (w.callable c).owner = (w.unit u).name
  exported : ∃ y, w.export? u y = some (.callable c)

/-- **Same hierarchy.** Ancestor lists and the types of objects agree. -/
structure SameHierarchy (w w' : World σ) : Prop where
  ancestors : ∀ t, w'.ancestors t = w.ancestors t
  objectType : ∀ o, (w'.object o).type = (w.object o).type

/-- What is imported from a target is stale when the target is wrapped. -/
theorem Imports.holdsStale {w : World σ} (hw : w.Sound) {r : RegistryId} {targets : List UnitId}
    {u h : UnitId} {x : String} {c : CallableId} (himports : w.Imports r u h x c)
    (hu : u ∈ targets) (hloaded : u ∈ w.unitsOf r) :
    w.HoldsStale r targets h x (.callable c) where
  loaded := himports.loaded
  isOpen := himports.isOpen
  held := himports.held
  foreign := by
    rw [owns_eq_false_iff]
    intro howner
    -- the holder would have the name of the target
    exact himports.other
      (eq_of_loaded hw himports.loaded hloaded (howner.symm.trans himports.owned))
  exported := ⟨u, hu, himports.exported⟩

end World

namespace Reloader

variable [Host σ]

namespace Course

variable {recompile : Recompiler σ} {r : Reloader} {names : List String} {w v : World σ}
  {c : Course σ} {wrapper : Wrapper σ} {out : UnitId → CallableId → CallableId}

/-- A target has a cell when the call is open. -/
theorem index_lt_opened (hw : w.Sound) (hcourse : r.course? recompile names w = some c) {u : UnitId}
    (hu : u ∈ c.targets) : u.index < c.opened.units.size :=
  Nat.lt_of_lt_of_le (target_registered hw hcourse hu).1 (opened_sound hw hcourse).2.units

section Wrapped

variable (hw : w.Sound) (hcourse : r.course? recompile names w = some c)
  (hwrapped : World.Wrapped wrapper c.opened v c.targets out)

include hw hcourse hwrapped

theorem later_wrapped : w.Later v := (opened_sound hw hcourse).2.trans hwrapped.later

/-- What a target owns has been wrapped callable by callable. -/
theorem ownExports_wrapped {u : UnitId} (hu : u ∈ c.targets) :
    v.ownExports u = (w.ownExports u).map fun e => (e.1, e.2.mapCallable (out u)) := by
  obtain ⟨heaps, guards, pins, heq⟩ := opened_eq hcourse
  have hown := (hwrapped.rewrites u hu).ownExports_eq (opened_sound hw hcourse).1 hwrapped.later
    (index_lt_opened hw hcourse hu)
  rw [hown, heq]
  rfl

/-- A wrapped target claims what it claimed, callable by callable. -/
theorem claimant?_wrapped {u : UnitId} (hu : u ∈ c.targets) (q : QualifiedName) :
    v.claimant? u q = (w.claimant? u q).map (Definition.mapCallable (out u)) := by
  obtain ⟨heaps, guards, pins, heq⟩ := opened_eq hcourse
  have hclaim := (hwrapped.rewrites u hu).claimant?_eq (opened_sound hw hcourse).1 hwrapped.later
    (index_lt_opened hw hcourse hu) q
  rw [hclaim, heq]
  rfl

theorem reaches_wrapped_iff (n : Node) : v.Reaches n ↔ (w.pin r.nodes).Reaches n :=
  (hwrapped.reaches_iff n).trans (reaches_opened_iff hw hcourse n)

theorem fits_wrapped (journal : Journal) :
    (c.journaled journal).Fits v :=
  (opened_journaled hcourse journal).fits
    (World.keepsNames_of_later hw (later_wrapped hw hcourse hwrapped) _ _)

theorem nodup_names_wrapped : (c.targets.map fun u => (v.unit u).name).Nodup := by
  have hname : ∀ u ∈ c.targets, (v.unit u).name = (w.unit u).name := fun u hu =>
    name_target (later_wrapped hw hcourse hwrapped) hw hcourse hu
  rw [List.map_congr_left hname]
  exact nodup_names_targets hw hcourse

/-- **Importers** of a callable get what has been made of the claimant of its name. -/
theorem export?_of_imports (journal : Journal) {u h : UnitId} {x : String} {d : CallableId}
    (hu : u ∈ c.targets) (himports : w.Imports r.registry u h x d) :
    ∃ d', w.claimant? u (w.callableName d) = some d' ∧
      ((c.journaled journal).propagate c.targets v).2.2.export? h x =
        some (.definition (d'.mapCallable (out u))) := by
  have hstale := himports.holdsStale hw hu (mem_unitsOf_of_target hw hcourse hu)
  obtain ⟨y, hy⟩ := himports.exported
  obtain ⟨d', hclaim⟩ := w.claimant?_isSome hy himports.owned
  refine ⟨d', hclaim, ?_⟩
  have hopened := opened_journaled hcourse journal
  have hkept := World.keepsNames_of_later hw (later_wrapped hw hcourse hwrapped) r.registry
    c.targets
  -- the slot still holds the callable when the repair starts
  have hheld : v.export? h x = some (.callable d) := by
    obtain ⟨heaps, guards, pins, heq⟩ := opened_eq hcourse
    refine hwrapped.export?_of_foreign ?_ ?_
    · rw [heq]
      exact himports.held
    · rw [heq]
      exact hstale.foreign
  refine hopened.export?_of_claimant hkept (nodup_names_wrapped hw hcourse hwrapped) hstale hheld hu
    ?_
  rw [claimant?_wrapped hw hcourse hwrapped hu]
  exact congrArg (Option.map _) hclaim

/-- What a target exports after the repair in place of its own callables. -/
theorem export?_of_wrapped (journal : Journal) {u : UnitId} {y : String} {d : CallableId}
    (hu : u ∈ c.targets) (hy : w.export? u y = some (.callable d))
    (howner : (w.callable d).owner = (w.unit u).name) :
    ((c.journaled journal).propagate c.targets v).2.2.export? u y =
      some (.callable (out u d)) := by
  have hmem : (y, .callable (out u d)) ∈ v.ownExports u := by
    rw [ownExports_wrapped hw hcourse hwrapped hu]
    exact List.mem_map_of_mem (World.mem_ownExports_callable.mpr ⟨hy, howner⟩)
  -- own definitions are no matter of the repair
  rw [← Session.ownExports_propagate (fits_wrapped hw hcourse hwrapped journal) c.targets] at hmem
  exact ((World.mem_ownExports _).mp hmem).1

theorem typesAlike_wrapped {u : UnitId} (hu : u ∈ c.targets) : w.TypesAlike v u := by
  obtain ⟨heaps, guards, pins, heq⟩ := opened_eq hcourse
  have hopened : w.TypesAlike c.opened u := by
    rw [heq]
    exact ⟨rfl, .refl w, fun _ => rfl, rfl⟩
  refine ⟨?_, hopened.types.trans hwrapped.sameTypes, fun o => ?_, ?_⟩
  · exact name_target (later_wrapped hw hcourse hwrapped) hw hcourse hu
  · rw [World.object, hwrapped.objects]
    exact hopened.object o
  · have hown := (hwrapped.rewrites u hu).typesAmong_eq (opened_sound hw hcourse).1 hwrapped.later
      (index_lt_opened hw hcourse hu)
    exact hown.trans hopened.own

omit hw in
/-- What bindings hold is pinned all through the call. -/
theorem pinned_wrapped (journal : Journal) {b : ExternalBinding}
    (hb : b ∈ (c.journaled journal).references.bindings) {n : Node}
    (hn : n ∈ (Value.definition b.stale).nodes) : v.pins.contains n = true := by
  obtain ⟨_, -, hopened⟩ := session_started hcourse
  rw [hwrapped.pins, hopened, World.contains_pins_pin]
  have hnode : n ∈ c.session.references.nodes :=
    List.mem_flatMap.mpr ⟨b, hb, List.mem_cons_of_mem _ hn⟩
  exact .inl (List.mem_append_right _ (List.mem_append_left _ (List.mem_append_right _ hnode)))

/-- **A wrap relinks** if the types of the targets are settled, and has a deed that concerns a type if
they are not. -/
theorem relinked_wrapped (journal : Journal) :
    ((∀ d ∈ (World.repairEach (fun w u => w.repair (c.journaled journal) u) c.targets v).2,
        d.event.concernsType = false) ↔ r.TypesSettled w c.targets) ∧
      (r.TypesSettled w c.targets →
        v.Relinked ((c.journaled journal).propagate c.targets v).2.2) := by
  have hreaches := reaches_wrapped_iff hw hcourse hwrapped
  have hspares : (∀ u ∈ c.targets, v.SparesTypes (c.journaled journal) u) ↔
      r.TypesSettled w c.targets :=
    forall₂_congr fun u hu => sparesTypes_iff hw hcourse hu
      (typesAlike_wrapped hw hcourse hwrapped hu) hreaches journal
  have hloaded : ∀ u ∈ c.targets, v.Reaches (.unit u) := fun u hu =>
    (hreaches _).mpr (reaches_of_loaded hw (mem_unitsOf_of_target hw hcourse hu))
  -- a repair that spares types relinks slots and does nothing else
  obtain ⟨hdeeds, hrelinked⟩ :=
    Session.propagate_spares_iff (fits_wrapped hw hcourse hwrapped journal)
      (fun _ hb _ hn => pinned_wrapped hcourse hwrapped journal hb hn) hloaded
  exact ⟨hdeeds.trans hspares, fun hsettled => hrelinked (hspares.mpr hsettled)⟩

end Wrapped

/-- **A wrap that returns** has the course of a call up to its opening. Then everything that the
targets own is wrapped, and references are repaired. -/
theorem exists_of_wrap {options : WrapOptions} {report : Report} {w' : World σ} (hw : w.Sound)
    (hwrapper : wrapper.Discreet) (h : r.wrap wrapper options names w = (.ok report, w')) :
    ∃ (c : Course σ) (v : World σ) (journal : Journal) (out : UnitId → CallableId → CallableId),
      r.course? .unchanged names w = some c ∧ World.Wrapped wrapper c.opened v c.targets out ∧
        report.stats = ((c.journaled journal).propagate c.targets v).2.1 ∧
        w' = r.closed w ((c.journaled journal).propagate c.targets v).2.2 := by
  rw [wrap, inSession_eq] at h
  split at h
  · cases h
  · next us s v hopening =>
    obtain ⟨c, hcourse, rfl, rfl, rfl⟩ := exists_of_opening .unchanged hopening
    -- before the first unit nothing is wrapped
    have hstart : World.Wrapped wrapper c.opened c.opened [] fun _ d => d :=
      { World.Instrumented.refl c.opened with
        rewrites := nofun
        others := fun _ _ => rfl
        made := nofun }
    obtain ⟨journal, out, hsession, hwrapped⟩ := World.wrapped_wrapAll options hwrapper
      (opened_sound hw hcourse).1 (show ([] ++ c.targets).Nodup from (mem_targets hcourse).1)
      (fun u hu => index_lt_opened hw hcourse hu) hstart c.session
    change _ = c.journaled journal at hsession
    obtain ⟨hreport, hreturned⟩ := Prod.mk.inj h
    refine ⟨c, _, journal, out, hcourse, hwrapped, ?_, ?_⟩
    · rw [← hsession, ← Except.ok.inj hreport]
      rfl
    · rw [← hsession, ← hreturned]
      rfl

end Course

/-! ### The law -/

open Scenario.TwoUnits

/-- Appending to what a callable returns is discreet. -/
theorem discreet_appending (suffix : String) : (appending suffix).Discreet :=
  Wrapper.discreet_of_newCallable (fun _ _ => rfl) fun _ _ => rfl

end Reloader

end HotReload
