import HotReload.Proofs.Reload.Course
import HotReload.Proofs.Reload.Recompilers

/-!
# Direct imports and qualified access

A unit can use a definition of another one in two ways: it can hold a copy of it in a slot, or it
can look it up by name each time. A reload of the other unit is meant to keep the two in agreement,
so that the slot ends up with what a look-up finds.

The slot is repaired with the definition that claims the name, and that need not be what is exported
under the name: the claimant is the first own definition of that name in export order, whatever it
is exported as. So the two agree exactly if no other definition of the same name is exported before
(`Reloader.import_agrees_iff`). They do not if a merge leaves an old definition in place under an
alias that comes first (`Reloader.import_differs_under_alias`).
-/

namespace HotReload

variable {σ : Type}

namespace World

/-- Unit `u` owns `d` and exports it under the name that it was defined with. -/
def ExportsOwn (w : World σ) (u : UnitId) (n : String) (d : Definition) : Prop :=
  w.export? u n = some (.definition d) ∧ w.nameOf d = .top (w.unit u).name n

/-- **A direct import.** Slot `x` of another loaded unit `h`, which shows its exports, holds what
`u` exports as `n`, and holds it still in the later world `w₁`. -/
structure DirectImport (w w₁ : World σ) (r : RegistryId) (u h : UnitId) (x n : String)
    (d : Definition) : Prop where
  loaded : h ∈ w.unitsOf r
  other : h ≠ u
  isOpen : w.isOpen h = true
  exported : w.ExportsOwn u n d
  held : w.export? h x = some (.definition d)
  still : w₁.export? h x = some (.definition d)

/-- In a sound world, units that are loaded in one registry have different names. -/
theorem unit_name_ne {w : World σ} (hw : w.Sound) {r : RegistryId} {u h : UnitId} {name : String}
    (hu : w.unit? r name = some u) (hh : h ∈ w.unitsOf r) (hne : h ≠ u) :
    (w.unit h).name ≠ (w.unit u).name := by
  obtain ⟨name', hh'⟩ := mem_unitsOf.mp hh
  have hname := (hw.registered r name u hu).2
  have hname' := (hw.registered r name' h hh').2
  intro heq
  rw [← hname', heq, hname, hu, Option.some.injEq] at hh'
  exact hne hh'.symm

end World

namespace Reloader

variable [Host σ] {recompile : Recompiler σ} {r : Reloader} {names : List String} {w w' : World σ}
  {report : Report} {c : Course σ}

omit [Host σ] in
/-- A direct import from a target is a slot with a stale definition. -/
theorem holdsStale_of_directImport (hw : w.Sound) {b x n : String} {u h : UnitId} {d : Definition}
    (hu : w.unit? r.registry b = some u) {targets : List UnitId} (htarget : u ∈ targets)
    {w₁ : World σ} (himport : w.DirectImport w₁ r.registry u h x n d) :
    w.HoldsStale r.registry targets h x d where
  loaded := himport.loaded
  isOpen := himport.isOpen
  held := himport.held
  foreign := by
    rw [w.owns_eq_false_iff, himport.exported.2]
    exact (World.unit_name_ne hw hu himport.loaded himport.other).symm
  exported := ⟨u, htarget, n, himport.exported.1⟩

/-- **Direct import and qualified access.** After a reload in which `b` succeeded, a direct import
of what `b` exported as `n` holds what `b` exports as `n` now, exactly if no other definition of `b`
with the name `n` comes first among its exports. -/
theorem import_agrees_iff (hlawful : recompile.Lawful) (hw : w.Sound)
    (hcourse : r.course? recompile names w = some c)
    (hreload : r.reload recompile names w = (.ok report, w')) {b x n : String} {u h : UnitId}
    {d d' : Definition} (hu : w.unit? r.registry b = some u) (hreloaded : b ∈ report.reloaded)
    (himport : w.DirectImport c.compiled r.registry u h x n d) (hnow : w'.ExportsOwn u n d') :
    w'.export? h x = some (.definition d') ↔ w'.claimant? u (.top b n) = some d' := by
  have hname := (hw.registered r.registry b u hu).2
  obtain ⟨rfl, rfl⟩ := eq_of_course hcourse hreload
  have hmem := (Course.mem_reloaded_report hlawful hw hcourse hu).mp hreloaded
  have hstale := holdsStale_of_directImport hw hu ((Course.mem_reloaded hcourse).2 u hmem) himport
  -- the name is claimed, by `d'` or by an own definition that comes before it
  have hform := Course.sameForm_returned c r w
  have hlater := Course.later_compiled hlawful hw hcourse
  have hunit : ((c.returned r w).unit u).name = b := by
    have hlt := (hw.registered r.registry b u hu).1
    rw [hform.unitName, hlater.unitName u hlt, hname]
  have hkey : (c.returned r w).nameOf d' = w.nameOf d := by
    rw [hnow.2, himport.exported.2, hunit, hname]
  have hq : w.nameOf d = .top b n := by rw [himport.exported.2, hname]
  obtain ⟨d₁, hclaim⟩ := (c.returned r w).claimant?_isSome hnow.1 (by rw [hnow.2]; rfl)
  rw [hkey, Course.claimant?_returned hlawful hw hcourse] at hclaim
  -- and the slot is given the claimant
  have hslot := (Course.opened_session hcourse).export?_of_claimant
    (Course.keepsNames hlawful hw hcourse) (Course.nodup_names_reloaded hlawful hw hcourse) hstale
    himport.still hmem hclaim
  rw [Course.export?_returned, Course.claimant?_returned hlawful hw hcourse, ← hq, hclaim]
  change c.repaired.2.2.export? h x = _ at hslot
  rw [hslot, Option.some.injEq, Option.some.injEq, Value.definition.injEq]

open Scenario.TwoUnits

/-- The course of a reload of `b` in the fixture, by a recompiler that makes `f` anew. -/
def renewal : Course Fixture :=
  (reloader.course? (.renewing "f") ["b"] opening).get (by decide +kernel)

theorem import_agrees_after_renewal :
    (renewal.returned reloader opening).export? opening.host.a "f" = some (.callable ⟨4⟩) := by
  have hcourse : reloader.course? (.renewing "f") ["b"] opening = some renewal :=
    (Option.some_get _).symm
  -- the name is exported once, so the claimant is what it is exported as
  refine (import_agrees_iff (x := "f") (n := "f") (d := .callable ⟨0⟩) (b := "b")
    (u := opening.host.b) (Recompiler.lawful_renewing "f") ?_ hcourse (reload_of_course hcourse)
    ?_ ?_ ⟨?_, ?_, ?_, ⟨?_, ?_⟩, ?_, ?_⟩ ⟨?_, ?_⟩).mpr ?_
  all_goals decide +kernel

/-- The fixture with an `f` that `b` exports as `alias` first, and that `a` holds a copy of. -/
def aliased : World Fixture :=
  let (f, w) := bare.newCallable ⟨"b", "f", some bare.host.b, .literal .nil, none⟩
  let w := w.setExport w.host.b "alias" (.callable f)
  let w := w.setExport w.host.b "f" (.callable f)
  w.setExport w.host.a "x" (.callable f)

/-- The course of a reload in which `f` is made anew and `alias` stays. -/
def aliasing : Course Fixture :=
  (reloader.course? (.renewing "f") ["b"] aliased).get (by decide +kernel)

/-- **An alias that stays** keeps the old definition in the importer, and what `b` exports as `f` is
the new one. -/
theorem import_differs_under_alias :
    ∃ (c : Course Fixture) (report : Report) (w' : World Fixture) (d d' : Definition),
      aliased.Sound ∧ (.renewing "f" : Recompiler Fixture).Lawful ∧
      reloader.course? (.renewing "f") ["b"] aliased = some c ∧
      reloader.reload (.renewing "f") ["b"] aliased = (.ok report, w') ∧ "b" ∈ report.reloaded ∧
      aliased.DirectImport c.compiled reloader.registry aliased.host.b aliased.host.a "x" "f" d ∧
      w'.ExportsOwn aliased.host.b "f" d' ∧
      w'.export? aliased.host.a "x" ≠ some (.definition d') := by
  have hcourse : reloader.course? (.renewing "f") ["b"] aliased = some aliasing :=
    (Option.some_get _).symm
  refine ⟨aliasing, aliasing.report, aliasing.returned reloader aliased, .callable ⟨0⟩,
    .callable ⟨1⟩, ?_, Recompiler.lawful_renewing "f", hcourse, reload_of_course hcourse, ?_,
    ⟨?_, ?_, ?_, ⟨?_, ?_⟩, ?_, ?_⟩, ⟨?_, ?_⟩, ?_⟩
  all_goals decide +kernel

end Reloader

end HotReload
