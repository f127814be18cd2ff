import HotReload.Proofs.Reload.Pinned
import HotReload.Proofs.Reload.Recompilers
import HotReload.Proofs.Repair.Relinking

/-!
# Reloads of unchanged units

A recompiler that returns what a unit exports gives a reload nothing to do. Its report counts
nothing and no reference has changed, provided that each name belongs to one definition: old and new
are matched by name, and a definition that shares its name with one exported before it is taken for
an old version of that one.

The exact condition has a part for each pass. Slots are left alone if every stale definition in a
slot of another unit is the claimant of its name (`World.ClaimsSettled`); types are left alone if
every type of a target is the first of its name, or has neither living subtypes nor objects
(`Reloader.TypesSettled`). `Reloader.reload_unchanged_iff` says that these two are what it takes,
and `Reloader.reload_unchanged_repoints` is a case in which the first one fails.
-/

namespace HotReload

variable {σ : Type}

/-! ### Installing what is there -/

namespace Store

variable {α : Type} [Inhabited α]

/-- Writing what a cell holds changes nothing. -/
theorem set_get_self (s : Store α) {i : Nat} (h : i < s.size) : s.set i (s.get i) = s := by
  obtain ⟨cells⟩ := s
  change i < cells.size at h
  have hset : (Store.mk cells).set i ((Store.mk cells).get i) =
      ⟨cells.setIfInBounds i ((Store.mk cells).get i)⟩ := if_pos h
  rw [hset, get_eq, Array.getElem?_eq_getElem h, Option.getD_some]
  congr 1
  ext j hj hj'
  · rw [Array.size_setIfInBounds]
  · rw [Array.getElem_setIfInBounds]
    -- the cell that is written gets back what it holds
    split
    · next hij => simp only [hij]
    · rfl

end Store

namespace World

theorem install_exports {w : World σ} {u : UnitId} (hu : u.index < w.units.size)
    (mode : InstallMode) : w.install mode u (w.exports u) = w := by
  have hput : w.replaceExports u (w.exports u) = w := by
    have hset := w.units.set_get_self hu
    change ({ w with units := w.units.set u.index (w.units.get u.index) } : World σ) = w
    rw [hset]
  cases mode with
  | merge =>
    change w.replaceExports u ((w.exports u).merge (w.exports u)) = w
    rw [Table.merge_self, hput]
  | replace => exact hput

/-- **Same references.** Exports, ancestors and the types of objects agree. -/
structure SameReferences (w w' : World σ) : Prop where
  exports : ∀ u, w'.exports u = w.exports u
  ancestors : ∀ t, w'.ancestors t = w.ancestors t
  objectType : ∀ o, (w'.object o).type = (w.object o).type

/-- **Types alike.** As far as types go, `u` exports in `w'` what it exports in `w`, types have
other members at most, and objects are the same. -/
structure TypesAlike (w w' : World σ) (u : UnitId) : Prop where
  unitName : (w'.unit u).name = (w.unit u).name
  types : w.SameTypes w'
  object : ∀ o, w'.object o = w.object o
  own : typesAmong (w'.ownExports u) = typesAmong (w.ownExports u)

/-- **Settled claims.** A slot that holds a stale definition of a target holds the claimant of the
name. -/
def ClaimsSettled (w : World σ) (r : RegistryId) (targets : List UnitId) : Prop :=
  ∀ u ∈ targets, ∀ h x d, w.HoldsStale r targets h x d → (w.nameOf d).unit = (w.unit u).name →
    w.claimant? u (w.nameOf d) = some d

end World

namespace Recompiler

variable [Host σ]

/-- **Unchanging.** What these units export is what the recompiler returns for them, and it touches
host state at most, and no root of it. -/
structure Unchanging (recompile : Recompiler σ) (units : List UnitId) : Prop where
  table : ∀ u ∈ units, ∀ r (w : World σ), (recompile u r w).1 = .ok (w.exports u)
  world : ∀ u ∈ units, ∀ r (w : World σ), ∃ host,
    (recompile u r w).2 = { w with host := host } ∧ Host.roots host = Host.roots w.host

theorem unchanging_unchanged (units : List UnitId) :
    (unchanged : Recompiler σ).Unchanging units where
  table _ _ _ _ := rfl
  world _ _ _ w := ⟨w.host, rfl, rfl⟩

end Recompiler

namespace Reloader

variable [Host σ]

/-- No living type derives from `t`, and the enumerator finds no object that has it. -/
def Unused (r : Reloader) (w : World σ) (t : TypeId) : Prop :=
  (∀ s, (w.pin r.nodes).isAlive (.type s) = true → t ∉ w.ancestors s) ∧
    ∀ o ∈ r.enumerated w, (w.object o).type ≠ t

/-- **Settled types.** A type that a target exports and owns is the first of its name, or is not in
use. -/
def TypesSettled (r : Reloader) (w : World σ) (targets : List UnitId) : Prop :=
  ∀ u ∈ targets, ∀ x t, w.export? u x = some (.type t) → (w.type t).owner = (w.unit u).name →
    w.successor? (typesAmong (w.ownExports u)) t = some t ∨ r.Unused w t

namespace Course

variable {recompile : Recompiler σ} {r : Reloader} {names : List String} {w : World σ}
  {c : Course σ}

/-- A batch of unchanged units: all of them succeed, and nothing has changed. -/
theorem compiled_unchanged (hw : w.Sound) (h : r.course? recompile names w = some c)
    (hrecompile : recompile.Unchanging c.targets) :
    c.batch.reloaded = c.targets ∧ ∃ host, c.compiled = { c.opened with host := host } ∧
      Host.roots host = Host.roots c.opened.host := by
  obtain ⟨v, -, -, hrun⟩ := course?_eq_some h
  have hlater := (opened_sound hw h).2
  have hunits := map_fst_units c
  have hkeeps : (r.workshop recompile).Keeps c.targets fun s => ∃ host,
      s.1 = { c.opened with host := host } ∧ Host.roots host = Host.roots c.opened.host := by
    refine ⟨fun _ _ _ _ hs => hs, fun u hu s hs => ?_, fun u hu s table hs htable => ?_⟩
    · obtain ⟨host, heq, hroots⟩ := hs
      obtain ⟨host', heq', hroots'⟩ := hrecompile.world u hu r.registry s.1
      refine ⟨host', heq'.trans ?_, hroots'.trans ?_⟩ <;> rw [heq]
      exact hroots
    · -- the table that is installed is the one that is there
      obtain ⟨host, heq, hroots⟩ := hs
      obtain ⟨host', heq', hroots'⟩ := hrecompile.world u hu r.registry s.1
      have htable' : table = s.1.exports u := by
        have hok := hrecompile.table u hu r.registry s.1
        change (recompile u r.registry s.1).1 = .ok table at htable
        rw [htable, Except.ok.injEq] at hok
        exact hok
      have hknown : u.index < (recompile u r.registry s.1).2.units.size := by
        rw [heq', heq]
        exact Nat.lt_of_lt_of_le (target_registered hw h hu).1 hlater.units
      refine ⟨host', ?_, hroots'.trans (heq ▸ hroots)⟩
      change (recompile u r.registry s.1).2.install r.config.installMode u table = _
      have hexports : s.1.exports u = (recompile u r.registry s.1).2.exports u := by
        rw [heq']
        rfl
      rw [htable', hexports, World.install_exports hknown, heq', heq]
  have hstart : ∃ host, c.opened = { c.opened with host := host } ∧
      Host.roots host = Host.roots c.opened.host := ⟨c.opened.host, rfl, rfl⟩
  -- from here on it is the bookkeeping of the batch
  have hkept := Batch.run_preserves r.config.retryBudget c.units (hunits.symm ▸ hkeeps)
    (s := (c.opened, c.session.journal)) hstart
  obtain ⟨hreloaded, -⟩ := Batch.run_of_succeeding r.config.retryBudget c.units
    (hunits.symm ▸ hkeeps)
    (fun u hu s _ => ⟨_, hrecompile.table u (hunits ▸ hu) r.registry s.1⟩)
    (s := (c.opened, c.session.journal)) hstart
  rw [hrun] at hkept hreloaded
  exact ⟨hreloaded.trans hunits, hkept⟩

/-- Cells are as they were, except heaps and guards, when the repair of unchanged units starts. -/
theorem compiled_eq (hw : w.Sound) (h : r.course? recompile names w = some c)
    (hrecompile : recompile.Unchanging c.targets) : ∃ heaps guards pins host,
      c.compiled = { w with heaps := heaps, guards := guards, pins := pins, host := host } := by
  obtain ⟨heaps, guards, pins, hopened⟩ := opened_eq h
  obtain ⟨-, host, heq, -⟩ := compiled_unchanged hw h hrecompile
  refine ⟨heaps, guards, pins, host, ?_⟩
  rw [heq, hopened]

/-- Bindings to definitions of `u` are left alone, and none is reported, exactly if each of them is
to the claimant of its name. -/
theorem bindings_still_iff (hw : w.Sound) (h : r.course? recompile names w = some c)
    (hrecompile : recompile.Unchanging c.targets) (u : UnitId) :
    ((∀ t ∈ c.closing.repointings c.compiled u, ¬ c.compiled.Acts t) ∧
        c.closing.unclaimed c.compiled u = []) ↔
      ∀ h x d, w.HoldsStale r.registry c.targets h x d → (w.nameOf d).unit = (w.unit u).name →
        w.claimant? u (w.nameOf d) = some d := by
  obtain ⟨heaps, guards, pins, host, heq⟩ := compiled_eq hw h hrecompile
  have hopened := opened_session h
  have hexport : ∀ h x, c.compiled.export? h x = w.export? h x := by
    intro h x
    rw [heq]
    rfl
  have hclaim : ∀ q, c.compiled.claimant? u q = w.claimant? u q := by
    intro q
    rw [heq]
    rfl
  have hunit : (c.compiled.unit u).name = (w.unit u).name := by
    rw [heq]
    rfl
  constructor
  · rintro ⟨hacts, hnone⟩ h' x d hstale hname
    have hb : (⟨h', x, d, w.nameOf d⟩ : ExternalBinding) ∈ c.closing.references.bindings :=
      hopened.mem_bindings_iff.mpr ⟨hstale, rfl⟩
    cases hc : w.claimant? u (w.nameOf d) with
    | none =>
      -- the name would be reported
      have hmem : w.nameOf d ∈ c.closing.unclaimed c.compiled u := by
        refine Session.mem_unclaimed.mpr ⟨⟨_, hb, rfl⟩, hname.trans hunit.symm, ?_⟩
        rw [hclaim, hc]
      rw [hnone] at hmem
      cases hmem
    | some d' =>
      have ht := Session.mem_repointings.mpr ⟨hb, (hclaim _).trans hc⟩
      by_contra hne
      refine hacts _ ht ⟨(hexport h' x).trans hstale.held, fun heq' => hne ?_⟩
      exact congrArg some (Eq.symm heq')
  · intro hsettled
    constructor
    · rintro ⟨b, d'⟩ ht ⟨-, hne⟩
      obtain ⟨hb, hc⟩ := Session.mem_repointings.mp ht
      obtain ⟨hstale, hkey⟩ := hopened.mem_bindings_iff.mp hb
      rw [hclaim] at hc
      have hunit' := (w.claimant?_spec hc).2.1
      rw [hkey] at hc hunit'
      rw [hsettled _ _ _ hstale hunit', Option.some.injEq] at hc
      exact hne hc
    · rw [List.eq_nil_iff_forall_not_mem]
      intro q hq
      obtain ⟨⟨b, hb, rfl⟩, hq', hc⟩ := Session.mem_unclaimed.mp hq
      obtain ⟨hstale, hkey⟩ := hopened.mem_bindings_iff.mp hb
      rw [hclaim, hkey] at hc
      rw [hkey, hunit] at hq'
      rw [hsettled _ _ _ hstale hq'] at hc
      cases hc

section TypesAlike

variable {u : UnitId} {v : World σ} (hw : w.Sound) (h : r.course? recompile names w = some c)
  (hu : u ∈ c.targets) (halike : w.TypesAlike v u)
  (hreaches : ∀ n, v.Reaches n ↔ (w.pin r.nodes).Reaches n) (journal : Journal)

include hw h hu halike in
/-- The old types of a target are those that it exported and owned when the call was made. -/
theorem mem_ownTypes_of_alike {t : TypeId} :
    t ∈ (c.journaled journal).snapshot.ownTypes v (v.unit u).name ↔
      (∃ x, w.export? u x = some (.type t)) ∧ (w.type t).owner = (w.unit u).name := by
  have htable : c.session.snapshot.exports? (w.unit u).name = some (w.exports u) :=
    Snapshot.exports?_eq_some (opened_session h).capture_eq (nodup_names_targets hw h) hu
  rw [halike.unitName, journaled, Snapshot.mem_ownTypes htable, halike.types.owner]
  exact Iff.rfl

include hw h hu halike hreaches in
/-- There is nothing to be done for an old type exactly if it is the first of its name or not in
use. -/
theorem deeds_repairType_of_alike {t : TypeId} {x : String} (hx : w.export? u x = some (.type t))
    (hlocal : (w.type t).owner = (w.unit u).name) :
    (World.repairType (c.journaled journal) (typesAmong (v.ownExports u)) (v.pin (v.keptFor u))
        t).2 = [] ↔
      w.successor? (typesAmong (w.ownExports u)) t = some t ∨ r.Unused w t := by
  have htypes : w.SameTypes (v.pin (v.keptFor u)) := halike.types
  have hlisted : t ∈ typesAmong (w.ownExports u) :=
    Snapshot.mem_typesAmong.mpr ⟨x, w.mem_ownExports.mpr ⟨hx, hlocal⟩⟩
  have hstale : c.session.snapshot.isStale (.type t) = true :=
    (Snapshot.isStale_iff (opened_session h).capture_eq _).mpr ⟨u, hu, x, hx⟩
  -- what is held on to on account of the unit is reached from it
  have hloaded : v.Reaches (.unit u) :=
    (hreaches _).mpr (reaches_of_loaded hw (mem_unitsOf_of_target hw h hu))
  have halive : ∀ n, (v.pin (v.keptFor u)).Reaches n ↔ (w.pin r.nodes).Reaches n :=
    fun n => (World.reaches_pin_keptFor_iff hloaded n).trans (hreaches n)
  cases hsucc : w.successor? (typesAmong (w.ownExports u)) t with
  | none =>
    have hno := List.find?_eq_none.mp hsucc t hlisted
    simp at hno
  | some new =>
    have hname : w.typeName t = w.typeName new := (World.typeName_of_successor? hsucc hlocal).symm
    have hsucc' : (v.pin (v.keptFor u)).successor? (typesAmong (v.ownExports u)) t = some new := by
      rw [halike.own, htypes.successor?, hsucc]
    rw [World.deeds_repairType_eq_nil_iff hsucc', Option.some.injEq, eq_comm (a := new)]
    · refine or_congr_right' fun hne => and_congr ?_ ?_
      · rw [List.eq_nil_iff_forall_not_mem]
        refine forall_congr' fun s => ?_
        rw [World.mem_subtypes, halive, World.isAlive_iff, htypes.subtypes, hw.mirror, not_and']
      · refine forall_congr' fun o => ?_
        have hrecorded := mem_objectsOf hw h (o := o) (t := t)
        change o ∈ (c.journaled journal).objectsOf t ↔ _ at hrecorded
        have hobject : (v.pin (v.keptFor u)).object o = w.object o := halike.object o
        rw [hrecorded, hobject]
        constructor
        · intro hmove ho ht
          exact hne (ht.symm.trans (hmove ⟨ho, ht, hstale⟩))
        · rintro hnone ⟨ho, ht, -⟩
          exact absurd ht (hnone ho)
    · intro s hs
      rw [htypes.subtypes] at hs
      exact (htypes.ancestors s).symm ▸ (hw.mirror s t).mp hs
    · rw [htypes.typeName, htypes.typeName, hname]

include hw h hu halike hreaches in
/-- **Spared types.** The types of a target are spared exactly if each of them is the first of its
name or not in use. -/
theorem sparesTypes_iff :
    v.SparesTypes (c.journaled journal) u ↔
      ∀ x t, w.export? u x = some (.type t) → (w.type t).owner = (w.unit u).name →
        w.successor? (typesAmong (w.ownExports u)) t = some t ∨ r.Unused w t := by
  have hmem := fun t => mem_ownTypes_of_alike hw h hu halike journal (t := t)
  constructor
  · intro hspares x t hx hlocal
    exact (deeds_repairType_of_alike hw h hu halike hreaches journal hx hlocal).mp
      (hspares t ((hmem t).mpr ⟨⟨x, hx⟩, hlocal⟩))
  · intro hsettled t ht
    obtain ⟨⟨x, hx⟩, hlocal⟩ := (hmem t).mp ht
    exact (deeds_repairType_of_alike hw h hu halike hreaches journal hx hlocal).mpr
      (hsettled x t hx hlocal)

end TypesAlike

/-- What is reached when the repair of unchanged units starts is what the reloader reaches. -/
theorem reaches_compiled_unchanged_iff (hw : w.Sound) (h : r.course? recompile names w = some c)
    (hrecompile : recompile.Unchanging c.targets) (n : Node) :
    c.compiled.Reaches n ↔ (w.pin r.nodes).Reaches n := by
  obtain ⟨-, host, heq, hroots⟩ := compiled_unchanged hw h hrecompile
  refine Iff.trans ?_ (reaches_opened_iff hw h n)
  rw [heq]
  refine World.reaches_congr ?_ ?_ ?_ ?_ ?_ ?_ n
  case refine_5 => exact fun _ => Iff.rfl
  case refine_6 => exact hroots
  all_goals rfl

/-- Types of `u` are left alone exactly if they are the first of their name or not in use. -/
theorem types_still_iff (hw : w.Sound) (h : r.course? recompile names w = some c)
    (hrecompile : recompile.Unchanging c.targets) {u : UnitId} (hu : u ∈ c.targets) :
    c.compiled.SparesTypes c.closing u ↔
      ∀ x t, w.export? u x = some (.type t) → (w.type t).owner = (w.unit u).name →
        w.successor? (typesAmong (w.ownExports u)) t = some t ∨ r.Unused w t := by
  have hreaches := reaches_compiled_unchanged_iff hw h hrecompile
  obtain ⟨heaps, guards, pins, host, heq⟩ := compiled_eq hw h hrecompile
  have halike : w.TypesAlike c.compiled u := by
    rw [heq]
    exact ⟨rfl, .refl w, fun _ => rfl, rfl⟩
  exact sparesTypes_iff hw h hu halike hreaches c.journal

end Course

/-! ### The law -/

/-- **Reloading unchanged units.** A reload of units that show their exports, by a recompiler that
returns what they export, returns a report. The report counts nothing and all references are what
they were, exactly if the claims and the types of the units are settled. -/
theorem reload_unchanged_iff {recompile : Recompiler σ} {r : Reloader} {names : List String}
    {w : World σ} {us : List UnitId} (hw : w.Sound) (hidle : w.isHeld r.guard = false)
    (hconfig : r.config.fault? = none) (htargets : targets w r.registry names = .ok us)
    (hopen : ∀ u ∈ us, w.isOpen u = true) (hrecompile : recompile.Unchanging us) :
    ∃ report w', r.reload recompile names w = (.ok report, w') ∧
      ((report.stats = .zero ∧ w.SameReferences w') ↔
        w.ClaimsSettled r.registry us ∧ r.TypesSettled w us) := by
  obtain ⟨c, hcourse, rfl⟩ := exists_course_of_open recompile hidle hconfig htargets hopen
  refine ⟨c.report, c.returned r w, reload_of_course hcourse, ?_⟩
  obtain ⟨hreloaded, -⟩ := Course.compiled_unchanged hw hcourse hrecompile
  obtain ⟨heaps, guards, pins, host, heq⟩ := Course.compiled_eq hw hcourse hrecompile
  obtain ⟨hstill, hsame⟩ := c.closing.propagate_still_iff c.batch.reloaded c.compiled
  -- nothing is counted exactly if no unit has anything repaired
  have hstats : c.report.stats = .zero ↔ ∀ u ∈ c.targets, (c.compiled.repair c.closing u).2 = [] :=
    hreloaded ▸ hstill
  -- when nothing is counted the repair leaves the world in which it starts
  have hreferences : c.report.stats = .zero → w.SameReferences (c.returned r w) := by
    intro hzero
    have hworld : c.repaired.2.2 = c.compiled := hsame hzero
    refine ⟨fun u => ?_, fun t => ?_, fun o => ?_⟩
    · rw [Course.exports_returned, hworld, heq]
      rfl
    · change c.repaired.2.2.ancestors t = _
      rw [hworld, heq]
      rfl
    · change (c.repaired.2.2.object o).type = _
      rw [hworld, heq]
      rfl
  rw [and_iff_left_of_imp hreferences, hstats]
  constructor
  · intro hall
    refine ⟨fun u hu => ?_, fun u hu => ?_⟩ <;>
      obtain ⟨hacts, hnone, htypes⟩ := (World.deeds_repair_eq_nil_iff _ u _).mp (hall u hu)
    · exact (Course.bindings_still_iff hw hcourse hrecompile u).mp ⟨hacts, hnone⟩
    · exact (Course.types_still_iff hw hcourse hrecompile hu).mp htypes
  · rintro ⟨hclaims, htypes⟩ u hu
    obtain ⟨hacts, hnone⟩ :=
      (Course.bindings_still_iff hw hcourse hrecompile u).mpr (hclaims u hu)
    exact (World.deeds_repair_eq_nil_iff _ u _).mpr
      ⟨hacts, hnone, (Course.types_still_iff hw hcourse hrecompile hu).mpr (htypes u hu)⟩

open Scenario.TwoUnits

theorem reload_unchanged_opening :
    ∃ report w', reloader.reload .unchanged ["b", "a"] opening = (.ok report, w') ∧
      ((report.stats = .zero ∧ opening.SameReferences w') ↔
        opening.ClaimsSettled reloader.registry [opening.host.b, opening.host.a] ∧
          reloader.TypesSettled opening [opening.host.b, opening.host.a]) :=
  reload_unchanged_iff (by decide +kernel) (by decide +kernel) (by decide +kernel)
    (by decide +kernel) (by decide +kernel) (Recompiler.unchanging_unchanged _)

/-- The fixture with two callables named `f`: `b` exports one as `f` and the other one as `g`, and
`a` holds a copy of the other one. -/
def homonyms : World Fixture :=
  let (f, w) := bare.newCallable ⟨"b", "f", some bare.host.b, .literal .nil, none⟩
  let (g, w) := w.newCallable ⟨"b", "f", some bare.host.b, .literal .nil, none⟩
  let w := w.setExport w.host.b "f" (.callable f)
  let w := w.setExport w.host.b "g" (.callable g)
  w.setExport w.host.a "x" (.callable g)

/-- The course of a reload of `b` as it is. -/
def homonymous : Course Fixture :=
  (reloader.course? .unchanged ["b"] homonyms).get (by decide +kernel)

/-- **Two definitions of one name.** A reload of `b` as it is counts a repointed binding, and `a` is
left with the other callable. -/
theorem reload_unchanged_repoints :
    ∃ report w', homonyms.Sound ∧ homonyms.isHeld reloader.guard = false ∧
      reloader.config.fault? = none ∧
      targets homonyms reloader.registry ["b"] = .ok [homonyms.host.b] ∧
      homonyms.isOpen homonyms.host.b = true ∧
      (.unchanged : Recompiler Fixture).Unchanging [homonyms.host.b] ∧
      reloader.reload .unchanged ["b"] homonyms = (.ok report, w') ∧
      report.stats = { Stats.zero with bindingsRepointed := 1 } ∧
      homonyms.export? homonyms.host.a "x" = some (.callable ⟨1⟩) ∧
      w'.export? homonyms.host.a "x" = some (.callable ⟨0⟩) := by
  have hcourse : reloader.course? .unchanged ["b"] homonyms = some homonymous :=
    (Option.some_get _).symm
  refine ⟨homonymous.report, homonymous.returned reloader homonyms, ?_, ?_, ?_, ?_, ?_,
    Recompiler.unchanging_unchanged _, reload_of_course hcourse, ?_, ?_, ?_⟩
  all_goals decide +kernel

end Reloader

end HotReload
