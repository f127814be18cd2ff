import HotReload.Proofs.Reload.Course
import HotReload.Proofs.Reload.Recompilers
import HotReload.Proofs.Repair.Lineage
import HotReload.Proofs.Repair.Moves

/-!
# What a reload leaves alone

A session is opened on all targets of a reload, and everything that it records (what they export,
who holds it, which objects have their types) it records of those too that are given up on later.
Only the units that succeed are repaired after. A repair goes by the names of one unit, so what it
writes is what pointed at definitions of this unit: bindings, entries of ancestor lists and types of
objects. The table of a unit that fails is not replaced, and nothing that points at its definitions
is repointed, whatever else of the batch succeeds (`Reloader.reload_leaves_failures`).

This is about the reload itself, so the recompiler must not interfere: `Recompiler.OnlyAdds` says
that it writes to no cell that was there when the reload was called. It can make new cells, and it
can derive new types from old ones, which shows in the back-lists of the old ones only.
-/

namespace HotReload

variable {σ : Type}

namespace World

/-- **Confined changes.** The cells of `w` refer in `w'` to what they referred to in `w`. This does
not include the exports of the given units, nor what pointed at definitions of the owners. -/
structure Confined (w w' : World σ) (units : UnitId → Prop) (owners : List String) : Prop where
  names : ∀ h, h.index < w.units.size → ¬ units h → (w'.exports h).names = (w.exports h).names
  slot : ∀ h x, h.index < w.units.size → ¬ units h → w'.export? h x ≠ w.export? h x →
    ∃ d, w.export? h x = some (.definition d) ∧ w.ownerOf d ∈ owners
  length : ∀ t, t.index < w.types.size → (w'.ancestors t).length = (w.ancestors t).length
  entry : ∀ t (i : Nat) a, t.index < w.types.size → (w.ancestors t)[i]? = some a →
    (w'.ancestors t)[i]? ≠ some a → (w.type a).owner ∈ owners
  type : ∀ o, o.index < w.objects.size → (w'.object o).type ≠ (w.object o).type →
    (w.type (w.object o).type).owner ∈ owners

/-! ### Ancestor lists under repair -/

/-- The entries of ancestor lists are kept, apart from types of the owners. -/
structure KeepsEntries (owners : List String) (w w' : World σ) : Prop where
  form : w.SameForm w'
  length : ∀ t, (w'.ancestors t).length = (w.ancestors t).length
  entry : ∀ t (i : Nat) a, (w.ancestors t)[i]? = some a → (w.type a).owner ∉ owners →
    (w'.ancestors t)[i]? = some a

namespace KeepsEntries

variable {owners : List String} {w w' w'' : World σ}

/-- Lists that are the same have the same entries. -/
theorem of_sameLists (hform : w.SameForm w') (h : w.SameLists w') : w.KeepsEntries owners w' where
  form := hform
  length t := by rw [h.ancestors]
  entry t i a ha _ := by rw [h.ancestors, ha]

theorem refl (owners : List String) (w : World σ) : w.KeepsEntries owners w :=
  of_sameLists (.refl w) (.refl w)

theorem trans (h : w.KeepsEntries owners w') (h' : w'.KeepsEntries owners w'') :
    w.KeepsEntries owners w'' where
  form := h.form.trans h'.form
  length t := (h'.length t).trans (h.length t)
  entry t i a ha howner := by
    apply h'.entry t i a (h.entry t i a ha howner)
    rwa [h.form.type_owner]

end KeepsEntries

/-- A list is written only if a type of the name of `new` gives way to it, and such a type has the
owner of `new`. -/
theorem keepsEntries_repointAncestors {owners : List String} {w : World σ} {new : TypeId}
    (hnew : (w.type new).owner ∈ owners) (s : TypeId) :
    w.KeepsEntries owners (repointAncestors new w s).1 where
  form := w.sameForm_repointAncestors new s
  length t := by
    rw [ancestors_repointAncestors]
    split
    · next h => rw [h, List.length_map]
    · rfl
  entry t i a ha howner := by
    rw [ancestors_repointAncestors]
    split
    · next h =>
      -- a predecessor has the name of the new type, and so its owner
      have hstays : w.isPredecessor new a = false := by
        by_contra hc
        rw [Bool.not_eq_false, isPredecessor, Bool.and_eq_true, beq_iff_eq] at hc
        exact howner ((QualifiedName.top_inj.mp hc.2).1 ▸ hnew)
      rw [← h, List.getElem?_map, ha, Option.map_some, hstays]
      rfl
    · exact ha

variable [Host σ]

/-- The repair for one type changes only entries of its owner. -/
theorem keepsEntries_repairType {owners : List String} {s : Session} {types : List TypeId}
    {w : World σ} (htypes : ∀ t ∈ types, (w.type t).owner ∈ owners) (old : TypeId) :
    w.KeepsEntries owners (repairType s types w old).1 := by
  obtain ⟨-, h⟩ | ⟨-, h⟩ | ⟨new, -, hsucc, h⟩ := repairType_cases s types w old <;> rw [h]
  · exact .refl owners w
  · exact .refl owners w
  · have hnew : (w.type new).owner ∈ owners := htypes new (List.mem_of_find?_eq_some hsucc)
    have hsubtypes : w.KeepsEntries owners (w.repointSubtypes old new).1 := by
      refine repairEach_preserves (.refl owners w) fun t _ v hv => ?_
      exact hv.trans (keepsEntries_repointAncestors (hv.form.type_owner new ▸ hnew) t)
    -- objects are no concern of ancestor lists
    have hobjects : (w.repointSubtypes old new).1.SameLists
        (retargetObjects s old new (w.repointSubtypes old new).1).1 :=
      repairEach_related SameLists.refl SameLists.trans _ _ fun o _ v =>
        v.sameLists_retargetObject new o
    have hform : (w.repointSubtypes old new).1.SameForm
        (retargetObjects s old new (w.repointSubtypes old new).1).1 :=
      repairEach_related SameForm.refl SameForm.trans _ _ fun o _ v =>
        v.sameForm_retargetObject new o
    exact hsubtypes.trans (.of_sameLists hform hobjects)

/-- **A repair of `u` writes no entry** but types of `u`. -/
theorem keepsEntries_repair {owners : List String} (s : Session) {u : UnitId} {w : World σ}
    (hu : (w.unit u).name ∈ owners) : w.KeepsEntries owners (w.repair s u).1 := by
  have hbindings : w.KeepsEntries owners (w.withBindings s u).1 :=
    .of_sameLists (w.sameForm_withBindings s u) (w.sameLists_withBindings s u)
  -- the types of the table belong to the unit that is repaired
  have hcurrent : ∀ t ∈ typesAmong (w.ownExports u), (w.type t).owner ∈ owners := by
    intro t ht
    obtain ⟨x, hx⟩ := Snapshot.mem_typesAmong.mp ht
    have howner : (w.type t).owner = (w.unit u).name := (w.mem_ownExports.mp hx).2
    exact howner ▸ hu
  have htypes : w.KeepsEntries owners (repairTypes s (w.unit u).name
      (typesAmong (w.ownExports u)) (w.withBindings s u).1).1 := by
    refine repairEach_preserves hbindings fun old _ v hv => hv.trans ?_
    exact keepsEntries_repairType (fun t ht => hv.form.type_owner t ▸ hcurrent t ht) old
  rw [repair_eq]
  exact htypes.trans (.of_sameLists (sameForm_pins _ _) (.of_types rfl))

end World

/-- A propagation changes only entries that belong to its units. -/
theorem Session.keepsEntries_propagate [Host σ] {owners : List String} (s : Session)
    {us : List UnitId} {w : World σ} (hus : ∀ u ∈ us, (w.unit u).name ∈ owners) :
    w.KeepsEntries owners (s.propagate us w).2.2 := by
  rw [(s.propagate_eq_repairEach us w).2]
  refine World.repairEach_preserves (.refl owners w) fun u hu v hv => hv.trans ?_
  exact World.keepsEntries_repair s (hv.form.unitName u ▸ hus u hu)

/-! ### Recompilers that only add -/

/-- A recompiler that **only adds** to `w`. It does not write what the cells of `w` refer to, at
whatever time it is run. -/
structure Recompiler.OnlyAdds (recompile : Recompiler σ) (w : World σ) : Prop where
  exports : ∀ u r v, v.Sound → w.Later v → ∀ h, h.index < w.units.size →
    (recompile u r v).2.exports h = v.exports h
  ancestors : ∀ u r v, v.Sound → w.Later v → ∀ t, t.index < w.types.size →
    (recompile u r v).2.ancestors t = v.ancestors t
  type : ∀ u r v, v.Sound → w.Later v → ∀ o, o.index < w.objects.size →
    ((recompile u r v).2.object o).type = (v.object o).type

namespace Recompiler

/-- This recompiler makes a new callable and nothing else. -/
theorem onlyAdds_renewing (name : String) (w : World σ) : (renewing name).OnlyAdds w :=
  ⟨fun _ _ _ _ _ _ _ => rfl, fun _ _ _ _ _ _ _ => rfl, fun _ _ _ _ _ _ _ => rfl⟩

/-- This one makes nothing. -/
theorem onlyAdds_importing (other name x : String) (w : World σ) :
    (importing other name x).OnlyAdds w := by
  refine ⟨fun u r v _ _ _ _ => ?_, fun u r v _ _ _ _ => ?_, fun u r v _ _ _ _ => ?_⟩ <;>
    rw [importing_world]

/-- Each unit may have a recompiler of its own. -/
theorem onlyAdds_onUnit (name : String) {special rest : Recompiler σ} {w : World σ}
    (hspecial : special.OnlyAdds w) (hrest : rest.OnlyAdds w) :
    (onUnit name special rest).OnlyAdds w := by
  refine ⟨fun u r v hv hlater => ?_, fun u r v hv hlater => ?_, fun u r v hv hlater => ?_⟩ <;>
    unfold onUnit <;> split
  · exact hspecial.exports u r v hv hlater
  · exact hrest.exports u r v hv hlater
  · exact hspecial.ancestors u r v hv hlater
  · exact hrest.ancestors u r v hv hlater
  · exact hspecial.type u r v hv hlater
  · exact hrest.type u r v hv hlater

end Recompiler

/-- **A world with new tables.** The cells of `w` refer in `v` to what they referred to in `w`,
apart from the exports of the given units. -/
structure World.Reinstalled (w : World σ) (us : List UnitId) (v : World σ) : Prop where
  sound : v.Sound
  later : w.Later v
  exports : ∀ h, h.index < w.units.size → h ∉ us → v.exports h = w.exports h
  ancestors : ∀ t, t.index < w.types.size → v.ancestors t = w.ancestors t
  type : ∀ o, o.index < w.objects.size → (v.object o).type = (w.object o).type

/-- An installation concerns one unit. -/
theorem World.exports_install_of_ne (w : World σ) (mode : InstallMode) {u h : UnitId} (hne : h ≠ u)
    (table : Table Value) : (w.install mode u table).exports h = w.exports h := by
  cases mode <;> exact (w.exports_replaceExports u h _).trans (if_neg hne)

section Reinstalled

variable {recompile : Recompiler σ} {w v : World σ} {us : List UnitId}

/-- A recompiler that only adds leaves a world with new tables one. -/
theorem World.Reinstalled.compile (hv : w.Reinstalled us v) (hlawful : recompile.Lawful)
    (hadds : recompile.OnlyAdds w) (u : UnitId) (r : RegistryId) :
    w.Reinstalled us (recompile u r v).2 where
  sound := hlawful.sound u r v hv.sound
  later := hv.later.trans (hlawful.later u r v hv.sound)
  exports h hh hout := (hadds.exports u r v hv.sound hv.later h hh).trans (hv.exports h hh hout)
  ancestors t ht := (hadds.ancestors u r v hv.sound hv.later t ht).trans (hv.ancestors t ht)
  type o ho := (hadds.type u r v hv.sound hv.later o ho).trans (hv.type o ho)

/-- And what it returns for a unit is one more new table. -/
theorem World.Reinstalled.install (hv : w.Reinstalled us v) (mode : InstallMode) (u : UnitId)
    {table : Table Value} (htable : ∀ e ∈ table.entries, v.hasValue e.2 = true) :
    w.Reinstalled (us ++ [u]) (v.install mode u table) where
  sound := World.sound_install hv.sound mode u htable
  later := hv.later.trans (v.later_install mode u table)
  exports h hh hout := by
    -- a unit that has not been installed differs from the one that is
    rw [List.mem_append, List.mem_singleton, not_or] at hout
    rw [v.exports_install_of_ne mode hout.2, hv.exports h hh hout.1]
  ancestors t ht := by
    rw [← hv.ancestors t ht]
    cases mode <;> rfl
  type o ho := by
    rw [← hv.type o ho]
    cases mode <;> rfl

/-- **The tables of the units that succeed** are all that a batch writes if its recompiler only
adds. -/
theorem Reloader.keepsAlong_workshop (hlawful : recompile.Lawful) (hadds : recompile.OnlyAdds w)
    (r : Reloader) (units : List UnitId) :
    (r.workshop recompile).KeepsAlong units fun us s => w.Reinstalled us s.1 where
  note _ _ _ _ _ hs := hs
  compile _ u _ _ hs := hs.compile hlawful hadds u r.registry
  install _ u _ s table hs htable :=
    (hs.compile hlawful hadds u r.registry).install r.config.installMode u
      (hlawful.table u r.registry s.1 table hs.sound htable)

end Reinstalled

namespace Reloader

variable [Host σ] {recompile : Recompiler σ} {r : Reloader} {names : List String} {w : World σ}
  {c : Course σ}

namespace Course

/-- After the batch only the reloaded units have other exports. -/
theorem reinstalled_compiled (hlawful : recompile.Lawful) (hw : w.Sound)
    (hadds : recompile.OnlyAdds w) (h : r.course? recompile names w = some c) :
    w.Reinstalled c.batch.reloaded c.compiled := by
  obtain ⟨v, -, -, hrun⟩ := course?_eq_some h
  obtain ⟨hsound, hlater⟩ := opened_sound hw h
  have hopened : w.Reinstalled [] c.opened := by
    obtain ⟨heaps, guards, pins, heq⟩ := opened_eq h
    exact ⟨hsound, hlater, fun _ _ _ => by rw [heq]; rfl, fun _ _ => by rw [heq]; rfl,
      fun _ _ => by rw [heq]; rfl⟩
  have hkept := Batch.run_along r.config.retryBudget c.units
    (keepsAlong_workshop hlawful hadds r _) (s := (c.opened, c.session.journal)) hopened
  rwa [hrun] at hkept

/-- An object that is given another type had one of a unit that succeeded when the reload was
called. -/
theorem exists_owner_of_retargeted (hlawful : recompile.Lawful) (hw : w.Sound)
    (h : r.course? recompile names w = some c) {o : ObjectId}
    (hchanged : (c.repaired.2.2.object o).type ≠ (c.compiled.object o).type) :
    ∃ u ∈ c.batch.reloaded, (w.type (w.object o).type).owner = (c.compiled.unit u).name := by
  have hopened := opened_session h
  have hmoved : ∃ m ∈ c.batch.reloaded.flatMap (c.closing.moves c.compiled), m.1 = o := by
    by_contra hnone
    push Not at hnone
    have hstays := World.object_moveEach_of_notMem hnone c.compiled
    rw [World.object, ← Session.propagate_moves (fits hlawful hw h) c.batch.reloaded] at hstays
    exact hchanged (congrArg Object.type hstays)
  obtain ⟨⟨o', new⟩, hm, rfl⟩ := hmoved
  obtain ⟨u, hu, hm⟩ := List.mem_flatMap.mp hm
  obtain ⟨old, hold, -, -, hrecorded⟩ := Session.mem_moves.mp hm
  -- the type that it is recorded with is the one that it had, and a target exported it
  obtain ⟨htype, hstale⟩ := hopened.typed _ (Session.mem_objectsOf.mp hrecorded)
  obtain ⟨v, -, y, hy⟩ := (Snapshot.isStale_iff hopened.capture_eq _).mp hstale
  have hsame := (later_compiled hlawful hw h).nameOf (.type old) (hw.exports v y _ hy)
  refine ⟨u, hu, ?_⟩
  show (w.type (w.object o').type).owner = _
  rw [← htype, ← (QualifiedName.top_inj.mp hsame).1]
  exact Snapshot.owner_of_mem_ownTypes hold

/-- **What a reload writes** are the tables of the units that succeed, and what pointed at their
definitions. -/
theorem confined_returned (hlawful : recompile.Lawful) (hw : w.Sound)
    (hadds : recompile.OnlyAdds w) (h : r.course? recompile names w = some c) :
    w.Confined (c.returned r w) (· ∈ c.batch.reloaded) (namesOf w c.batch.reloaded) := by
  have hcompiled := reinstalled_compiled hlawful hw hadds h
  have hname : ∀ u ∈ c.batch.reloaded, (c.compiled.unit u).name ∈ namesOf w c.batch.reloaded := by
    intro u hu
    have hlt := (target_registered hw h ((mem_reloaded h).2 u hu)).1
    rw [hcompiled.later.unitName u hlt]
    exact List.mem_map_of_mem hu
  -- the rest is the work of the propagation, entry by entry
  have hentries : c.compiled.KeepsEntries (namesOf w c.batch.reloaded) c.repaired.2.2 :=
    Session.keepsEntries_propagate c.closing hname
  refine ⟨fun u hu hout => ?_, fun u x hu hout hchanged => ?_, fun t ht => ?_,
    fun t i a ht ha hchanged => ?_, fun o ho hchanged => ?_⟩
  · rw [← hcompiled.exports u hu hout, exports_returned, repaired,
      (Session.propagate_bindings (fits hlawful hw h) c.batch.reloaded).1]
    exact World.names_repointEach _ c.compiled u
  · have hbefore : c.compiled.export? u x = w.export? u x := by
      rw [World.export?, World.export?, hcompiled.exports u hu hout]
    rw [export?_returned, ← hbefore] at hchanged
    -- the slot was repointed, and so its old value belonged to a unit that was reloaded
    obtain ⟨d, d', hr⟩ := (opened_session h).repoints_of_changed (keepsNames hlawful hw h)
      (nodup_names_reloaded hlawful hw h) hchanged
    obtain ⟨v, hv, howner⟩ := hr.owner
    refine ⟨d, hbefore ▸ hr.held, ?_⟩
    rw [World.ownerOf, ← howner]
    exact hname v hv
  · rw [← hcompiled.ancestors t ht]
    exact hentries.length t
  · by_contra hother
    refine hchanged (hentries.entry t i a ?_ ?_)
    · rw [hcompiled.ancestors t ht, ha]
    · have hexists := hw.ancestors t a (List.mem_of_getElem? ha)
      have hsame := hcompiled.later.nameOf (.type a) (decide_eq_true hexists)
      rwa [(QualifiedName.top_inj.mp hsame).1]
  · rw [← hcompiled.type o ho] at hchanged
    obtain ⟨u, hu, howner⟩ := exists_owner_of_retargeted hlawful hw h hchanged
    exact howner ▸ hname u hu

/-- The names that are reported are those of the units that succeeded. -/
theorem reloaded_report (hlawful : recompile.Lawful) (hw : w.Sound)
    (h : r.course? recompile names w = some c) :
    c.report.reloaded = namesOf w c.batch.reloaded := by
  have hform := (Session.frame_propagate c.closing c.batch.reloaded c.compiled).form
  refine List.map_congr_left fun u hu => (hform.unitName u).trans ?_
  exact name_target (later_compiled hlawful hw h) hw h ((mem_reloaded h).2 u hu)

/-- A failure is that of a target, and the target did not succeed. -/
theorem of_mem_failures (h : r.course? recompile names w = some c) {f : Failure}
    (hf : f ∈ c.batch.failures) :
    ∃ u ∈ c.targets, u ∉ c.batch.reloaded ∧ f.unit = (w.unit u).name := by
  obtain ⟨v, -, -, hrun⟩ := course?_eq_some h
  -- a failure carries the name that its unit had when the batch began
  have hfailed := Batch.of_mem_failures (r.workshop recompile) r.config.retryBudget
    (nodup_units h) (s := (c.opened, c.session.journal)) (f := f) (by rwa [hrun])
  rw [hrun] at hfailed
  obtain ⟨u, hu, hout⟩ := hfailed
  obtain ⟨u', hu', heq⟩ := List.mem_map.mp hu
  obtain ⟨rfl, hname⟩ := Prod.mk.inj heq
  exact ⟨u', hu', hout, hname.symm.trans (name_opened h u')⟩

end Course

/-- **Reported units.** A report says that the unit `u`, as loaded in `w`, has been reloaded. -/
def Reports (r : Reloader) (w : World σ) (report : Report) (u : UnitId) : Prop :=
  ∃ name ∈ report.reloaded, w.unit? r.registry name = some u

/-- **A unit that fails is left alone**, and so is everything that points at it. Outside the tables
of the units that are reported as reloaded, all that changes in a reload is what pointed at their
definitions. So a unit that is reported as failed keeps its names and their order, and every slot of
it that does not hold a definition of a reloaded unit. And what pointed at its own definitions, be
it a slot of a unit that was not reloaded, an entry of an ancestor list or an object, points at them
still. -/
theorem reload_leaves_failures {w' : World σ} {report : Report} (hlawful : recompile.Lawful)
    (hw : w.Sound) (hadds : recompile.OnlyAdds w)
    (h : r.reload recompile names w = (.ok report, w')) :
    w.Confined w' (r.Reports w report) report.reloaded ∧
      ∀ f ∈ report.failures, ∃ u, w.unit? r.registry f.unit = some u ∧ ¬ r.Reports w report u ∧
        (w'.exports u).names = (w.exports u).names ∧
        (∀ x, (¬ ∃ d, w.export? u x = some (.definition d) ∧ w.ownerOf d ∈ report.reloaded) →
          w'.export? u x = w.export? u x) ∧
        (∀ v x d, ¬ r.Reports w report v → w.export? v x = some (.definition d) →
          w.ownerOf d = f.unit → w'.export? v x = some (.definition d)) ∧
        (∀ t (i : Nat) a, (w.ancestors t)[i]? = some a → (w.type a).owner = f.unit →
          (w'.ancestors t)[i]? = some a) ∧
        ∀ o, o.index < w.objects.size → (w.type (w.object o).type).owner = f.unit →
          (w'.object o).type = (w.object o).type := by
  obtain ⟨c, hcourse, rfl, rfl⟩ := exists_course h
  have hnames := Course.reloaded_report hlawful hw hcourse
  have hreports : r.Reports w c.report = (· ∈ c.batch.reloaded) := by
    ext u
    constructor
    · rintro ⟨name, hname, hu⟩
      exact (Course.mem_reloaded_report hlawful hw hcourse hu).mp hname
    · intro hu
      have hregistered := (Course.target_registered hw hcourse
        ((Course.mem_reloaded hcourse).2 u hu)).2
      exact ⟨_, (Course.mem_reloaded_report hlawful hw hcourse hregistered).mpr hu, hregistered⟩
  have hconfined := Course.confined_returned hlawful hw hadds hcourse
  rw [hreports, hnames]
  refine ⟨hconfined, fun f hf => ?_⟩
  obtain ⟨u, htarget, hout, hname⟩ := Course.of_mem_failures hcourse hf
  obtain ⟨hlt, hregistered⟩ := Course.target_registered hw hcourse htarget
  -- a name belongs to one target, so none of the reloaded units has the name of this one
  have hfailed : f.unit ∉ namesOf w c.batch.reloaded := by
    intro hc
    obtain ⟨v, hv, hsame⟩ := List.mem_map.mp hc
    have hvtarget := (Course.mem_reloaded hcourse).2 v hv
    obtain rfl := Course.target_eq_of_name hw hcourse hvtarget htarget (hsame.trans hname)
    exact hout hv
  refine ⟨u, hname ▸ hregistered, hout, hconfined.names u hlt hout, ?_, ?_, ?_, ?_⟩
  · -- what has changed would belong to a reloaded unit, here and in the clauses that follow
    intro x hforeign
    by_contra hchanged
    exact hforeign (hconfined.slot u x hlt hout hchanged)
  · intro v x d hv hheld howner
    by_contra hchanged
    obtain ⟨d', hheld', hmem⟩ := hconfined.slot v x (World.index_lt_of_export? hheld) hv
      (hheld ▸ hchanged)
    obtain rfl : d = d' := by
      rwa [hheld, Option.some.injEq, Value.definition.injEq] at hheld'
    exact hfailed (howner ▸ hmem)
  · intro t i a ha howner
    by_contra hchanged
    have hlisted := World.index_lt_of_mem_ancestors (List.mem_of_getElem? ha)
    exact hfailed (howner ▸ hconfined.entry t i a hlisted ha hchanged)
  · intro o ho howner
    by_contra hchanged
    exact hfailed (howner ▸ hconfined.type o ho hchanged)

open Scenario.TwoUnits

/-- Two units that hold definitions of each other: `b` has a function `f` and a type `C`, and `a`
has a function `g`, which `b` holds too, a copy of `f`, and a subtype `D` of `C` with an object. -/
def entangled : World Fixture :=
  let (f, w) := bare.newCallable ⟨"b", "f", some ⟨0⟩, .literal .nil, none⟩
  let (g, w) := w.newCallable ⟨"a", "g", some ⟨1⟩, .literal .nil, none⟩
  let (c, w) := w.declareType ⟨"b", "C", ⟨0⟩, .dynamic, [], [], .empty⟩ []
  let (d, w) := w.declareType ⟨"a", "D", ⟨1⟩, .dynamic, [], [], .empty⟩ [c]
  let (_, w) := w.newObject d
  let w := (w.setExport ⟨0⟩ "f" (.callable f)).setExport ⟨0⟩ "C" (.type c)
  let w := (w.setExport ⟨0⟩ "y" (.callable g)).setExport ⟨1⟩ "g" (.callable g)
  (w.setExport ⟨1⟩ "x" (.callable f)).setExport ⟨1⟩ "D" (.type d)

/-- Makes `f` anew for `b`, and fails for `a`, which asks for something that `b` does not have. -/
def halfBroken : Recompiler Fixture := .onUnit "a" (.importing "b" "h" "h") (.renewing "f")

/-- The course of a reload in which `a` fails and `b` succeeds. -/
def halfReloaded : Course Fixture :=
  (reloader.course? halfBroken ["a", "b"] entangled).get (by decide +kernel)

/-- One unit fails here and keeps what it had, although the other one was reloaded. -/
theorem reload_leaves_failures_entangled :
    ∃ report w', reloader.reload halfBroken ["a", "b"] entangled = (.ok report, w') ∧
      report.reloaded = ["b"] ∧ report.failures.map (·.unit) = ["a"] ∧
      w'.export? ⟨1⟩ "g" = some (.callable ⟨1⟩) ∧ (w'.ancestors ⟨1⟩).length = 1 ∧
      (w'.object ⟨0⟩).type = ⟨1⟩ := by
  have hcourse : reloader.course? halfBroken ["a", "b"] entangled = some halfReloaded :=
    (Option.some_get _).symm
  have hreload := reload_of_course hcourse
  have hlawful : halfBroken.Lawful := Recompiler.lawful_onUnit "a"
    (Recompiler.lawful_importing "b" "h" "h") (Recompiler.lawful_renewing "f")
  have hadds : halfBroken.OnlyAdds entangled := Recompiler.onlyAdds_onUnit "a"
    (Recompiler.onlyAdds_importing "b" "h" "h" _) (Recompiler.onlyAdds_renewing "f" _)
  have hreloaded : halfReloaded.report.reloaded = ["b"] := by decide +kernel
  have hfailures : halfReloaded.report.failures.map (·.unit) = ["a"] := by decide +kernel
  obtain ⟨hconfined, hfailed⟩ :=
    reload_leaves_failures hlawful (by decide +kernel) hadds hreload
  obtain ⟨f, hf, hname⟩ : ∃ f ∈ halfReloaded.report.failures, f.unit = "a" :=
    List.mem_map.mp (hfailures ▸ List.mem_singleton_self "a")
  obtain ⟨u, hu, hout, -, -, hslots, -, hobjects⟩ := hfailed f hf
  have ha : u = ⟨1⟩ := by
    have hentered : entangled.unit? reloader.registry "a" = some ⟨1⟩ := by decide +kernel
    rw [hname, hentered] at hu
    exact (Option.some.inj hu).symm
  refine ⟨_, _, hreload, hreloaded, hfailures, ?_, ?_, ?_⟩
  · exact ha ▸ hslots u "g" (.callable ⟨1⟩) hout (ha ▸ by decide +kernel)
      (hname ▸ by decide +kernel)
  · exact (hconfined.length ⟨1⟩ (by decide +kernel)).trans (by decide +kernel)
  · exact (hobjects ⟨0⟩ (by decide +kernel) (hname ▸ by decide +kernel)).trans
      (by decide +kernel)

end Reloader

end HotReload
