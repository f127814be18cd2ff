import HotReload.Proofs.Reload.Reported
import HotReload.Proofs.Repair.Twins

/-!
# Reloads to a fixed table

A recompiler that always returns the same table leaves little to a reload of one unit: in replacing
mode the table takes the place of what the unit exported, and references to that are repaired
(`Reloader.Course.Installed`). So it can be told from the world of the call what each slot holds in
the end. A slot with a stale definition is *refilled* if the table has a definition of the same name
to offer (`World.Refills`), and no other slot is written (`Reloader.Course.export?_of_refills`,
`Reloader.Course.export?_of_not_refills`). If it has none to offer, the name is reported as removed
(`Reloader.Course.reported_of_unclaimed`).

What the reload holds on to can be told as well (`Reloader.Course.mem_held_iff`). It decides which
types are alive when their ancestors are repaired.
-/

namespace HotReload

variable {σ : Type}

/-- Returns the table, whatever has become of the unit. -/
def Recompiler.constant (table : Table Value) : Recompiler σ := fun _ _ w => (.ok table, w)

/-- **A batch of one unit** that compiles is over after one attempt. -/
theorem Batch.run_singleton {S : Type} (shop : Workshop S) (budget : Nat) {u : UnitId}
    {name : String} {s : S} {table : Table Value}
    (h : (shop.compile u (shop.note name (.recompileStarted 1) s)).1 = .ok table) :
    (run shop budget [(u, name)] s).1.reloaded = [u] ∧
      (run shop budget [(u, name)] s).2 = shop.note name (.recompiled table.size)
        (shop.install u table (shop.compile u (shop.note name (.recompileStarted 1) s)).2) := by
  -- there is fuel for one attempt, and no more is needed
  obtain ⟨n, hn⟩ : ∃ n, bound 1 budget = n + 1 :=
    Nat.exists_eq_succ_of_ne_zero (by simp only [bound]; omega)
  have hattempt := attempt_of_ok shop budget (p := .fresh u name) ⟨[], [], [], .zero⟩ h
  have hdrain : drain shop budget (bound 1 budget) (ofUnits [(u, name)]) s =
      attempt shop budget (.fresh u name) ⟨[], [], [], .zero⟩ s := by
    rw [hn, drain_of_cons shop budget n s rfl, drain_of_nil]
    · rfl
    · exact (congrArg (·.1.queue) hattempt).trans rfl
  rw [hattempt] at hdrain
  simp only [run, List.length_singleton, hdrain]
  exact ⟨rfl, rfl⟩

namespace World

/-- **Renewed slots.** Slot `x` of `h` holds a stale definition, and the first definition of its
name that the table gives to `u` is `d`. -/
def Refills (w : World σ) (r : RegistryId) (u : UnitId) (table : Table Value) (h : UnitId)
    (x : String) (d : Definition) : Prop :=
  ∃ old, w.HoldsStale r [u] h x old ∧
    (w.replaceExports u table).claimant? u (w.nameOf old) = some d

/-- No unit has its own slots refilled: what is stale there belongs to other units. -/
theorem Refills.ne {w : World σ} {r : RegistryId} {u h : UnitId} {table : Table Value} {x : String}
    {d : Definition} (hrefills : w.Refills r u table h x d) : h ≠ u := by
  obtain ⟨old, hstale, hclaim⟩ := hrefills
  rintro rfl
  have hunit := ((w.replaceExports h table).claimant?_spec hclaim).2.1
  rw [(w.sameForm_replaceExports h table).unitName] at hunit
  exact (w.owns_eq_false_iff _ _).mp hstale.foreign hunit

end World

namespace Snapshot

theorem capture_singleton {w : World σ} {u : UnitId} {s : Snapshot} (h : capture w [u] = .ok s) :
    s = empty.add u (w.unit u).name (w.exports u) := by
  obtain ⟨-, hrest⟩ := addAll_cons_eq_ok.mp h
  exact (Except.ok.inj hrest).symm

/-- A snapshot of one unit holds on to the unit and to what the unit refers to. -/
theorem mem_nodes_singleton {w : World σ} {u : UnitId} {s : Snapshot} (h : capture w [u] = .ok s)
    (n : Node) : n ∈ s.nodes ↔ n = .unit u ∨ n ∈ w.successors (.unit u) := by
  obtain rfl := capture_singleton h
  have hnodes : (empty.add u (w.unit u).name (w.exports u)).nodes =
      .unit u :: (w.exports u).values.flatMap Value.nodes := List.append_nil _
  rw [hnodes, List.mem_cons]
  exact Iff.rfl

end Snapshot

variable [Host σ]

namespace Reloader

/-- **Installed.** The one target of the call has succeeded, and the table is all that it has been
given when the repair starts. -/
structure Course.Installed (c : Course σ) (u : UnitId) (table : Table Value) : Prop where
  targets : c.targets = [u]
  reloaded : c.batch.reloaded = [u]
  compiled : c.compiled = c.opened.replaceExports u table

/-- A reload to a fixed table that is not refused **installs** it. -/
theorem exists_installed {r : Reloader} {name : String} {w : World σ} {u : UnitId}
    (table : Table Value) (hidle : w.isHeld r.guard = false) (hconfig : r.config.fault? = none)
    (hmode : r.config.installMode = .replace) (hname : w.unit? r.registry name = some u)
    (hopen : w.isOpen u = true) :
    ∃ c, r.course? (.constant table) [name] w = some c ∧ c.Installed u table := by
  obtain ⟨c, hcourse, hsingle⟩ := exists_course_of_open (.constant table) hidle hconfig
    (targets_singleton hname) fun _ hu => List.mem_singleton.mp hu ▸ hopen
  obtain ⟨-, -, -, hrun⟩ := course?_eq_some hcourse
  rw [Course.units, hsingle, List.map_singleton] at hrun
  have hcompile : ((r.workshop (.constant table)).compile u
      ((r.workshop (.constant table)).note (c.opened.unit u).name (.recompileStarted 1)
        (c.opened, c.session.journal))).1 = .ok table := rfl
  obtain ⟨hreloaded, hstate⟩ := Batch.run_singleton _ r.config.retryBudget hcompile
  rw [hrun] at hreloaded hstate
  refine ⟨c, hcourse, hsingle, hreloaded, ?_⟩
  have hcompiled : c.compiled = c.opened.install r.config.installMode u table :=
    (Prod.mk.inj hstate).1
  rw [hcompiled, hmode]
  rfl

namespace Course

variable {recompile : Recompiler σ} {r : Reloader} {names : List String} {w : World σ}
  {c : Course σ} {u : UnitId} {table : Table Value}

section Installed

variable (hcourse : r.course? recompile names w = some c) (hinstalled : c.Installed u table)

include hcourse hinstalled

/-- Apart from heaps, guards and pins the repair starts from the world with the table in it. -/
theorem compiled_installed : ∃ heaps guards pins, c.compiled =
    { w.replaceExports u table with heaps := heaps, guards := guards, pins := pins } := by
  obtain ⟨heaps, guards, pins, heq⟩ := opened_eq hcourse
  refine ⟨heaps, guards, pins, ?_⟩
  rw [hinstalled.compiled, heq]
  rfl

/-- An installation keeps names and layouts. -/
theorem sameForm_installed : w.SameForm c.compiled := by
  obtain ⟨heaps, guards, pins, heq⟩ := compiled_installed hcourse hinstalled
  refine (w.sameForm_replaceExports u table).trans ?_
  rw [heq]
  exact ⟨fun _ => rfl, fun _ => rfl, fun d => by cases d <;> rfl, fun _ => rfl⟩

/-- What claims a name can be read off the table that was installed. -/
theorem claimant?_installed (q : QualifiedName) :
    c.compiled.claimant? u q = (w.replaceExports u table).claimant? u q := by
  obtain ⟨heaps, guards, pins, heq⟩ := compiled_installed hcourse hinstalled
  rw [heq]
  rfl

/-- So can the own exports. -/
theorem ownExports_installed :
    c.compiled.ownExports u = (w.replaceExports u table).ownExports u := by
  obtain ⟨heaps, guards, pins, heq⟩ := compiled_installed hcourse hinstalled
  rw [heq]
  rfl

/-- Names are kept, as the recompiler makes nothing. -/
theorem keepsNames_installed : w.KeepsNames c.compiled r.registry [u] :=
  have hform := sameForm_installed hcourse hinstalled
  ⟨fun h _ => hform.unitName h, fun _ _ _ d _ => hform.nameOf d⟩

/-- The session of the repair was opened on this unit. -/
theorem opened_installed : c.closing.Opened w [u] r.registry :=
  hinstalled.targets ▸ opened_session hcourse

omit hcourse in
/-- The propagation is the repair of this unit. -/
theorem repaired_eq : c.repaired.2.2 = (c.compiled.repair c.closing u).1 := by
  rw [repaired, hinstalled.reloaded]
  rfl

omit hcourse in
/-- No slot is written once the bindings have been repaired. -/
theorem export?_withBindings (h : UnitId) (x : String) :
    (c.compiled.withBindings c.closing u).1.export? h x = (c.returned r w).export? h x := by
  have htypes := (World.typeFrame_repairTypes c.closing (c.compiled.unit u).name
    (typesAmong (c.compiled.ownExports u)) (c.compiled.withBindings c.closing u).1).exports
  rw [export?_returned, repaired_eq hinstalled, World.repair_eq, World.export?, ← htypes]
  rfl

omit [Host σ] hcourse hinstalled in
theorem nodup_names_singleton : ([u].map fun u => (c.compiled.unit u).name).Nodup :=
  List.nodup_singleton _

/-! ### Slots -/

/-- A slot that is refilled holds the new definition. -/
theorem export?_of_refills {h : UnitId} {x : String} {d : Definition}
    (hrefills : w.Refills r.registry u table h x d) :
    (c.returned r w).export? h x = some (.definition d) := by
  have hne := hrefills.ne
  obtain ⟨old, hstale, hclaim⟩ := hrefills
  -- the holder is another unit, so the slot is still as it was
  have hheld : c.compiled.export? h x = some (.definition old) := by
    obtain ⟨heaps, guards, pins, heq⟩ := compiled_installed hcourse hinstalled
    have hother : (w.replaceExports u table).exports h = w.exports h := by
      rw [World.exports_replaceExports, if_neg hne]
    rw [heq]
    exact (congrArg (Table.get? · x) hother).trans hstale.held
  rw [export?_returned, repaired, hinstalled.reloaded]
  exact (opened_installed hcourse hinstalled).export?_of_claimant
    (keepsNames_installed hcourse hinstalled) nodup_names_singleton hstale hheld
    (List.mem_singleton_self u) ((claimant?_installed hcourse hinstalled _).trans hclaim)

/-- A slot that is not refilled holds what it held, or what the table has for it. -/
theorem export?_of_not_refills {h : UnitId} {x : String}
    (hkept : ∀ d, ¬ w.Refills r.registry u table h x d) :
    (c.returned r w).export? h x = (w.replaceExports u table).export? h x := by
  have hcompiled : c.compiled.export? h x = (w.replaceExports u table).export? h x := by
    obtain ⟨heaps, guards, pins, heq⟩ := compiled_installed hcourse hinstalled
    rw [heq]
    rfl
  rw [← hcompiled, export?_returned, repaired, hinstalled.reloaded]
  -- a slot that the repair has changed was to be refilled
  by_contra hchanged
  obtain ⟨old, d, hr⟩ := (opened_installed hcourse hinstalled).repoints_of_changed
    (keepsNames_installed hcourse hinstalled) nodup_names_singleton hchanged
  obtain ⟨u', hu', hclaim⟩ := (World.successorAmong?_eq_some nodup_names_singleton).mp hr.succeeded
  obtain rfl := List.mem_singleton.mp hu'
  exact hkept d ⟨old, hr.stale, (claimant?_installed hcourse hinstalled _).symm.trans hclaim⟩

/-- **A name with nothing to offer for it** is reported as removed, if a slot holds a stale
definition of that name. -/
theorem reported_of_unclaimed (hw : w.Sound) (hlog : r.config.logRemovedSymbols = true)
    (hcapacity : r.config.journalCapacity = none) {h : UnitId} {x : String} {d : Definition}
    (hstale : w.HoldsStale r.registry [u] h x d) (howned : (w.nameOf d).unit = (w.unit u).name)
    (hclaim : (w.replaceExports u table).claimant? u (w.nameOf d) = none) :
    ∃ n, Noted c.report.events (w.unit u).name (.symbolRemoved (w.nameOf d).text n) := by
  -- the recompiled world is the opened one with another table
  have hlater : w.Later c.compiled := by
    rw [hinstalled.compiled]
    exact (opened_sound hw hcourse).2.trans (World.later_replaceExports _ _ _)
  have hu : u ∈ c.batch.reloaded := hinstalled.reloaded ▸ List.mem_singleton_self u
  refine (reported_symbol_iff_of_later hlater hw hcourse hcapacity hu
    (hw.exports h x _ hstale.held) howned).mpr ⟨hlog, ⟨h, x, d, ?_, rfl⟩, ?_⟩
  · rw [hinstalled.targets]
    exact hstale
  · rw [claimant?_installed hcourse hinstalled, hclaim]

/-- An installation makes no unit. -/
theorem size_units_installed (hw : w.Sound) : c.compiled.units.size = c.opened.units.size := by
  have hu : u ∈ c.targets := hinstalled.targets ▸ List.mem_singleton_self u
  rw [hinstalled.compiled]
  exact c.opened.units.size_set_of_lt (Nat.lt_of_lt_of_le (target_registered hw hcourse hu).1
    (opened_sound hw hcourse).2.units) _

/-! ### What is held on to -/

/-- **A session on one unit holds on to** the unit and what it refers to, the holders of stale
definitions with these definitions, and the objects that have been found. -/
theorem mem_held_iff (n : Node) : n ∈ c.targets.map .unit ++ c.session.nodes ↔
    n = .unit u ∨ n ∈ w.successors (.unit u) ∨
      (∃ h x d, w.HoldsStale r.registry [u] h x d ∧
        (n = .unit h ∨ n ∈ (Value.definition d).nodes)) ∨
      ∃ e ∈ c.session.objects, n = .object e.object := by
  have hopened := opened_installed hcourse hinstalled
  have hsnapshot : n ∈ c.session.snapshot.nodes ↔ _ :=
    Snapshot.mem_nodes_singleton hopened.capture_eq n
  have hreferences : n ∈ c.session.references.nodes ↔ ∃ h x d,
      w.HoldsStale r.registry [u] h x d ∧ (n = .unit h ∨ n ∈ (Value.definition d).nodes) := by
    simp only [References.nodes, List.mem_flatMap, List.mem_cons]
    constructor
    · rintro ⟨b, hb, hn⟩
      exact ⟨b.holder, b.localName, b.stale, (hopened.mem_bindings_iff.mp hb).1, hn⟩
    · rintro ⟨h, x, d, hstale, hn⟩
      exact ⟨⟨h, x, d, w.nameOf d⟩, hopened.mem_bindings_iff.mpr ⟨hstale, rfl⟩, hn⟩
  rw [hinstalled.targets, List.map_singleton, Session.nodes, List.mem_append, List.mem_append,
    List.mem_append, List.mem_singleton, hsnapshot, hreferences, List.mem_map, or_assoc, or_assoc]
  -- the unit is named as a target and again by its snapshot
  simp only [eq_comm (b := n)]
  rw [← or_assoc, ← or_assoc, or_self, or_assoc]

end Installed

end Course

end Reloader

end HotReload
