import HotReload.Proofs.Repair.Propagation
import HotReload.Proofs.World.Operations
import HotReload.Scenario.TwoUnits

/-!
# What a propagation does to export slots

A session is opened in a world `w`, things happen, and in a world `w₁` the references to a list of
units are repaired. Which slots the repair gives which definition can be told in advance, from `w`
and `w₁` alone (`World.Repoints`): the slot held a stale definition when the session was opened, it
holds that definition still, and a unit of the list exports another one of the same qualified name.

That is all that happens to exports (`Session.propagate_slots`). The order of the units does not
matter, and neither does what their repairs do to each other, because no repair touches what a unit
owns and exports.

Nothing is assumed of what happened between `w` and `w₁`, except that names are what they were
(`World.KeepsNames`): the name of a unit and the qualified name of a definition are given once.
-/

namespace HotReload

variable {σ : Type}

namespace World

/-- **Names kept.** The loaded units and the definitions that targets exported in `w` have the same
names in `w₁`. -/
structure KeepsNames (w w₁ : World σ) (r : RegistryId) (targets : List UnitId) : Prop where
  unit : ∀ h ∈ w.unitsOf r, (w₁.unit h).name = (w.unit h).name
  definition : ∀ t ∈ targets, ∀ y d, w.export? t y = some (.definition d) → w₁.nameOf d = w.nameOf d

/-- Names are kept as worlds get later. -/
theorem keepsNames_of_later {w w₁ : World σ} (hw : w.Sound) (h : w.Later w₁) (r : RegistryId)
    (targets : List UnitId) : w.KeepsNames w₁ r targets where
  unit u hu := by
    obtain ⟨name, hname⟩ := mem_unitsOf.mp hu
    exact h.unitName u (hw.registered r name u hname).1
  definition t _ y d hd := h.nameOf d (hw.exports t y _ hd)

/-- Loaded units of one name are one unit. -/
theorem eq_of_loaded {w : World σ} (hw : w.Sound) {r : RegistryId} {u v : UnitId}
    (hu : u ∈ w.unitsOf r) (hv : v ∈ w.unitsOf r) (hname : (w.unit u).name = (w.unit v).name) :
    u = v := by
  obtain ⟨x, hx⟩ := mem_unitsOf.mp hu
  obtain ⟨y, hy⟩ := mem_unitsOf.mp hv
  have hxy : x = y := by
    rw [← (hw.registered r x u hx).2, ← (hw.registered r y v hy).2, hname]
  rw [← Option.some.injEq, ← hx, ← hy, hxy]

/-- **Successor of a name** among units: the first definition with this name in the export order of
the unit that it belongs to. -/
def successorAmong? (w : World σ) (units : List UnitId) (q : QualifiedName) : Option Definition :=
  (units.find? fun u => (w.unit u).name == q.unit).bind (w.claimant? · q)

/-- **A slot that is repaired.** Slot `x` of `h` held the stale definition `d` in `w` and still does
in `w₁`, and the name of `d` has another definition `d'` among the units. -/
structure Repoints (w w₁ : World σ) (r : RegistryId) (targets units : List UnitId) (h : UnitId)
    (x : String) (d d' : Definition) : Prop where
  stale : w.HoldsStale r targets h x d
  owner : ∃ u ∈ units, (w₁.unit u).name = (w.nameOf d).unit
  held : w₁.export? h x = some (.definition d)
  succeeded : w₁.successorAmong? units (w.nameOf d) = some d'
  ne : d' ≠ d

/-- **Names without a successor.** Names that the units own, that a stale definition in some slot of
`w` has and that no definition of the units has in `w₁`. -/
def removedNames (w w₁ : World σ) (r : RegistryId) (targets units : List UnitId) :
    Set QualifiedName :=
  {q | (∃ u ∈ units, (w₁.unit u).name = q.unit) ∧
    (∃ h x d, w.HoldsStale r targets h x d ∧ w.nameOf d = q) ∧ w₁.successorAmong? units q = none}

/-! ### Units with different names -/

section Names

variable {w : World σ} {units : List UnitId}

/-- Among units with different names, the first of a name is the only one. -/
theorem find?_unit_name (hnames : (units.map fun u => (w.unit u).name).Nodup) {u : UnitId}
    (hu : u ∈ units) {name : String} (hname : (w.unit u).name = name) :
    (units.find? fun u => (w.unit u).name == name) = some u := by
  induction units with
  | nil => cases hu
  | cons v vs ih =>
    rw [List.map_cons, List.nodup_cons] at hnames
    rw [List.find?_cons]
    rcases List.mem_cons.mp hu with rfl | hu
    · rw [hname, beq_self_eq_true]
    · -- the head has another name, so the search goes on
      have hne : (w.unit v).name ≠ name := by
        intro hc
        have hmem : (w.unit u).name ∈ vs.map fun u => (w.unit u).name := List.mem_map_of_mem hu
        exact hnames.1 (by rwa [hc, ← hname])
      rw [beq_false_of_ne hne]
      exact ih hnames.2 hu

theorem successorAmong?_eq_claimant? (hnames : (units.map fun u => (w.unit u).name).Nodup)
    {u : UnitId} (hu : u ∈ units) {q : QualifiedName} (hq : (w.unit u).name = q.unit) :
    w.successorAmong? units q = w.claimant? u q := by
  rw [successorAmong?, find?_unit_name hnames hu hq, Option.bind_some]

/-- A name has a successor exactly if some unit of the list claims it. -/
theorem successorAmong?_eq_some (hnames : (units.map fun u => (w.unit u).name).Nodup)
    {q : QualifiedName} {d : Definition} :
    w.successorAmong? units q = some d ↔ ∃ u ∈ units, w.claimant? u q = some d := by
  constructor
  · intro h
    rw [successorAmong?, Option.bind_eq_some_iff] at h
    obtain ⟨u, hu, hclaim⟩ := h
    exact ⟨u, List.mem_of_find?_eq_some hu, hclaim⟩
  · rintro ⟨u, hu, hclaim⟩
    have hq := (w.claimant?_spec hclaim).2.1
    rw [successorAmong?_eq_claimant? hnames hu hq.symm, hclaim]

end Names

end World

namespace Session

open World

/-! ### The repointings of a propagation -/

section Repointings

variable {s : Session} {w w₁ : World σ} {r : RegistryId} {targets units : List UnitId}

/-- What a session has recorded fits every world in which names are what they were. -/
theorem Opened.fits (hopened : s.Opened w targets r) (hkept : w.KeepsNames w₁ r targets) :
    s.Fits w₁ where
  key b hb := by
    obtain ⟨hstale, hkey⟩ := hopened.mem_bindings_iff.mp hb
    obtain ⟨t, ht, y, hy⟩ := hstale.exported
    rw [hkey, hkept.definition t ht y _ hy]
  foreign b hb := by
    obtain ⟨hstale, hkey⟩ := hopened.mem_bindings_iff.mp hb
    -- no holder owns what it holds, and its name is what it was
    have hforeign := hstale.foreign
    rw [w.owns_eq_false_iff] at hforeign
    rw [hkey, hkept.unit _ hstale.loaded]
    exact hforeign

theorem mem_flatMap_repointings (hnames : (units.map fun u => (w₁.unit u).name).Nodup)
    {b : ExternalBinding} {d : Definition} :
    (b, d) ∈ units.flatMap (s.repointings w₁) ↔
      b ∈ s.references.bindings ∧ w₁.successorAmong? units b.key = some d := by
  rw [List.mem_flatMap, successorAmong?_eq_some hnames]
  constructor
  · rintro ⟨u, hu, hmem⟩
    -- the unit that repoints a binding is the one that claims its key
    obtain ⟨hb, hclaim⟩ := mem_repointings.mp hmem
    exact ⟨hb, u, hu, hclaim⟩
  · rintro ⟨hb, u, hu, hclaim⟩
    exact ⟨u, hu, mem_repointings.mpr ⟨hb, hclaim⟩⟩

/-- A slot has one binding and a name has one successor, so no slot is given two definitions. -/
theorem onePerSlot_flatMap_repointings (hone : s.references.OnePerSlot)
    (hnames : (units.map fun u => (w₁.unit u).name).Nodup) :
    OnePerSlot (units.flatMap (s.repointings w₁)) := by
  rintro ⟨b, d⟩ ht ⟨b', d'⟩ ht' hholder hname
  -- one slot is one binding, one binding is one name, and one name has one successor
  obtain ⟨hb, hd⟩ := (mem_flatMap_repointings hnames).mp ht
  obtain ⟨hb', hd'⟩ := (mem_flatMap_repointings hnames).mp ht'
  obtain rfl := hone b hb b' hb' hholder hname
  rw [hd, Option.some.injEq] at hd'
  rw [hd']

/-- The repointings that act are those of the slots to be repaired. -/
theorem Opened.repoints_iff (hopened : s.Opened w targets r)
    (hnames : (units.map fun u => (w₁.unit u).name).Nodup) {h : UnitId} {x : String}
    {d d' : Definition} :
    w.Repoints w₁ r targets units h x d d' ↔
      (⟨h, x, d, w.nameOf d⟩, d') ∈ units.flatMap (s.repointings w₁) ∧
        w₁.Acts (⟨h, x, d, w.nameOf d⟩, d') := by
  rw [mem_flatMap_repointings hnames, hopened.mem_bindings_iff]
  constructor
  · intro hr
    exact ⟨⟨⟨hr.stale, rfl⟩, hr.succeeded⟩, hr.held, hr.ne.symm⟩
  · -- what claims the name tells which unit the name belongs to
    rintro ⟨⟨⟨hstale, -⟩, hsucc⟩, hheld, hne⟩
    obtain ⟨u, hu, hclaim⟩ := (successorAmong?_eq_some hnames).mp hsucc
    exact ⟨hstale, ⟨u, hu, (w₁.claimant?_spec hclaim).2.1.symm⟩, hheld, hsucc, Ne.symm hne⟩

/-- The names without a successor are listed once each. -/
theorem nodup_flatMap_unclaimed (hnames : (units.map fun u => (w₁.unit u).name).Nodup) :
    (units.flatMap (s.unclaimed w₁)).Nodup := by
  induction units with
  | nil => exact List.nodup_nil
  | cons u us ih =>
    rw [List.map_cons, List.nodup_cons] at hnames
    rw [List.flatMap_cons, List.nodup_append]
    refine ⟨(QualifiedName.nodup_orderedSet _).filter _, ih hnames.2, ?_⟩
    rintro q hq q' hq' rfl
    -- a name of both would belong to two units of one name
    obtain ⟨v, hv, hqv⟩ := List.mem_flatMap.mp hq'
    have hu := (mem_unclaimed.mp hq).2.1
    have hv' := (mem_unclaimed.mp hqv).2.1
    exact hnames.1 (hu.symm.trans hv' ▸ List.mem_map_of_mem hv)

theorem Opened.mem_flatMap_unclaimed (hopened : s.Opened w targets r)
    (hnames : (units.map fun u => (w₁.unit u).name).Nodup) {q : QualifiedName} :
    q ∈ units.flatMap (s.unclaimed w₁) ↔ q ∈ w.removedNames w₁ r targets units := by
  have hbound : (∃ b ∈ s.references.bindings, b.key = q) ↔
      ∃ h x d, w.HoldsStale r targets h x d ∧ w.nameOf d = q := by
    constructor
    · rintro ⟨b, hb, rfl⟩
      obtain ⟨hstale, hkey⟩ := hopened.mem_bindings_iff.mp hb
      exact ⟨b.holder, b.localName, b.stale, hstale, hkey.symm⟩
    · rintro ⟨h, x, d, hstale, rfl⟩
      exact ⟨⟨h, x, d, w.nameOf d⟩, hopened.mem_bindings_iff.mpr ⟨hstale, rfl⟩, rfl⟩
  simp only [List.mem_flatMap, mem_unclaimed, hbound]
  -- the unit that does not claim the name is the one that the name belongs to
  constructor
  · rintro ⟨u, hu, hstale, hq, hnone⟩
    refine ⟨⟨u, hu, hq.symm⟩, hstale, ?_⟩
    rw [successorAmong?_eq_claimant? hnames hu hq.symm, hnone]
  · rintro ⟨⟨u, hu, hq⟩, hstale, hnone⟩
    rw [successorAmong?_eq_claimant? hnames hu hq] at hnone
    exact ⟨u, hu, hstale, hq.symm, hnone⟩

/-- What a propagation does to a slot, told by the repointings that can be read off its start. -/
theorem Opened.export?_propagate [Host σ] (hopened : s.Opened w targets r)
    (hkept : w.KeepsNames w₁ r targets) (h : UnitId) (x : String) :
    (s.propagate units w₁).2.2.export? h x =
      (repointEach (units.flatMap (s.repointings w₁)) w₁).1.export? h x := by
  rw [export?, export?, (propagate_bindings (hopened.fits hkept) units).1]

/-- A slot to be repaired gets the successor. -/
theorem Opened.export?_of_repoints [Host σ] (hopened : s.Opened w targets r)
    (hkept : w.KeepsNames w₁ r targets) (hnames : (units.map fun u => (w₁.unit u).name).Nodup)
    {h : UnitId} {x : String} {d d' : Definition} (hr : w.Repoints w₁ r targets units h x d d') :
    (s.propagate units w₁).2.2.export? h x = some (.definition d') := by
  obtain ⟨hmem, hacts⟩ := (hopened.repoints_iff hnames).mp hr
  rw [hopened.export?_propagate hkept]
  exact export?_repointEach (onePerSlot_flatMap_repointings hopened.onePerSlot hnames) w₁ hmem
    hacts.1

/-- A slot that has changed was one to be repaired. -/
theorem Opened.repoints_of_changed [Host σ] (hopened : s.Opened w targets r)
    (hkept : w.KeepsNames w₁ r targets) (hnames : (units.map fun u => (w₁.unit u).name).Nodup)
    {h : UnitId} {x : String}
    (hchanged : (s.propagate units w₁).2.2.export? h x ≠ w₁.export? h x) :
    ∃ d d', w.Repoints w₁ r targets units h x d d' := by
  rw [hopened.export?_propagate hkept] at hchanged
  -- otherwise no repointing waits for the slot, so the pass leaves it alone
  by_contra hnone
  refine hchanged (export?_repointEach_of_not_pending _ w₁ ?_)
  rintro ⟨b, d'⟩ ht rfl rfl hheld
  obtain ⟨hb, hsucc⟩ := (mem_flatMap_repointings hnames).mp ht
  have hkey := (hopened.mem_bindings_iff.mp hb).2
  by_cases hne : b.stale = d'
  · -- a repointing to what the slot holds does not change it either
    have hheld' : w₁.export? b.holder b.localName = some (.definition d') := hne ▸ hheld
    refine hchanged ((export?_repointEach_of_done _ w₁ (t := (b, d')) ?_ hheld').trans hheld'.symm)
    intro t' ht' hholder hname
    exact onePerSlot_flatMap_repointings hopened.onePerSlot hnames t' ht' _ ht hholder hname
  · refine hnone ⟨b.stale, d', (hopened.repoints_iff hnames).mpr ⟨?_, hheld, hne⟩⟩
    obtain ⟨h, x, d, q⟩ := b
    simp only at hkey
    rwa [← hkey]

/-- A recorded slot that holds what it held ends up with the claimant of the name, if there is
one. -/
theorem Opened.export?_of_claimant [Host σ] (hopened : s.Opened w targets r)
    (hkept : w.KeepsNames w₁ r targets) (hnames : (units.map fun u => (w₁.unit u).name).Nodup)
    {h u : UnitId} {x : String} {d d' : Definition} (hstale : w.HoldsStale r targets h x d)
    (hheld : w₁.export? h x = some (.definition d)) (hu : u ∈ units)
    (hclaim : w₁.claimant? u (w.nameOf d) = some d') :
    (s.propagate units w₁).2.2.export? h x = some (.definition d') := by
  have hunit := (w₁.claimant?_spec hclaim).2.1.symm
  have hsucc : w₁.successorAmong? units (w.nameOf d) = some d' := by
    rw [successorAmong?_eq_claimant? hnames hu hunit, hclaim]
  by_cases hne : d' = d
  · -- the slot holds the claimant already, and a slot that changes would hold something else
    subst hne
    by_contra hc
    obtain ⟨d₁, d₂, hr⟩ := hopened.repoints_of_changed hkept hnames (hheld ▸ hc)
    have hd₁ := hr.held
    rw [hheld, Option.some.injEq, Value.definition.injEq] at hd₁
    subst hd₁
    have hd₂ := hr.succeeded
    rw [hsucc, Option.some.injEq] at hd₂
    exact hr.ne hd₂.symm
  · exact hopened.export?_of_repoints hkept hnames ⟨hstale, ⟨u, hu, hunit⟩, hheld, hsucc, hne⟩

end Repointings

/-! ### The effect on slots -/

/-- **What a propagation does to export slots.** Let a session be opened in `w`, let its journal be
anything by now, and let names be what they were. Then a repair of units with different names gives
to the slots of `World.Repoints` the successors of what they hold, and changes no other slot and no
order of exports. It counts the slots that it changes and the names that have no successor. -/
theorem propagate_slots [Host σ] {w w' w₁ : World σ} {targets units : List UnitId} {r : RegistryId}
    {e : Enumerator} {config : Config} {s : Session} (journal : Journal)
    (hstart : start w targets r e config = (.ok s, w')) (hkept : w.KeepsNames w₁ r targets)
    (hnames : (units.map fun u => (w₁.unit u).name).Nodup) :
    let after := { s with journal := journal }.propagate units w₁
    (∀ h x, after.2.2.export? h x ≠ w₁.export? h x ↔
        ∃ d d', w.Repoints w₁ r targets units h x d d') ∧
      (∀ h x d d', w.Repoints w₁ r targets units h x d d' →
        after.2.2.export? h x = some (.definition d')) ∧
      (∀ h, (after.2.2.exports h).names = (w₁.exports h).names) ∧
      (w₁.changedSlots after.2.2).Finite ∧
      after.2.1.bindingsRepointed = (w₁.changedSlots after.2.2).ncard ∧
      after.2.1.removedSymbols = (w.removedNames w₁ r targets units).ncard := by
  intro after
  have hopened : ({ s with journal := journal } : Session).Opened w targets r :=
    (opened_of_start hstart).1.of_journal
  have hone : OnePerSlot
      (units.flatMap (({ s with journal := journal } : Session).repointings w₁)) :=
    onePerSlot_flatMap_repointings hopened.onePerSlot hnames
  obtain ⟨hexports, hbindings, hsymbols⟩ := propagate_bindings (hopened.fits hkept) units
  -- the slots that change are those that the pass of repointings changes
  have hslots : w₁.changedSlots after.2.2 = w₁.changedSlots
      (repointEach (units.flatMap (({ s with journal := journal } : Session).repointings w₁))
        w₁).1 := by
    ext p
    simp only [changedSlots, Set.mem_ofPred_eq, after, hopened.export?_propagate hkept]
  refine ⟨fun h x => ⟨hopened.repoints_of_changed hkept hnames, ?_⟩,
    fun h x d d' hr => hopened.export?_of_repoints hkept hnames hr, fun h => ?_, ?_, ?_, ?_⟩
  · -- a slot that is repointed held something else
    rintro ⟨d, d', hr⟩
    rw [hopened.export?_of_repoints hkept hnames hr, hr.held]
    intro hc
    rw [Option.some.injEq, Value.definition.injEq] at hc
    exact hr.ne hc
  · rw [hexports]
    exact names_repointEach _ w₁ h
  · rw [hslots]
    exact finite_changedSlots_repointEach _ w₁
  · rw [hbindings, length_deeds_repointEach hone, hslots]
  · -- the list of unclaimed names lists the set of removed ones without repetition
    rw [hsymbols, ← List.toFinset_card_of_nodup (nodup_flatMap_unclaimed hnames),
      ← Set.ncard_coe_finset]
    congr 1
    ext q
    rw [Finset.mem_coe, List.mem_toFinset, hopened.mem_flatMap_unclaimed hnames]

open Scenario.TwoUnits

/-- The fixture with a new `f` in `b`. -/
def renewed : World Fixture :=
  let (f, w) := opening.newCallable ⟨"b", "f", some opening.host.b, .literal .nil, none⟩
  w.setExport w.host.b "f" (.callable f)

theorem propagate_slots_renewed :
    ∃ s w', start opening [opening.host.b] opening.host.registry (.heapOf opening.host.registry)
        .standard = (.ok s, w') ∧
      (s.propagate [opening.host.b] renewed).2.2.export? opening.host.a "f" =
        some (.callable ⟨4⟩) ∧
      (s.propagate [opening.host.b] renewed).2.1.bindingsRepointed =
        (renewed.changedSlots (s.propagate [opening.host.b] renewed).2.2).ncard := by
  have hopen : ∀ u ∈ [opening.host.b], opening.isOpen u = true := by decide +kernel
  obtain ⟨s, w', hstart⟩ :=
    exists_start hopen opening.host.registry (.heapOf opening.host.registry) .standard
  have hsound : opening.Sound := by decide +kernel
  have hlater : opening.Later renewed :=
    (opening.later_newCallable _).trans (World.later_replaceExports _ _ _)
  have hnames : ([opening.host.b].map fun u => (renewed.unit u).name).Nodup := by decide +kernel
  obtain ⟨-, hvalue, -, -, hbindings, -⟩ :=
    propagate_slots s.journal hstart (keepsNames_of_later hsound hlater _ _) hnames
  refine ⟨s, w', hstart, hvalue _ "f" (.callable ⟨0⟩) (.callable ⟨4⟩)
    ⟨⟨?_, ?_, ?_, ?_, opening.host.b, List.mem_singleton_self _, "f", ?_⟩, ?_, ?_, ?_, ?_⟩,
    hbindings⟩
  all_goals decide +kernel

end Session

end HotReload
