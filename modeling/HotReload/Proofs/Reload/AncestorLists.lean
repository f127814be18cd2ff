import HotReload.Proofs.Reload.ExportSlots
import HotReload.Proofs.Repair.Lineage

/-!
# What a propagation does to ancestor lists

A session is opened in a world `w`, things happen, and in a world `w₁` the references to some of its
targets are repaired. A living type that lists an old type of such a unit `u` is a subtype that the
repair comes to. It does not look only for the type that led to it: all types of `u` with the same
name, of whatever generation, give way to the one type that `u` has under this name now
(`World.heir?`). Whether an entry of a list is written therefore depends on the rest of the list
(`World.Renews`), but on nothing else: the length and all other entries stay
(`Session.propagate_ancestors`).
-/

namespace HotReload

variable {σ : Type}

namespace World

/-- **Heir of a name.** The first type of this name in the export order of `u` that `u` owns. -/
def heir? (w : World σ) (u : UnitId) (name : String) : Option TypeId :=
  (typesAmong (w.ownExports u)).find? fun t => (w.type t).name == name

/-- True of the types that a unit owns and exports. -/
def Exports (w : World σ) (u : UnitId) (t : TypeId) : Prop := ∃ x, (x, .type t) ∈ w.ownExports u

/-- **Entries that are renewed.** In a list `ts` the type `t` of one of the units gives way to the
heir of its name, if `ts` has a type of this name that the unit owned and exported in `w` and that
is not the heir. -/
def Renews (w w₁ : World σ) (us : List UnitId) (ts : List TypeId) (t new : TypeId) : Prop :=
  ∃ u ∈ us, (w₁.type t).owner = (w₁.unit u).name ∧ w₁.heir? u (w₁.type t).name = some new ∧
    ∃ old ∈ ts, w.Exports u old ∧ (w₁.type old).name = (w₁.type t).name ∧ old ≠ new

/-- **Renewed lists.** The successions `ps` lead from the ancestor lists in `w₁` to those in `w₂`, for
all types that live to see it, and they are what renews entries. -/
structure Renewed [Host σ] (w w₁ w₂ : World σ) (us : List UnitId) (ps : List (TypeId × TypeId)) :
    Prop where
  sound : w₂.Sound
  coherent : w₁.Coherent ps
  renews_iff : ∀ {ts t new}, w.Renews w₁ us ts t new ↔
    ∃ p ∈ ps, p.1 ∈ ts ∧ w₁.typeName t = w₁.typeName p.2 ∧ p.2 = new
  living : ∀ {t}, w₂.Reaches (.type t) → w₁.Reaches (.type t)
  ancestors : ∀ {t}, w₂.Reaches (.type t) →
    w₂.ancestors t = (w₁.ancestors t).map (w₁.renewal ps (w₁.ancestors t))

theorem successor?_eq_heir? (w : World σ) (u : UnitId) (old : TypeId) :
    w.successor? (typesAmong (w.ownExports u)) old = w.heir? u (w.type old).name := rfl

/-- A unit and a type that it owns keep their names. -/
theorem owner_of_exports {w w₁ : World σ} (hw : w.Sound) (hlater : w.Later w₁) {u : UnitId}
    (hu : w.knows (.unit u) = true) {t : TypeId} (h : w.Exports u t) :
    (w₁.type t).owner = (w₁.unit u).name := by
  obtain ⟨x, hx⟩ := h
  obtain ⟨hexport, howner⟩ := w.mem_ownExports.mp hx
  have hname := hlater.nameOf (.type t) (hw.exports u x _ hexport)
  rw [hlater.unitName u (of_decide_eq_true hu)]
  exact (QualifiedName.top_inj.mp hname).1.trans howner

end World

namespace Session

/-- **A held target.** The unit is a target of the session, and whoever starts a propagation for it
in `w₁` holds on to it. -/
structure HeldTarget [Host σ] (s : Session) (w w₁ : World σ) (u : UnitId) : Prop where
  target : u ∈ s.snapshot.units
  known : w.knows (.unit u) = true
  held : .unit u ∈ w₁.roots

end Session

/-! ### What a session knows of its targets -/

namespace Snapshot

/-- A table is entered under the name of its unit. -/
theorem get?_tables_addAll {w : World σ} {us : List UnitId} {s s' : Snapshot}
    (h : addAll w us s = .ok s')
    (hs : ∀ name t, s.tables.get? name = some t →
      (w.unit t.1).name = name ∧ t.2 = w.exports t.1) :
    ∀ name t, s'.tables.get? name = some t → (w.unit t.1).name = name ∧ t.2 = w.exports t.1 := by
  induction us generalizing s with
  | nil =>
    cases h
    exact hs
  | cons u us ih =>
    obtain ⟨-, hrest⟩ := addAll_cons_eq_ok.mp h
    refine ih hrest fun name t ht => ?_
    -- a later unit of the same name overwrites an earlier one, with a table of its own
    rw [add, Table.get?_insert] at ht
    split at ht
    · next hname =>
      obtain rfl := Option.some.inj ht
      exact ⟨hname.symm, rfl⟩
    · exact hs name t ht

theorem exports?_of_mem_units {w : World σ} {us : List UnitId} {s : Snapshot}
    (h : capture w us = .ok s) {u : UnitId} (hu : u ∈ s.units) :
    s.exports? (w.unit u).name = some (w.exports u) := by
  obtain ⟨t, ht, rfl⟩ := List.mem_map.mp hu
  obtain ⟨⟨name, t'⟩, hentry, rfl⟩ := List.mem_map.mp ht
  have hget := (Table.get?_eq_some_iff _ _ _).mpr hentry
  obtain ⟨hname, htable⟩ := get?_tables_addAll h (fun _ _ hnone => by cases hnone) name t' hget
  show s.exports? (w.unit t'.1).name = some (w.exports t'.1)
  rw [exports?, hname, hget, Option.map_some, htable]

end Snapshot

namespace Session

variable [Host σ]

section Targets

variable {w w' w₁ : World σ} {targets us : List UnitId} {r : RegistryId} {s : Session}

omit [Host σ] in
/-- The old types of a target are those that it owned and exported. -/
theorem Opened.mem_ownTypes (hopened : s.Opened w targets r) (hw : w.Sound) (hlater : w.Later w₁)
    {u : UnitId} (htarget : u ∈ s.snapshot.units) (hknown : w.knows (.unit u) = true) {t : TypeId} :
    t ∈ s.snapshot.ownTypes w₁ (w₁.unit u).name ↔ w.Exports u t := by
  have htable := Snapshot.exports?_of_mem_units hopened.capture_eq htarget
  rw [hlater.unitName u (of_decide_eq_true hknown), Snapshot.mem_ownTypes htable]
  constructor
  · -- names are told in the later world, and types keep theirs
    rintro ⟨⟨x, hx⟩, howner⟩
    have hname := hlater.nameOf (.type t) (hw.exports u x _ hx)
    exact ⟨x, w.mem_ownExports.mpr ⟨hx, (QualifiedName.top_inj.mp hname).1.symm.trans howner⟩⟩
  · rintro ⟨x, hx⟩
    obtain ⟨hexport, howner⟩ := w.mem_ownExports.mp hx
    have hname := hlater.nameOf (.type t) (hw.exports u x _ hexport)
    exact ⟨⟨x, hexport⟩, (QualifiedName.top_inj.mp hname).1.trans howner⟩

/-- **Entries are renewed by successions.** -/
theorem Opened.renews_iff (hopened : s.Opened w targets r) (hw : w.Sound) (hlater : w.Later w₁)
    (hus : ∀ u ∈ us, s.HeldTarget w w₁ u) {ts : List TypeId} {t new : TypeId} :
    w.Renews w₁ us ts t new ↔ ∃ p ∈ us.flatMap (s.successions w₁),
      p.1 ∈ ts ∧ w₁.typeName t = w₁.typeName p.2 ∧ p.2 = new := by
  constructor
  · rintro ⟨u, hu, howner, hheir, old, hold, hexports, hname, hne⟩
    have hown := hopened.mem_ownTypes hw hlater (hus u hu).target (hus u hu).known (t := old)
    -- the old type is one of the captured ones, so its heir succeeds it
    have hmem : (old, new) ∈ s.successions w₁ u := by
      refine mem_successions.mpr ⟨hown.mpr hexports, ?_, hne⟩
      rw [World.successor?_eq_heir?, hname, hheir]
    obtain ⟨hnames, hunit⟩ := typeName_of_mem_successions hmem
    refine ⟨(old, new), List.mem_flatMap.mpr ⟨u, hu, hmem⟩, hold, ?_, rfl⟩
    show w₁.typeName t = w₁.typeName new
    rw [← hnames, World.typeName, World.typeName, hname, howner, ← hunit,
      (QualifiedName.top_inj.mp hnames).1]
  · rintro ⟨⟨old, new'⟩, hp, hold, hname, rfl⟩
    -- a succession is between types of one name in one unit
    obtain ⟨u, hu, hp⟩ := List.mem_flatMap.mp hp
    obtain ⟨hnames, hunit⟩ := typeName_of_mem_successions hp
    obtain ⟨hmem, hsucc, hne⟩ := mem_successions.mp hp
    have hown := hopened.mem_ownTypes hw hlater (hus u hu).target (hus u hu).known (t := old)
    have hold' := QualifiedName.top_inj.mp (hnames.trans hname.symm)
    refine ⟨u, hu, ?_, ?_, old, hold, hown.mp hmem, hold'.2, hne⟩
    · rw [← hunit]
      exact (QualifiedName.top_inj.mp hname).1
    · rw [← hold'.2]
      exact hsucc

end Targets

/-! ### The effect on ancestor lists -/

section Propagation

variable {w w' w₁ : World σ} {targets us : List UnitId} {r : RegistryId} {e : Enumerator}
  {config : Config} {s : Session}

/-- **Ancestor lists are renewed** when the references to targets with different names are
repaired. -/
theorem exists_renewed (journal : Journal)
    (hstart : start w targets r e config = (.ok s, w')) (hw : w.Sound) (he : e.Finds w)
    (hlater : w.Later w₁) (hw₁ : w₁.Sound)
    (hnames : (us.map fun u => (w₁.unit u).name).Nodup) (hus : ∀ u ∈ us, s.HeldTarget w w₁ u) :
    ∃ ps, w.Renewed w₁ ({ s with journal := journal }.propagate us w₁).2.2 us ps := by
  have hopened : ({ s with journal := journal } : Session).Opened w targets r :=
    (opened_of_start hstart).1.of_journal
  have hknown := (known_of_start hstart hw he hlater).of_journal journal
  have hfits := hopened.fits (World.keepsNames_of_later hw hlater r targets)
  have hus' : ∀ u ∈ us, ({ s with journal := journal } : Session).HeldTarget w w₁ u :=
    fun u hu => ⟨(hus u hu).target, (hus u hu).known, (hus u hu).held⟩
  have hheld : ∀ u ∈ us, .unit u ∈ w₁.roots ∧ w₁.knows (.unit u) = true := by
    intro u hu
    have hlt : u.index < w.units.size := of_decide_eq_true (hus u hu).known
    exact ⟨(hus u hu).held, decide_eq_true (Nat.lt_of_lt_of_le hlt hlater.units)⟩
  have hcoherent := coherent_successions (s := { s with journal := journal }) hnames
  refine ⟨_, (wanes_propagate hw₁ hknown hfits us).fades.sound, hcoherent,
    hopened.renews_iff hw hlater hus', fun ht => ?_, fun ht => ?_⟩
  · exact (ancestors_propagate hw₁ hknown hfits hheld ht).1
  · obtain ⟨-, hfold⟩ := ancestors_propagate hw₁ hknown hfits hheld ht
    -- one renewal after the other is one renewal by all successions
    exact hfold.trans (World.foldl_renew hcoherent _)

/-- **What a propagation does to ancestor lists.** Let a session be opened in `w`, let its journal be
anything by now, and let a later world `w₁` be repaired for targets with different names. Then the
ancestor list of a type that is alive in the end is as long as it was, an entry that is to be
renewed is the heir of its name, and any other entry is what it was. So no such type lists an old
type that has another heir. -/
theorem propagate_ancestors (journal : Journal)
    (hstart : start w targets r e config = (.ok s, w')) (hw : w.Sound) (he : e.Finds w)
    (hlater : w.Later w₁) (hw₁ : w₁.Sound)
    (hnames : (us.map fun u => (w₁.unit u).name).Nodup) (hus : ∀ u ∈ us, s.HeldTarget w w₁ u)
    {t : TypeId} (ht : ({ s with journal := journal }.propagate us w₁).2.2.Reaches (.type t)) :
    let before := w₁.ancestors t
    let after := ({ s with journal := journal }.propagate us w₁).2.2.ancestors t
    after.length = before.length ∧
      (∀ (i : Nat) a new, before[i]? = some a → w.Renews w₁ us before a new → after[i]? = some new) ∧
      (∀ (i : Nat) a, before[i]? = some a → (¬ ∃ new, w.Renews w₁ us before a new) →
        after[i]? = some a) ∧
      ∀ u ∈ us, ∀ old new, w.Exports u old → w₁.heir? u (w₁.type old).name = some new →
        old ≠ new → old ∉ after := by
  intro before after
  obtain ⟨ps, h⟩ := exists_renewed journal hstart hw he hlater hw₁ hnames hus
  -- the list at the end is the list at the start, entry by entry
  have hafter : after = before.map (w₁.renewal ps before) := h.ancestors ht
  refine ⟨?_, ?_, ?_, ?_⟩
  · rw [hafter, List.length_map]
  · intro i a new ha hrenew
    obtain ⟨p, hp, hold, hname, rfl⟩ := h.renews_iff.mp hrenew
    rw [hafter, List.getElem?_map, ha, Option.map_some,
      World.renewal_of_mem h.coherent hp hold hname]
  · intro i a ha hnone
    rw [hafter, List.getElem?_map, ha, Option.map_some, World.renewal_of_forall]
    intro p hp hold hname
    exact hnone ⟨p.2, h.renews_iff.mpr ⟨p, hp, hold, hname, rfl⟩⟩
  · intro u hu old new hexports hheir hne
    -- the old type is renewed in any list that it is in, so it is the old type of a succession
    have hunit := World.owner_of_exports hw hlater (hus u hu).known hexports
    have hrenew : w.Renews w₁ us [old] old new :=
      ⟨u, hu, hunit, hheir, old, List.mem_singleton_self old, hexports, rfl, hne⟩
    obtain ⟨p, hp, hold, -, -⟩ := h.renews_iff.mp hrenew
    rw [hafter, ← List.mem_singleton.mp hold]
    exact World.notMem_map_renewal h.coherent hp

end Propagation

open Scenario.TwoUnits

/-- Three generations of a type `C` of `b`, of which `b` exports the second, and a type `D` of `a`
that lists the first two. -/
def generations : World Fixture :=
  let (first, w) := bare.declareType ⟨"b", "C", ⟨0⟩, .dynamic, [], [], .empty⟩ []
  let (second, w) := w.declareType ⟨"b", "C", ⟨0⟩, .dynamic, [], [], .empty⟩ []
  let (_, w) := w.declareType ⟨"b", "C", ⟨0⟩, .dynamic, [], [], .empty⟩ []
  let (d, w) := w.declareType ⟨"a", "D", ⟨1⟩, .dynamic, [], [], .empty⟩ [first, second, first]
  (w.setExport ⟨0⟩ "C" (.type second)).setExport ⟨1⟩ "D" (.type d)

/-- The session that is opened on `b` there. -/
def generationsSession : Session :=
  match (start generations [⟨0⟩] ⟨0⟩ (.heapOf ⟨0⟩) .standard).1 with
  | .ok s => s
  | .error _ => default

/-- The first generation was not exported when the session was opened, and it is renewed together
with the second. -/
theorem propagate_ancestors_generations :
    let w₁ := generations.setExport ⟨0⟩ "C" (.type ⟨2⟩)
    ∃ s w', start generations [⟨0⟩] ⟨0⟩ (.heapOf ⟨0⟩) .standard = (.ok s, w') ∧
      w₁.ancestors ⟨3⟩ = [⟨0⟩, ⟨1⟩, ⟨0⟩] ∧
      (s.propagate [⟨0⟩] w₁).2.2.Reaches (.type ⟨3⟩) ∧
      ((s.propagate [⟨0⟩] w₁).2.2.ancestors ⟨3⟩).length = 3 ∧
      ((s.propagate [⟨0⟩] w₁).2.2.ancestors ⟨3⟩)[0]? = some ⟨2⟩ := by
  intro w₁
  have hopen : ∀ u ∈ [⟨0⟩], generations.isOpen u = true := by decide +kernel
  obtain ⟨s, w', hstart⟩ := exists_start hopen ⟨0⟩ (.heapOf ⟨0⟩) .standard
  have hs : s = generationsSession := by
    rw [generationsSession, hstart]
  have hsound : generations.Sound := by decide +kernel
  have hlater : generations.Later w₁ := World.later_replaceExports _ _ _
  have hsound₁ : w₁.Sound := by decide +kernel
  have hnames : ([⟨0⟩].map fun u => (w₁.unit u).name).Nodup := List.nodup_singleton _
  have htargets : ∀ u ∈ [⟨0⟩], s.HeldTarget generations w₁ u := by
    intro u hu
    rw [List.mem_singleton.mp hu, hs]
    refine ⟨?_, ?_, ?_⟩
    all_goals decide +kernel
  have hreaches : (s.propagate [⟨0⟩] w₁).2.2.Reaches (.type ⟨3⟩) := by
    rw [← World.isAlive_iff, hs]
    decide +kernel
  obtain ⟨hlength, hrenewed, -, -⟩ := propagate_ancestors s.journal hstart hsound trivial
    hlater hsound₁ hnames htargets hreaches
  have hbefore : w₁.ancestors ⟨3⟩ = [⟨0⟩, ⟨1⟩, ⟨0⟩] := by decide +kernel
  -- the second generation is in the list, so the new type takes the place of the first too
  have hrenews : generations.Renews w₁ [⟨0⟩] (w₁.ancestors ⟨3⟩) ⟨0⟩ ⟨2⟩ := by
    refine ⟨⟨0⟩, List.mem_singleton_self _, ?_, ?_, ⟨1⟩, ?_, ⟨"C", ?_⟩, ?_, ?_⟩
    all_goals decide +kernel
  have hfirst : (w₁.ancestors ⟨3⟩)[0]? = some ⟨0⟩ := by
    rw [hbefore]
    rfl
  exact ⟨s, w', hstart, hbefore, hreaches, hlength.trans (congrArg List.length hbefore),
    hrenewed 0 ⟨0⟩ ⟨2⟩ hfirst hrenews⟩

end Session

end HotReload
