import HotReload.Proofs.Reload.History
import HotReload.Proofs.Reload.Removals
import HotReload.Proofs.World.Merging

/-!
# What is on record

The repair after a reload looks up what has been recorded when the session was opened: bindings by
the name of their definition, names by their owner, and objects by their type. This module says what
it finds there, how often and in which order (`Session.Recorded.record_exact`).

The scan goes through units in load order and through the exports of each of them in export order
(`World.Precedes`), and neither a unit nor a name comes up twice. So the bindings are in strict
order (`References.pairwise_scan`), and so are those of one name among them. Names are sorted by
insertion, which does not depend on where they come from (`QualifiedName.pairwise_orderedSet`).

A session captures its targets, scans the units and finds objects one after the other. What is on
record is told without assuming that these are done in one world (`Session.Recorded`): definitions
are compared by identity, so a definition is stale wherever it turns up.
-/

namespace HotReload

variable {σ : Type}

/-- A list without repetitions goes through its elements in the order in which they are found in
it. -/
theorem pairwise_idxOf_lt {α : Type} [BEq α] [LawfulBEq α] {l : List α} (hl : l.Nodup) :
    l.Pairwise fun a b => l.idxOf a < l.idxOf b := by
  refine List.pairwise_iff_getElem.mpr fun i j hi hj hij => ?_
  rw [hl.idxOf_getElem i hi, hl.idxOf_getElem j hj]
  exact hij

/-! ### What there is to find -/

namespace World

/-- **Exported by a target.** -/
def ExportedBy (w : World σ) (targets : List UnitId) (d : Definition) : Prop :=
  ∃ t ∈ targets, ∃ y, w.export? t y = some (.definition d)

/-- Slot `x` of the loaded unit `h`, which shows its exports, holds the definition `d` of another
unit, and one of the targets exported `d` in the world `w₀`, which may be another one. -/
structure HoldsCaptured (w₀ w : World σ) (r : RegistryId) (targets : List UnitId) (h : UnitId)
    (x : String) (d : Definition) : Prop where
  loaded : h ∈ w.unitsOf r
  isOpen : w.isOpen h = true
  held : w.export? h x = some (.definition d)
  foreign : w.owns (w.unit h).name d = false
  exported : w₀.ExportedBy targets d

/-- **The order of a scan** of the given units: the order of the units, and the export order within
one unit. -/
def Precedes (w : World σ) (us : List UnitId) (b b' : ExternalBinding) : Prop :=
  us.idxOf b.holder < us.idxOf b'.holder ∨
    b.holder = b'.holder ∧
      (w.exports b.holder).names.idxOf b.localName < (w.exports b.holder).names.idxOf b'.localName

/-- The sealed units of a registry in load order, by name, each with its reason. -/
def sealedUnits (w : World σ) (r : RegistryId) : List (String × String) :=
  (w.unitsOf r).filterMap fun u => (w.unit u).sealReason.map ((w.unit u).name, ·)

end World

/-! ### The scan -/

namespace References

/-- The bindings of one unit are in export order. -/
theorem pairwise_ofTable (w : World σ) (s : Snapshot) (u : UnitId) (table : Table Value) :
    (ofTable w s u table).Pairwise fun b b' =>
      table.names.idxOf b.localName < table.names.idxOf b'.localName := by
  have hnames := (pairwise_idxOf_lt table.nodup).sublist table.sublist_names_definitions
  have hdefs := List.pairwise_map.mp hnames
  exact List.pairwise_map.mpr ((hdefs.filter _).filter _)

/-- **In strict order.** If the units that are scanned come in the order `R`, their bindings come in
this order and in export order within one unit. -/
theorem pairwise_scan (w : World σ) (s : Snapshot) {R : UnitId → UnitId → Prop} {us : List UnitId}
    (hus : us.Pairwise R) :
    (scan w s us).bindings.Pairwise fun b b' => R b.holder b'.holder ∨
      b.holder = b'.holder ∧
        (w.exports b.holder).names.idxOf b.localName <
          (w.exports b.holder).names.idxOf b'.localName := by
  induction us with
  | nil => exact .nil
  | cons u us ih =>
    rw [List.pairwise_cons] at hus
    rw [scan]
    cases htable : w.introspect u with
    | error e => exact ih hus.2
    | ok table =>
      obtain ⟨-, rfl⟩ := World.introspect_eq_ok_iff.mp htable
      refine List.pairwise_append.mpr ⟨?_, ih hus.2, fun b hb b' hb' => .inl ?_⟩
      · refine (pairwise_ofTable w s u _).imp_of_mem fun {b b'} hb hb' hlt => .inr ?_
        have hholder := (mem_ofTable.mp hb).1
        have hholder' := (mem_ofTable.mp hb').1
        rw [hholder, hholder']
        exact ⟨rfl, hlt⟩
      · -- what the rest of the scan finds is held by a later unit
        rw [(mem_ofTable.mp hb).1]
        exact hus.1 _ (mem_bindings_scan.mp hb').1

/-- Sealed units are skipped, and no others. -/
theorem skipped_scan (w : World σ) (s : Snapshot) (us : List UnitId) :
    (scan w s us).skipped = us.filterMap fun u =>
      (w.unit u).sealReason.map fun reason =>
        ((w.unit u).name, .isSealed (w.unit u).name reason) := by
  induction us with
  | nil => rfl
  | cons u us ih =>
    rw [scan, List.filterMap_cons, World.introspect]
    cases (w.unit u).sealReason with
    | none => exact ih
    | some reason => exact congrArg _ ih

end References

/-! ### The record -/

/-- The journal of a new session tells of the units that were skipped. -/
theorem Session.firstJournal_eq (config : Config) (refs : References) :
    firstJournal config refs = .telling config.journalCapacity refs.history := by
  let settings : JournalSettings := ⟨config.journalCapacity, config.logRemovedSymbols⟩
  have hall : refs.history.filter (settings.records ·.2) = refs.history := by
    refine List.filter_eq_self.mpr fun x hx => settings.records_of_not_isSymbolRemoved ?_
    obtain ⟨e, -, rfl⟩ := List.mem_map.mp hx
    rfl
  have htells : firstJournal config refs = settings.tells refs.history :=
    firstJournal_journaling config settings refs
  rw [htells, JournalSettings.tells, hall]

namespace Session

/-- **On record.** The session has captured its targets in `w₀`, scanned the units of a registry in
`w` and found the objects `os` in `v`. -/
structure Recorded (s : Session) (w₀ w v : World σ) (targets : List UnitId) (r : RegistryId)
    (os : List ObjectId) : Prop where
  captured : Snapshot.capture w₀ targets = .ok s.snapshot
  scanned : s.references = References.scan w s.snapshot (w.unitsOf r)
  found : s.objects = staleObjects v s.snapshot os
  noted : s.journal = firstJournal s.config s.references

/-- Opening a session does all of this in one world. -/
theorem recorded_of_start [Host σ] {w w' : World σ} {targets : List UnitId} {r : RegistryId}
    {e : Enumerator} {config : Config} {s : Session}
    (h : start w targets r e config = (.ok s, w')) :
    s.Recorded w w w targets r (s.found w e) := by
  obtain ⟨hopened, rfl, hjournal, hobjects, -⟩ := opened_of_start h
  exact ⟨hopened.capture_eq, hopened.scanned, hobjects, hjournal⟩

namespace Recorded

variable {s : Session} {w₀ w v : World σ} {targets : List UnitId} {r : RegistryId}
  {os : List ObjectId}

theorem isStale_iff (h : s.Recorded w₀ w v targets r os) (d : Definition) :
    s.snapshot.isStale d = true ↔ w₀.ExportedBy targets d := Snapshot.isStale_iff h.captured d

/-- What is found under a name. -/
theorem mem_holders_iff (h : s.Recorded w₀ w v targets r os) {q : QualifiedName}
    {b : ExternalBinding} :
    b ∈ s.references.holders q ↔
      w₀.HoldsCaptured w r targets b.holder b.localName b.stale ∧ b.key = q ∧
        w.nameOf b.stale = q := by
  -- the scan looks for what is stale, and stale is what a target exported at the capture
  rw [References.mem_holders, h.scanned, References.mem_bindings_scan]
  constructor
  · rintro ⟨⟨hloaded, hopen, hheld, howns, hstale, hkey⟩, rfl⟩
    exact ⟨⟨hloaded, hopen, hheld, howns, (h.isStale_iff _).mp hstale⟩, rfl, hkey.symm⟩
  · rintro ⟨hslot, rfl, hname⟩
    exact ⟨⟨hslot.loaded, hslot.isOpen, hslot.held, hslot.foreign,
      (h.isStale_iff _).mpr hslot.exported, hname.symm⟩, rfl⟩

/-- The bindings of a name are in the order of the scan. -/
theorem pairwise_holders (h : s.Recorded w₀ w v targets r os) (hw : w.Sound) (q : QualifiedName) :
    (s.references.holders q).Pairwise (w.Precedes (w.unitsOf r)) := by
  rw [References.holders, h.scanned]
  exact (References.pairwise_scan w _ (pairwise_idxOf_lt (World.nodup_unitsOf hw r))).filter _

/-- **One entry for a slot.** It is found under the name of what the slot holds and nowhere else. -/
theorem countP_holders (h : s.Recorded w₀ w v targets r os) (hw : w.Sound) {k : UnitId}
    {x : String} {d : Definition} (hslot : w₀.HoldsCaptured w r targets k x d)
    (q : QualifiedName) :
    (s.references.holders q).countP (fun b => b.holder = k ∧ b.localName = x ∧ b.stale = d) =
      if q = w.nameOf d then 1 else 0 := by
  have hnodup : (s.references.holders q).Nodup := by
    rw [References.holders, h.scanned]
    exact (References.nodup_scan w _ (World.nodup_unitsOf hw r)).filter _
  -- an entry that is found under `q` is told by its slot and what the slot holds
  have hentry : ∀ b ∈ s.references.holders q,
      decide (b.holder = k ∧ b.localName = x ∧ b.stale = d) = true ↔
        (b == ⟨k, x, d, w.nameOf d⟩) = true := by
    intro b hb
    obtain ⟨-, hkey, hname⟩ := h.mem_holders_iff.mp hb
    rw [decide_eq_true_eq, beq_iff_eq]
    constructor
    · rintro ⟨rfl, rfl, rfl⟩
      rw [hname, ← hkey]
    · rintro rfl
      exact ⟨rfl, rfl, rfl⟩
  have hmem : (⟨k, x, d, w.nameOf d⟩ : ExternalBinding) ∈ s.references.holders q ↔
      q = w.nameOf d := by
    rw [h.mem_holders_iff]
    exact ⟨fun hb => hb.2.1.symm, fun hq => ⟨hslot, hq.symm, hq.symm⟩⟩
  rw [List.countP_congr hentry]
  show (s.references.holders q).count _ = _
  rw [hnodup.count]
  exact if_congr hmem rfl rfl

/-- Names are found by the units that own what they name. -/
theorem mem_keysOwnedBy_iff (h : s.Recorded w₀ w v targets r os) {unit : String}
    {q : QualifiedName} :
    q ∈ s.references.keysOwnedBy unit ↔
      ∃ b ∈ s.references.holders q, w.owns unit b.stale = true := by
  rw [References.mem_keysOwnedBy]
  constructor
  · rintro ⟨⟨b, hb, rfl⟩, hunit⟩
    -- a key has the name of what its holders hold, so its unit is their owner's
    have hholders := References.mem_holders.mpr ⟨hb, rfl⟩
    refine ⟨b, hholders, (w.owns_iff _ _).mpr ?_⟩
    rw [(h.mem_holders_iff.mp hholders).2.2, hunit]
  · rintro ⟨b, hb, howns⟩
    obtain ⟨-, -, hname⟩ := h.mem_holders_iff.mp hb
    refine ⟨⟨b, References.mem_holders.mp hb⟩, ?_⟩
    rw [← hname, (w.owns_iff _ _).mp howns]

theorem skippedUnits_eq (h : s.Recorded w₀ w v targets r os) :
    s.references.skippedUnits = (w.sealedUnits r).map (·.1) := by
  rw [References.skippedUnits, h.scanned, References.skipped_scan, World.sealedUnits,
    List.map_filterMap, List.map_filterMap]
  simp only [Option.map_map]
  rfl

/-- A skipped unit is noted once, with the reason that it gives. -/
theorem journal_eq (h : s.Recorded w₀ w v targets r os) :
    s.journal = .telling s.config.journalCapacity ((w.sealedUnits r).map fun e =>
      (e.1, .unitSkipped (IntrospectError.isSealed e.1 e.2).message)) := by
  rw [h.noted, firstJournal_eq, References.history, h.scanned, References.skipped_scan,
    World.sealedUnits, List.map_filterMap, List.map_filterMap]
  simp only [Option.map_map]
  rfl

theorem objectsOf_eq (h : s.Recorded w₀ w v targets r os) {t : TypeId}
    (ht : w₀.ExportedBy targets (.type t)) :
    s.objectsOf t = os.filter fun o => (v.object o).type = t := by
  have hstale := (h.isStale_iff _).mpr ht
  -- objects of a stale type are listed, and only these are asked for here
  rw [objectsOf, h.found, staleObjects, List.filter_filter, List.filter_map, List.map_map]
  have hid : ((·.object) ∘ fun o => (⟨o, (v.object o).type⟩ : StaleObject)) = id := rfl
  rw [hid, List.map_id]
  refine List.filter_congr fun o _ => ?_
  rw [Bool.eq_iff_iff, Function.comp_apply, Bool.and_eq_true, beq_iff_eq, decide_eq_true_eq]
  exact and_iff_left_of_imp fun htype => htype ▸ hstale

theorem objectsOf_eq_nil (h : s.Recorded w₀ w v targets r os) {t : TypeId}
    (ht : ¬ w₀.ExportedBy targets (.type t)) : s.objectsOf t = [] := by
  refine List.eq_nil_iff_forall_not_mem.mpr fun o ho => ht ?_
  rw [mem_objectsOf, h.found, mem_staleObjects] at ho
  exact (h.isStale_iff _).mp ho.2.2

/-- **The record is exact.** Of a session that has captured its targets, scanned the loaded units
and found some objects:

* a slot of a loaded unit that shows its exports, with a definition of another unit that a target
  exported, has one entry under the name of that definition, and none under another name;
* there is no other entry;
* the entries of one name are in load order of the units and in export order within a unit;
* the names of what a unit owns are in order, each of them once, and they are those of the entries
  with a definition that the unit owns;
* the units that were skipped are the sealed ones in load order, and the journal has noted each of
  them once;
* the objects on record for a type are those that were found and have this type, as often as they
  were found, if a target exported the type, and there are none if no target did. -/
theorem record_exact (h : s.Recorded w₀ w v targets r os) (hw : w.Sound) :
    (∀ k x d, w₀.HoldsCaptured w r targets k x d → ∀ q,
      (s.references.holders q).countP (fun b => b.holder = k ∧ b.localName = x ∧ b.stale = d) =
        if q = w.nameOf d then 1 else 0) ∧
    (∀ q, ∀ b ∈ s.references.holders q,
      w₀.HoldsCaptured w r targets b.holder b.localName b.stale ∧ w.nameOf b.stale = q) ∧
    (∀ q, (s.references.holders q).Pairwise (w.Precedes (w.unitsOf r))) ∧
    (∀ unit, (s.references.keysOwnedBy unit).Pairwise (fun p q => p.cmp q = .lt) ∧
      ∀ q, q ∈ s.references.keysOwnedBy unit ↔
        ∃ b ∈ s.references.holders q, w.owns unit b.stale = true) ∧
    (s.references.skippedUnits = (w.sealedUnits r).map (·.1) ∧
      s.journal = .telling s.config.journalCapacity ((w.sealedUnits r).map fun e =>
        (e.1, .unitSkipped (IntrospectError.isSealed e.1 e.2).message))) ∧
    ∀ t, (w₀.ExportedBy targets (.type t) →
        s.objectsOf t = os.filter fun o => (v.object o).type = t) ∧
      (¬ w₀.ExportedBy targets (.type t) → s.objectsOf t = []) := by
  refine ⟨fun k x d hslot q => h.countP_holders hw hslot q, fun q b hb => ?_,
    h.pairwise_holders hw, fun unit => ⟨QualifiedName.pairwise_orderedSet _, fun q => ?_⟩,
    ⟨h.skippedUnits_eq, h.journal_eq⟩, fun t => ⟨h.objectsOf_eq, h.objectsOf_eq_nil⟩⟩
  · obtain ⟨hslot, -, hname⟩ := h.mem_holders_iff.mp hb
    exact ⟨hslot, hname⟩
  · exact h.mem_keysOwnedBy_iff

section Example

open Scenario.TwoUnits

/-- The opening world in which `a` has a second copy of `f`, and with a sealed unit. -/
def copied : World Fixture :=
  let w := opening.setExport opening.host.a "g" (.callable ⟨0⟩)
  (w.loadSealed w.host.registry "c" "proxy").2

/-- A session on `b` has both copies of `f` on record, and an object that is found twice is there
twice. -/
theorem record_exact_copied :
    copied.Sound ∧ ∃ s w', start copied [copied.host.b] copied.host.registry
        (.listed [⟨0⟩, ⟨1⟩, ⟨0⟩]) .standard = (.ok s, w') ∧
      (∀ x ∈ ["f", "g"], (s.references.holders (.top "b" "f")).countP (fun b =>
        b.holder = copied.host.a ∧ b.localName = x ∧ b.stale = .callable ⟨0⟩) = 1) ∧
      (s.references.holders (.top "b" "f")).Pairwise
        (copied.Precedes (copied.unitsOf copied.host.registry)) ∧
      .top "b" "f" ∈ s.references.keysOwnedBy "b" ∧
      s.references.skippedUnits = ["c"] ∧
      s.objectsOf ⟨0⟩ = [⟨0⟩, ⟨0⟩] ∧ s.objectsOf ⟨1⟩ = [] := by
  have hsound : copied.Sound := by decide +kernel
  have hopen : ∀ t ∈ [copied.host.b], copied.isOpen t = true := by decide +kernel
  obtain ⟨s, w', hstart⟩ := exists_start hopen copied.host.registry (.listed [⟨0⟩, ⟨1⟩, ⟨0⟩])
    .standard
  have hrecorded : s.Recorded copied copied copied [copied.host.b] copied.host.registry
      [⟨0⟩, ⟨1⟩, ⟨0⟩] := recorded_of_start hstart
  have hexported : copied.ExportedBy [copied.host.b] (.callable ⟨0⟩) :=
    ⟨_, List.mem_singleton_self _, "f", by decide +kernel⟩
  have hslots : ∀ x ∈ ["f", "g"],
      copied.HoldsCaptured copied copied.host.registry [copied.host.b] copied.host.a x
        (.callable ⟨0⟩) := by
    have hheld : ∀ x ∈ ["f", "g"],
        copied.export? copied.host.a x = some (.definition (.callable ⟨0⟩)) := by decide +kernel
    exact fun x hx => ⟨by decide +kernel, by decide +kernel, hheld x hx, by decide +kernel,
      hexported⟩
  have hname : QualifiedName.top "b" "f" = copied.nameOf (.callable ⟨0⟩) := by decide +kernel
  -- the general statement, of which the counts below are cases
  obtain ⟨hone, -, horder, hkeys, ⟨hskipped, -⟩, hobjects⟩ := hrecorded.record_exact hsound
  have hcount : ∀ x ∈ ["f", "g"], (s.references.holders (.top "b" "f")).countP (fun b =>
      b.holder = copied.host.a ∧ b.localName = x ∧ b.stale = .callable ⟨0⟩) = 1 := by
    intro x hx
    rw [hone _ _ _ (hslots x hx), if_pos hname]
  refine ⟨hsound, s, w', hstart, hcount, horder _, ?_, ?_, ?_, ?_⟩
  · have hpos : 0 < (s.references.holders (.top "b" "f")).countP (fun b =>
        b.holder = copied.host.a ∧ b.localName = "f" ∧ b.stale = .callable ⟨0⟩) := by
      rw [hcount "f" (by decide)]
      decide
    obtain ⟨b, hb, hslot⟩ := List.countP_pos_iff.mp hpos
    refine ((hkeys "b").2 _).mpr ⟨b, hb, ?_⟩
    rw [(of_decide_eq_true hslot).2.2]
    decide +kernel
  · rw [hskipped]
    decide +kernel
  · rw [(hobjects ⟨0⟩).1 ⟨_, List.mem_singleton_self _, "C", by decide +kernel⟩]
    decide +kernel
  · refine (hobjects ⟨1⟩).2 ?_
    have hnone : ∀ e ∈ (copied.exports copied.host.b).entries, e.2 ≠ .definition (.type ⟨1⟩) := by
      decide +kernel
    rintro ⟨t, ht, y, hy⟩
    rw [List.mem_singleton.mp ht] at hy
    exact hnone _ ((Table.get?_eq_some_iff _ _ _).mp hy) rfl

end Example

end Recorded

end Session

end HotReload
