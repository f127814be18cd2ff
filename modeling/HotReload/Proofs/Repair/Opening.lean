import HotReload.Proofs.Repair.Ownership
import HotReload.Reload.Repair

/-!
# What a session records

A session is opened by three scans, and each of them records exactly what it is meant to.

* A definition is stale if a target exports it (`Snapshot.isStale_iff`), and the table recorded
  under a unit's name is the unit's own as long as the targets have different names
  (`Snapshot.exports?_eq_some`).
* A binding is a slot of a loaded unit that shows its exports, holding a definition of another unit
  that a target exports (`World.HoldsStale`, `References.mem_bindings_scan`).
* An object is recorded with the type that it has when the session is opened.

`Session.Opened` puts them together, and `Session.opened_of_start` says that they hold of a session
that has been opened.
-/

namespace HotReload

variable {σ : Type}

namespace World

/-- The units of a registry are those that have a name in it. -/
theorem mem_unitsOf {w : World σ} {r : RegistryId} {u : UnitId} :
    u ∈ w.unitsOf r ↔ ∃ name, w.unit? r name = some u := by
  rw [unitsOf, Table.values, List.mem_map]
  constructor
  · rintro ⟨⟨name, u'⟩, hmem, rfl⟩
    exact ⟨name, (Table.get?_eq_some_iff _ _ _).mpr hmem⟩
  · rintro ⟨name, hu⟩
    exact ⟨(name, u), (Table.get?_eq_some_iff _ _ _).mp hu, rfl⟩

/-- The exports of a unit can be read if it is not sealed. -/
theorem introspect_eq_ok_iff {w : World σ} {u : UnitId} {table : Table Value} :
    w.introspect u = .ok table ↔ w.isOpen u = true ∧ table = w.exports u := by
  unfold introspect isOpen
  cases (w.unit u).sealReason with
  | none => simp [eq_comm]
  | some reason => simp

/-- **Slots with a stale definition.** Slot `x` of the loaded unit `h`, which shows its exports,
holds the definition `d` of another unit, and one of the targets exports `d`. -/
structure HoldsStale (w : World σ) (r : RegistryId) (targets : List UnitId) (h : UnitId)
    (x : String) (d : Definition) : Prop where
  loaded : h ∈ w.unitsOf r
  isOpen : w.isOpen h = true
  held : w.export? h x = some (.definition d)
  foreign : w.owns (w.unit h).name d = false
  exported : ∃ t ∈ targets, ∃ y, w.export? t y = some (.definition d)

end World

/-! ### The snapshot -/

namespace Snapshot

/-- What a snapshot takes for stale are the definitions in its list. -/
theorem isStale_iff_mem (s : Snapshot) (d : Definition) : s.isStale d = true ↔ d ∈ s.stale :=
  List.contains_iff_mem

theorem isStale_empty (d : Definition) : empty.isStale d = false := rfl

/-- A further unit makes everything stale that it exports. -/
theorem isStale_add (s : Snapshot) (u : UnitId) (name : String) (table : Table Value)
    (d : Definition) :
    (s.add u name table).isStale d = true ↔
      s.isStale d = true ∨ ∃ y, table.get? y = some (.definition d) := by
  simp only [isStale_iff_mem, add, List.mem_append, List.mem_filter, List.mem_map,
    Bool.not_eq_true', List.contains_eq_mem, decide_eq_false_iff_not]
  constructor
  · rintro (h | ⟨⟨⟨y, d'⟩, hy, rfl⟩, -⟩)
    · exact .inl h
    · exact .inr ⟨y, Table.mem_definitions.mp hy⟩
  · rintro (h | ⟨y, hy⟩)
    · exact .inl h
    · -- what is stale already is not added twice
      by_cases hd : d ∈ s.stale
      · exact .inl hd
      · exact .inr ⟨⟨(y, d), Table.mem_definitions.mpr hy, rfl⟩, hd⟩

/-- A capture adds the table of the first unit, which shows it, and goes on. -/
theorem addAll_cons_eq_ok {w : World σ} {u : UnitId} {us : List UnitId} {s s' : Snapshot} :
    addAll w (u :: us) s = .ok s' ↔
      w.isOpen u = true ∧ addAll w us (s.add u (w.unit u).name (w.exports u)) = .ok s' := by
  rw [addAll]
  constructor
  · intro h
    split at h
    · cases h
    · -- the unit could be read, so it is open
      next table htable =>
      obtain ⟨hopen, rfl⟩ := World.introspect_eq_ok_iff.mp htable
      exact ⟨hopen, h⟩
  · rintro ⟨hopen, h⟩
    rw [World.introspect_eq_ok_iff.mpr ⟨hopen, rfl⟩]
    exact h

/-- Stale is what one of the targets exports. -/
theorem isStale_addAll {w : World σ} {us : List UnitId} {s s' : Snapshot}
    (h : addAll w us s = .ok s') (d : Definition) :
    s'.isStale d = true ↔
      s.isStale d = true ∨ ∃ t ∈ us, ∃ y, w.export? t y = some (.definition d) := by
  induction us generalizing s with
  | nil =>
    cases h
    simp
  | cons u us ih =>
    obtain ⟨-, hrest⟩ := addAll_cons_eq_ok.mp h
    rw [ih hrest, isStale_add, List.exists_mem_cons_iff, or_assoc]
    rfl

/-- Guards and pins do not show in a snapshot. -/
theorem addAll_guards_pins {w : World σ} {guards : Store Bool} {pins : NumberedSet Node}
    (us : List UnitId) (s : Snapshot) :
    addAll { w with guards := guards, pins := pins } us s = addAll w us s := by
  induction us generalizing s with
  | nil => rfl
  | cons u us ih =>
    have hintrospect : ({ w with guards := guards, pins := pins } : World σ).introspect u =
        w.introspect u := rfl
    rw [addAll, addAll, hintrospect]
    cases w.introspect u with
    | error e => rfl
    | ok table => exact ih _

/-- A captured snapshot holds exactly what the targets export. -/
theorem isStale_iff {w : World σ} {us : List UnitId} {s : Snapshot} (h : capture w us = .ok s)
    (d : Definition) :
    s.isStale d = true ↔ ∃ t ∈ us, ∃ y, w.export? t y = some (.definition d) := by
  rw [isStale_addAll h, isStale_empty]
  simp

/-- Units that show their exports can be captured. -/
theorem exists_addAll {w : World σ} {us : List UnitId} (h : ∀ t ∈ us, w.isOpen t = true)
    (s : Snapshot) : ∃ s', addAll w us s = .ok s' := by
  induction us generalizing s with
  | nil => exact ⟨s, rfl⟩
  | cons u us ih =>
    rw [List.forall_mem_cons] at h
    obtain ⟨s', hrest⟩ := ih h.2 (s.add u (w.unit u).name (w.exports u))
    exact ⟨s', addAll_cons_eq_ok.mpr ⟨h.1, hrest⟩⟩

/-- The table of a further unit is found under its name. -/
theorem exports?_add (s : Snapshot) (u : UnitId) (name : String) (table : Table Value)
    (unit : String) :
    (s.add u name table).exports? unit = if unit = name then some table else s.exports? unit := by
  rw [exports?, add, Table.get?_insert]
  split <;> rfl

/-- Other units do not change what is found under a name. -/
theorem exports?_addAll_of_notMem {w : World σ} {us : List UnitId} {s s' : Snapshot}
    (h : addAll w us s = .ok s') {unit : String} (hunit : ∀ t ∈ us, (w.unit t).name ≠ unit) :
    s'.exports? unit = s.exports? unit := by
  induction us generalizing s with
  | nil =>
    cases h
    rfl
  | cons u us ih =>
    rw [List.forall_mem_cons] at hunit
    obtain ⟨-, hrest⟩ := addAll_cons_eq_ok.mp h
    rw [ih hrest hunit.2, exports?_add, if_neg (Ne.symm hunit.1)]

/-- Each target is found with the exports that it has had. -/
theorem exports?_addAll {w : World σ} {us : List UnitId} {s s' : Snapshot}
    (h : addAll w us s = .ok s') (hnames : (us.map fun u => (w.unit u).name).Nodup) {u : UnitId}
    (hu : u ∈ us) : s'.exports? (w.unit u).name = some (w.exports u) := by
  induction us generalizing s with
  | nil => cases hu
  | cons t us ih =>
    rw [List.map_cons, List.nodup_cons] at hnames
    obtain ⟨-, hrest⟩ := addAll_cons_eq_ok.mp h
    rcases List.mem_cons.mp hu with rfl | hu
    · -- no later target takes the place of this one
      rw [exports?_addAll_of_notMem hrest, exports?_add, if_pos rfl]
      intro v hv hc
      exact hnames.1 (hc ▸ List.mem_map_of_mem hv)
    · exact ih hrest hnames.2 hu

/-- What is recorded under the name of a target is its table. -/
theorem exports?_eq_some {w : World σ} {us : List UnitId} {s : Snapshot}
    (h : capture w us = .ok s) (hnames : (us.map fun u => (w.unit u).name).Nodup) {u : UnitId}
    (hu : u ∈ us) : s.exports? (w.unit u).name = some (w.exports u) :=
  exports?_addAll h hnames hu

/-- The types among definitions. -/
theorem mem_typesAmong {defs : List (String × Definition)} {t : TypeId} :
    t ∈ typesAmong defs ↔ ∃ x, (x, .type t) ∈ defs := by
  rw [typesAmong, List.mem_filterMap]
  constructor
  · rintro ⟨⟨x, d⟩, hmem, hd⟩
    cases d with
    | callable c => cases hd
    | type s =>
      cases hd
      exact ⟨x, hmem⟩
  · rintro ⟨x, hmem⟩
    exact ⟨_, hmem, rfl⟩

/-- The old types of a target are those that it exported and owned. -/
theorem mem_ownTypes {s : Snapshot} {w : World σ} {unit : String} {table : Table Value}
    (h : s.exports? unit = some table) {t : TypeId} :
    t ∈ s.ownTypes w unit ↔
      (∃ x, table.get? x = some (.type t)) ∧ (w.type t).owner = unit := by
  simp only [ownTypes, h, List.mem_eraseDups, mem_typesAmong, w.mem_ownDefinitions]
  exact exists_and_right

end Snapshot

/-! ### The bindings -/

namespace References

/-- The bindings of a unit are its exports that are foreign and stale. -/
theorem mem_ofTable {w : World σ} {s : Snapshot} {u : UnitId} {b : ExternalBinding} :
    b ∈ ofTable w s u (w.exports u) ↔
      b.holder = u ∧ w.export? u b.localName = some (.definition b.stale) ∧
        w.owns (w.unit u).name b.stale = false ∧ s.isStale b.stale = true ∧
          b.key = w.nameOf b.stale := by
  obtain ⟨h, x, d, q⟩ := b
  simp only [ofTable, List.mem_map, List.mem_filter, Prod.exists, w.mem_foreignDefinitions,
    ExternalBinding.mk.injEq]
  constructor
  · rintro ⟨x', d', ⟨⟨hget, howns⟩, hstale⟩, rfl, rfl, rfl, rfl⟩
    exact ⟨rfl, hget, howns, hstale, rfl⟩
  · rintro ⟨rfl, hget, howns, hstale, rfl⟩
    exact ⟨x, d, ⟨⟨hget, howns⟩, hstale⟩, rfl, rfl, rfl, rfl⟩

/-- The scan finds every slot with a stale foreign definition, and nothing else. -/
theorem mem_bindings_scan {w : World σ} {s : Snapshot} {us : List UnitId} {b : ExternalBinding} :
    b ∈ (scan w s us).bindings ↔
      b.holder ∈ us ∧ w.isOpen b.holder = true ∧
        w.export? b.holder b.localName = some (.definition b.stale) ∧
          w.owns (w.unit b.holder).name b.stale = false ∧ s.isStale b.stale = true ∧
            b.key = w.nameOf b.stale := by
  induction us with
  | nil => simp [scan]
  | cons u us ih =>
    rw [scan]
    cases htable : w.introspect u with
    | error e =>
      -- a sealed unit is passed over
      have hopen : w.isOpen u ≠ true := by
        intro hc
        rw [World.introspect_eq_ok_iff.mpr ⟨hc, rfl⟩] at htable
        cases htable
      simp only [ih, List.mem_cons, or_and_right]
      rw [or_iff_right]
      rintro ⟨rfl, hc, -⟩
      exact hopen hc
    | ok table =>
      obtain ⟨hopen, rfl⟩ := World.introspect_eq_ok_iff.mp htable
      simp only [List.mem_append, ih, mem_ofTable, List.mem_cons, or_and_right]
      refine or_congr_left ?_
      constructor
      · rintro ⟨rfl, hrest⟩
        exact ⟨rfl, hopen, hrest⟩
      · rintro ⟨rfl, -, hrest⟩
        exact ⟨rfl, hrest⟩

/-- Guards and pins do not show in a scan. -/
theorem scan_guards_pins {w : World σ} {guards : Store Bool} {pins : NumberedSet Node}
    (s : Snapshot) (us : List UnitId) :
    scan { w with guards := guards, pins := pins } s us = scan w s us := by
  induction us with
  | nil => rfl
  | cons u us ih =>
    rw [scan, scan, ih]
    rfl

/-- **One binding for a slot.** Bindings of one slot are the same binding. -/
def OnePerSlot (r : References) : Prop :=
  ∀ b ∈ r.bindings, ∀ b' ∈ r.bindings,
    b.holder = b'.holder → b.localName = b'.localName → b = b'

/-- A scan finds one binding for each slot. -/
theorem onePerSlot_scan (w : World σ) (s : Snapshot) (us : List UnitId) :
    (scan w s us).OnePerSlot := by
  intro b hb b' hb' hholder hname
  obtain ⟨-, -, hheld, -, -, hkey⟩ := mem_bindings_scan.mp hb
  obtain ⟨-, -, hheld', -, -, hkey'⟩ := mem_bindings_scan.mp hb'
  rw [hholder, hname, hheld', Option.some.injEq, Value.definition.injEq] at hheld
  -- the slot determines what it holds, and that determines the name
  obtain ⟨h, x, d, q⟩ := b
  obtain ⟨h', x', d', q'⟩ := b'
  simp only at hholder hname hheld hkey hkey'
  subst hholder hname hheld hkey hkey'
  rfl

end References

/-! ### The session -/

namespace Session

/-- **An opened session.** What a session says about the world `w` in which it was opened on
targets of a registry. The journal is left out: it grows while the session is open. -/
structure Opened (s : Session) (w : World σ) (targets : List UnitId) (r : RegistryId) : Prop where
  captured : ∃ snapshot, Snapshot.capture w targets = .ok snapshot ∧ s.snapshot = snapshot
  scanned : s.references = References.scan w s.snapshot (w.unitsOf r)
  typed : ∀ e ∈ s.objects, e.type = (w.object e.object).type ∧ s.snapshot.isStale (.type e.type)

namespace Opened

variable {s : Session} {w : World σ} {targets : List UnitId} {r : RegistryId}

/-- A session starts from the snapshot of its targets. -/
theorem capture_eq (h : s.Opened w targets r) : Snapshot.capture w targets = .ok s.snapshot := by
  obtain ⟨snapshot, hc, rfl⟩ := h.captured
  exact hc

/-- The bindings are the slots with a stale definition. -/
theorem mem_bindings_iff (h : s.Opened w targets r) {b : ExternalBinding} :
    b ∈ s.references.bindings ↔
      w.HoldsStale r targets b.holder b.localName b.stale ∧ b.key = w.nameOf b.stale := by
  rw [h.scanned, References.mem_bindings_scan]
  constructor
  · rintro ⟨hloaded, hopen, hheld, howns, hstale, hkey⟩
    exact ⟨⟨hloaded, hopen, hheld, howns, (Snapshot.isStale_iff h.capture_eq _).mp hstale⟩, hkey⟩
  · rintro ⟨⟨hloaded, hopen, hheld, howns, hexported⟩, hkey⟩
    exact ⟨hloaded, hopen, hheld, howns, (Snapshot.isStale_iff h.capture_eq _).mpr hexported, hkey⟩

/-- It has recorded one binding for each slot. -/
theorem onePerSlot (h : s.Opened w targets r) : s.references.OnePerSlot := by
  rw [h.scanned]
  exact References.onePerSlot_scan w _ _

theorem of_journal {journal : Journal} (h : s.Opened w targets r) :
    ({ s with journal := journal } : Session).Opened w targets r :=
  ⟨h.captured, h.scanned, h.typed⟩

/-- Guards and pins do not show in what a session records. -/
theorem of_guards_pins {guards : Store Bool} {pins : NumberedSet Node}
    (h : s.Opened { w with guards := guards, pins := pins } targets r) : s.Opened w targets r where
  captured := by
    obtain ⟨snapshot, hcapture, hs⟩ := h.captured
    refine ⟨snapshot, ?_, hs⟩
    rw [Snapshot.capture, ← Snapshot.addAll_guards_pins]
    exact hcapture
  scanned := by
    rw [h.scanned, References.scan_guards_pins]
    rfl
  typed := h.typed

end Opened

variable [Host σ]

omit [Host σ] in
/-- The stale objects are those of a stale type. -/
theorem mem_staleObjects {w : World σ} {snapshot : Snapshot} {os : List ObjectId}
    {e : StaleObject} :
    e ∈ staleObjects w snapshot os ↔
      e.object ∈ os ∧ e.type = (w.object e.object).type ∧ snapshot.isStale (.type e.type) := by
  rw [staleObjects, List.mem_filter, List.mem_map]
  constructor
  · rintro ⟨⟨o, ho, rfl⟩, hstale⟩
    exact ⟨ho, rfl, hstale⟩
  · rintro ⟨ho, htype, hstale⟩
    exact ⟨⟨e.object, ho, by rw [← htype]⟩, hstale⟩

omit [Host σ] in
/-- The objects of a type are those that are recorded with it. -/
theorem mem_objectsOf {s : Session} {o : ObjectId} {t : TypeId} :
    o ∈ s.objectsOf t ↔ (⟨o, t⟩ : StaleObject) ∈ s.objects := by
  rw [objectsOf, List.mem_map]
  constructor
  · rintro ⟨x, hx, rfl⟩
    obtain ⟨hx, htype⟩ := List.mem_filter.mp hx
    rw [← beq_iff_eq.mp htype]
    exact hx
  · intro hmem
    exact ⟨⟨o, t⟩, List.mem_filter.mpr ⟨hmem, beq_self_eq_true t⟩, rfl⟩

/-- Finding objects may sweep a heap and changes nothing else. -/
theorem exists_heaps_objects (w : World σ) (e : Enumerator) :
    ∃ heaps, (e.objects w).2 = { w with heaps := heaps } := by
  cases e with
  | heapOf r => exact ⟨_, rfl⟩
  | listed os => exact ⟨w.heaps, rfl⟩

/-- The objects that an enumerator finds while a session holds what it has scanned. -/
def found (s : Session) (w : World σ) (e : Enumerator) : List ObjectId :=
  (e.objects (w.pin (s.snapshot.nodes ++ s.references.nodes))).1

/-- **Opening.** What a session records, and what has changed when it is open. -/
theorem opened_of_start {w w' : World σ} {targets : List UnitId} {r : RegistryId} {e : Enumerator}
    {config : Config} {s : Session} (h : start w targets r e config = (.ok s, w')) :
    s.Opened w targets r ∧ s.config = config ∧ s.journal = firstJournal config s.references ∧
      s.objects = staleObjects w s.snapshot (s.found w e) ∧
        ∃ heaps, w' = { w with heaps := heaps } := by
  rw [start] at h
  split at h
  · cases h
  · next snapshot hcapture =>
    obtain ⟨heaps, hheaps⟩ := exists_heaps_objects
      (w.pin (snapshot.nodes ++ (References.scan w snapshot (w.unitsOf r)).nodes)) e
    -- the world after the enumeration is the one before with other heaps
    have hholding : w.holding (snapshot.nodes ++ (References.scan w snapshot (w.unitsOf r)).nodes)
        (e.objects ·) = ((e.objects (w.pin (snapshot.nodes ++
          (References.scan w snapshot (w.unitsOf r)).nodes))).1, { w with heaps := heaps }) := by
      simp only [World.holding, hheaps]
      rfl
    simp only [hholding] at h
    obtain ⟨hs, rfl⟩ := Prod.mk.inj h
    rw [Except.ok.injEq] at hs
    -- what is left to show is that recorded objects are of stale types
    subst hs
    refine ⟨⟨⟨snapshot, hcapture, rfl⟩, rfl, fun x hx => ?_⟩, rfl, rfl, rfl, heaps, rfl⟩
    exact (mem_staleObjects.mp hx).2

/-- The heaps of an opened session are those that finding the objects leaves. -/
theorem heaps_of_start {w w' : World σ} {targets : List UnitId} {r : RegistryId} {e : Enumerator}
    {config : Config} {s : Session} (h : start w targets r e config = (.ok s, w')) :
    w'.heaps = (e.objects (w.pin (s.snapshot.nodes ++ s.references.nodes))).2.heaps := by
  rw [start] at h
  split at h
  · cases h
  · cases h
    rfl

/-- Targets that show their exports can be opened a session on. -/
theorem exists_start {w : World σ} {targets : List UnitId} (h : ∀ t ∈ targets, w.isOpen t = true)
    (r : RegistryId) (e : Enumerator) (config : Config) :
    ∃ s w', start w targets r e config = (.ok s, w') := by
  obtain ⟨snapshot, hcapture⟩ := Snapshot.exists_addAll h Snapshot.empty
  simp only [start, Snapshot.capture, hcapture]
  exact ⟨_, _, rfl⟩

end Session

end HotReload
