import HotReload.Proofs.Reload.JournalSettings
import HotReload.Proofs.Reload.StaleReferences
import Mathlib.Data.Finset.Card

/-!
# Reports of removed symbols

A report of a removed symbol says how many slots hold an old definition of that name
(`World.oldHolders`). The repair does not write these slots, since there is nothing to write into
them. But the number is that of the slots that were recorded when the reload began, and recompilers
have written slots since then, their own as well as others. What they have taken away is counted and
what they have added is not.

So the number is the one of the call's end exactly if the recompilations have added as many of these
slots as they have taken away (`Reloader.removals_counted`). `Reloader.removals_overcounted` is a
reload that counts a slot with something else in it.
-/

namespace HotReload

variable {σ : Type}

/-! ### Lists without repetitions -/

theorem Table.nodup_definitions (table : Table Value) : table.definitions.Nodup := by
  refine List.Nodup.filterMap ?_ table.nodup.of_map
  rintro ⟨x, v⟩ ⟨y, v'⟩ ⟨z, d⟩ h h'
  -- an entry is what its name and its definition make it
  obtain ⟨d₁, hd₁, heq⟩ := Option.map_eq_some_iff.mp h
  obtain ⟨d₂, hd₂, heq'⟩ := Option.map_eq_some_iff.mp h'
  rw [Value.definition?_eq_some] at hd₁ hd₂
  obtain ⟨rfl, rfl⟩ := Prod.mk.inj heq
  obtain ⟨rfl, rfl⟩ := Prod.mk.inj heq'
  exact Prod.ext rfl (hd₁.trans hd₂.symm)

namespace World

/-- A unit is loaded under one name. -/
theorem nodup_unitsOf {w : World σ} (hw : w.Sound) (r : RegistryId) : (w.unitsOf r).Nodup := by
  have hentries := (w.registry r).units.nodup
  refine (List.nodup_map_iff_inj_on hentries.of_map).mpr ?_
  rintro ⟨x, u⟩ hx ⟨y, v⟩ hy rfl
  have hname := (hw.registered r x u ((Table.get?_eq_some_iff _ _ _).mpr hx)).2
  have hname' := (hw.registered r y u ((Table.get?_eq_some_iff _ _ _).mpr hy)).2
  rw [← hname, ← hname']

end World

namespace References

theorem nodup_ofTable (w : World σ) (s : Snapshot) (u : UnitId) (table : Table Value) :
    (ofTable w s u table).Nodup := by
  refine List.Nodup.map ?_ ((table.nodup_definitions.filter _).filter _)
  rintro ⟨x, d⟩ ⟨y, d'⟩ heq
  simp only [ExternalBinding.mk.injEq] at heq
  exact Prod.ext heq.2.1 heq.2.2.1

theorem nodup_scan (w : World σ) (s : Snapshot) {us : List UnitId} (hus : us.Nodup) :
    (scan w s us).bindings.Nodup := by
  induction us with
  | nil => exact List.nodup_nil
  | cons u us ih =>
    rw [List.nodup_cons] at hus
    rw [scan]
    cases htable : w.introspect u with
    | error e => exact ih hus.2
    | ok table =>
      refine (nodup_ofTable w s u table).append (ih hus.2) fun b hb hrest => ?_
      -- a binding has one holder
      obtain ⟨-, rfl⟩ := World.introspect_eq_ok_iff.mp htable
      have hholder := (mem_ofTable.mp hb).1
      exact hus.1 (hholder ▸ (mem_bindings_scan.mp hrest).1)

end References

/-! ### Holders of old definitions -/

namespace World

/-- **Holders of old definitions.** The slots of loaded units other than `u` that show their exports
in `w'` and hold a definition named `q` that a target exported in `w`. -/
def oldHolders (w w' : World σ) (r : RegistryId) (targets : List UnitId) (u : UnitId)
    (q : QualifiedName) : Finset (UnitId × String) :=
  (((w'.unitsOf r).filter fun h => h ≠ u ∧ w'.isOpen h = true).flatMap fun h =>
    ((w'.exports h).definitions.filter fun e =>
      w.nameOf e.2 = q ∧ ∃ t ∈ targets, e.2 ∈ (w.exports t).definitions.map (·.2)).map
        fun e => (h, e.1)).toFinset

theorem mem_oldHolders {w w' : World σ} {r : RegistryId} {targets : List UnitId} {u h : UnitId}
    {q : QualifiedName} {x : String} :
    (h, x) ∈ w.oldHolders w' r targets u q ↔
      h ∈ w'.unitsOf r ∧ h ≠ u ∧ w'.isOpen h = true ∧
        ∃ d, w'.export? h x = some (.definition d) ∧ w.nameOf d = q ∧
          ∃ t ∈ targets, ∃ y, w.export? t y = some (.definition d) := by
  have hexported : ∀ d t, d ∈ (w.exports t).definitions.map (·.2) ↔
      ∃ y, w.export? t y = some (.definition d) := by
    intro d t
    simp only [List.mem_map, Prod.exists, Table.mem_definitions, exists_eq_right]
    rfl
  simp only [oldHolders, hexported, List.mem_toFinset, List.mem_flatMap, List.mem_filter,
    List.mem_map, decide_eq_true_eq, Prod.mk.injEq, Prod.exists, Table.mem_definitions]
  constructor
  · rintro ⟨k, ⟨hloaded, hne, hopen⟩, y, d, ⟨hheld, hname, hold⟩, rfl, rfl⟩
    exact ⟨hloaded, hne, hopen, d, hheld, hname, hold⟩
  · rintro ⟨hloaded, hne, hopen, d, hheld, hname, hold⟩
    exact ⟨h, ⟨hloaded, hne, hopen⟩, x, d, ⟨hheld, hname, hold⟩, rfl, rfl⟩

/-- In the world of the call, the holders of old definitions of a unit are the slots with a stale
definition of that name. -/
theorem mem_oldHolders_self {w : World σ} (hw : w.Sound) {r : RegistryId} {targets : List UnitId}
    {u h : UnitId} (hu : u ∈ w.unitsOf r) {q : QualifiedName} (hq : q.unit = (w.unit u).name)
    {x : String} :
    (h, x) ∈ w.oldHolders w r targets u q ↔
      ∃ d, w.HoldsStale r targets h x d ∧ w.nameOf d = q := by
  rw [mem_oldHolders]
  constructor
  · rintro ⟨hloaded, hne, hopen, d, hheld, rfl, hexported⟩
    refine ⟨d, ⟨hloaded, hopen, hheld, ?_, hexported⟩, rfl⟩
    -- another loaded unit has another name
    rw [w.owns_eq_false_iff, hq]
    exact fun hname => hne (eq_of_loaded hw hu hloaded hname).symm
  · rintro ⟨d, hstale, rfl⟩
    refine ⟨hstale.loaded, ?_, hstale.isOpen, d, hstale.held, rfl, hstale.exported⟩
    rintro rfl
    exact (w.owns_eq_false_iff _ _).mp hstale.foreign hq

end World

/-- **Holders are counted once.** The holders that a session has on record for a name are as many as
there are slots with a stale definition of that name. -/
theorem Session.Opened.length_holders {s : Session} {w : World σ} {targets : List UnitId}
    {r : RegistryId} (hopened : s.Opened w targets r) (hw : w.Sound) {u : UnitId}
    (hu : u ∈ w.unitsOf r) {q : QualifiedName} (hq : q.unit = (w.unit u).name) :
    (s.references.holders q).length = (w.oldHolders w r targets u q).card := by
  have hbindings : s.references.bindings.Nodup := by
    rw [hopened.scanned]
    exact References.nodup_scan w _ (World.nodup_unitsOf hw r)
  -- no two bindings are of one slot
  have hslots : ((s.references.holders q).map fun b => (b.holder, b.localName)).Nodup := by
    refine (List.nodup_map_iff_inj_on (hbindings.filter _)).mpr fun b hb b' hb' heq => ?_
    obtain ⟨hholder, hname⟩ := Prod.mk.inj heq
    exact hopened.onePerSlot b (List.mem_of_mem_filter hb) b' (List.mem_of_mem_filter hb') hholder
      hname
  have hmem : ((s.references.holders q).map fun b => (b.holder, b.localName)).toFinset =
      w.oldHolders w r targets u q := by
    ext ⟨h, x⟩
    rw [List.mem_toFinset, List.mem_map, World.mem_oldHolders_self hw hu hq]
    constructor
    · rintro ⟨b, hb, heq⟩
      obtain ⟨rfl, rfl⟩ := Prod.mk.inj heq
      obtain ⟨hbinding, hname⟩ := References.mem_holders.mp hb
      obtain ⟨hstale, hkey⟩ := hopened.mem_bindings_iff.mp hbinding
      exact ⟨b.stale, hstale, hkey.symm.trans hname⟩
    · rintro ⟨d, hstale, rfl⟩
      exact ⟨⟨h, x, d, w.nameOf d⟩, References.mem_holders.mpr
        ⟨hopened.mem_bindings_iff.mpr ⟨hstale, rfl⟩, rfl⟩, rfl⟩
  rw [← hmem, List.toFinset_card_of_nodup hslots, List.length_map]

namespace Reloader

variable [Host σ] {recompile : Recompiler σ} {r : Reloader} {names : List String} {w : World σ}
  {c : Course σ}

namespace Course

/-! ### The repair -/

/-- **The repair leaves old definitions without a successor alone**, wherever they are, and puts
none of them anywhere. -/
theorem export?_unclaimed_iff (hlawful : recompile.Lawful) (hw : w.Sound)
    (h : r.course? recompile names w = some c) {u : UnitId} (hu : u ∈ c.batch.reloaded)
    {d : Definition} (hd : w.hasDefinition d = true) (howned : (w.nameOf d).unit = (w.unit u).name)
    (hnone : c.compiled.claimant? u (w.nameOf d) = none) (k : UnitId) (x : String) :
    (c.returned r w).export? k x = some (.definition d) ↔
      c.compiled.export? k x = some (.definition d) := by
  have hopened := opened_session h
  have hkept := keepsNames hlawful hw h
  have hnames := nodup_names_reloaded hlawful hw h
  have hlater := later_compiled hlawful hw h
  have hunit := name_target hlater hw h ((mem_reloaded h).2 u hu)
  have hsucc : c.compiled.successorAmong? c.batch.reloaded (w.nameOf d) = none := by
    rw [World.successorAmong?_eq_claimant? hnames hu (hunit.trans howned.symm), hnone]
  rw [export?_returned]
  by_cases hsame : c.repaired.2.2.export? k x = c.compiled.export? k x
  · rw [hsame]
  -- a slot that is written held a definition with a successor, and then holds that
  obtain ⟨d₁, d₂, hr⟩ := hopened.repoints_of_changed hkept hnames
    (show (c.closing.propagate c.batch.reloaded c.compiled).2.2.export? k x ≠ _ from hsame)
  have hend : c.repaired.2.2.export? k x = some (.definition d₂) :=
    hopened.export?_of_repoints hkept hnames hr
  have hsome := hr.succeeded
  rw [hr.held, hend, Option.some.injEq, Value.definition.injEq, Option.some.injEq,
    Value.definition.injEq]
  refine iff_of_false ?_ ?_
  · rintro rfl
    obtain ⟨v, -, hclaim⟩ := (World.successorAmong?_eq_some hnames).mp hsome
    have hname := (c.compiled.claimant?_spec hclaim).1
    rw [← hname, hlater.nameOf d₂ hd, hsucc] at hsome
    cases hsome
  · rintro rfl
    rw [hsucc] at hsome
    cases hsome

/-- The holders of old definitions of a name without a successor are in the end what they are when
the repair starts. -/
theorem oldHolders_returned (hlawful : recompile.Lawful) (hw : w.Sound)
    (h : r.course? recompile names w = some c) {u : UnitId} (hu : u ∈ c.batch.reloaded)
    {q : QualifiedName} (hq : q.unit = (w.unit u).name)
    (hnone : c.compiled.claimant? u q = none) :
    w.oldHolders (c.returned r w) r.registry c.targets u q =
      w.oldHolders c.compiled r.registry c.targets u q := by
  ext ⟨k, x⟩
  rw [World.mem_oldHolders, World.mem_oldHolders, unitsOf_returned,
    (sameForm_returned c r w).isOpen]
  -- units and their state are what they were, so slots alone could differ
  refine and_congr_right fun _ => and_congr_right fun _ => and_congr_right fun _ =>
    exists_congr fun d => and_congr_left ?_
  rintro ⟨rfl, t, -, y, hy⟩
  exact export?_unclaimed_iff hlawful hw h hu (hw.exports t y _ hy) hq hnone k x

/-! ### The events -/

/-- **What a report of a removed symbol is about.** It names a definition of a unit that has
succeeded, which the unit does not claim when the repair starts, and tells how many holders the
session has on record. -/
theorem exists_of_symbolRemoved (hlawful : recompile.Lawful) (hw : w.Sound)
    (h : r.course? recompile names w = some c) (hcapacity : r.config.journalCapacity = none)
    {x : Entry} (hx : x ∈ c.report.events) {name : String} {holders : Nat}
    (hevent : x.event = .symbolRemoved name holders) :
    ∃ u ∈ c.batch.reloaded, (w.unit u).name = x.unit ∧
      ∃ q ∈ c.closing.unclaimed c.compiled u, name = q.text ∧
        holders = (c.closing.references.holders q).length := by
  have hfits := fits hlawful hw h
  have hone := oneTarget_moves hlawful hw h
  -- what a repair reports does not depend on the repairs before it
  have hpass := Session.noted_propagate_iff
    (P := c.closing.Stage c.batch.reloaded c.compiled)
    (E := fun u => .symbolRemoved name holders ∈
      (c.compiled.removals c.closing u).map Deed.event)
    (e := .symbolRemoved name holders) (journal_closing h hcapacity).1
    (.refl c.closing c.batch.reloaded c.compiled) (fun u hu v hv => hv.repair hfits hone hu)
    (fun u _ v hv => by
      rw [World.symbolRemoved_mem_repair, World.removals, World.removals,
        Session.unclaimed_congr hv.form (hv.own u)]) x.unit
  obtain hbefore | ⟨-, u, hu, hunit, hremoved⟩ := hpass.mp ⟨x, hx, rfl, hevent⟩
  · exact absurd hbefore (not_noted_closing h hcapacity rfl)
  · obtain ⟨d, hd, heq⟩ := List.mem_map.mp hremoved
    obtain ⟨q, hq, rfl⟩ := List.mem_map.mp hd
    obtain ⟨rfl, rfl⟩ := Event.symbolRemoved.inj heq
    have hname := name_target (later_compiled hlawful hw h) hw h ((mem_reloaded h).2 u hu)
    exact ⟨u, hu, hname.symm.trans hunit, q, hq, rfl, rfl⟩

end Course

/-! ### The law -/

/-- **The number in a report of a removed symbol.** Let a reload keep its whole journal, and let an
event of its report say that a symbol is removed and has some number of holders. The event is about
a definition `f` of the loaded unit that it is noted for, and the number is that of the slots that
held an old `f` when the call was made, of which there is one at least. The slots that hold an old
`f` in the end are those that do when the repair starts. So the number is right exactly if the
recompilations have filled as many slots with an old `f` as they have taken it out of. -/
theorem removals_counted (hlawful : recompile.Lawful) (hw : w.Sound)
    (hcapacity : r.config.journalCapacity = none)
    (hcourse : r.course? recompile names w = some c) {w' : World σ} {report : Report}
    (hreload : r.reload recompile names w = (.ok report, w')) {x : Entry}
    (hx : x ∈ report.events) {name : String} {holders : Nat}
    (hevent : x.event = .symbolRemoved name holders) :
    ∃ u f, w.unit? r.registry x.unit = some u ∧ name = (QualifiedName.top x.unit f).text ∧
      let before := w.oldHolders w r.registry c.targets u (.top x.unit f)
      let compiled := w.oldHolders c.compiled r.registry c.targets u (.top x.unit f)
      let after := w.oldHolders w' r.registry c.targets u (.top x.unit f)
      holders = before.card ∧ 1 ≤ holders ∧ after = compiled ∧
        (holders = after.card ↔ (compiled \ before).card = (before \ compiled).card) := by
  obtain ⟨rfl, rfl⟩ := eq_of_course hcourse hreload
  obtain ⟨u, hu, hunit, q, hq, rfl, hholders⟩ :=
    Course.exists_of_symbolRemoved hlawful hw hcourse hcapacity hx hevent
  obtain ⟨⟨b, hb, hkey⟩, howner, hnone⟩ := Session.mem_unclaimed.mp hq
  have htarget := (Course.mem_reloaded hcourse).2 u hu
  obtain ⟨hlt, hregistered⟩ := Course.target_registered hw hcourse htarget
  have hqunit : q.unit = (w.unit u).name :=
    howner.trans ((Course.later_compiled hlawful hw hcourse).unitName u hlt)
  -- a binding goes by the name of a definition, which has two parts
  obtain ⟨f, rfl⟩ : ∃ f, q = .top x.unit f := by
    obtain ⟨f, hf⟩ := w.exists_nameOf_eq_top b.stale
    have hname := ((Course.opened_session hcourse).mem_bindings_iff.mp hb).2
    rw [hkey] at hname
    rw [← hname, hqunit, hunit] at hf
    exact ⟨f, hf⟩
  refine ⟨u, f, hunit ▸ hregistered, rfl, ?_⟩
  intro before compiled after
  have hbefore : holders = before.card :=
    hholders.trans ((Course.opened_session hcourse).length_holders hw
      (Course.mem_unitsOf_of_target hw hcourse htarget) hqunit)
  have hafter : after = compiled :=
    Course.oldHolders_returned hlawful hw hcourse hu hqunit hnone
  refine ⟨hbefore, ?_, hafter, ?_⟩
  · rw [hholders]
    exact List.length_pos_of_mem (References.mem_holders.mpr ⟨hb, hkey⟩)
  · -- what is in both sets does not matter
    have hcompiled := Finset.card_sdiff_add_card_inter compiled before
    have hrecorded := Finset.card_sdiff_add_card_inter before compiled
    rw [Finset.inter_comm] at hrecorded
    rw [hbefore, hafter]
    omega

open Scenario.TwoUnits

/-- A recompiler that puts the `f` of `b` into slot `y` of `a` and makes a `g` for `b`. -/
def shifting : Recompiler Fixture := .onUnit "a" (.importing "b" "f" "y") (.renewing "g")

/-- The course of a reload that gives `a` and then `b` a table in the place of the old one. -/
def shift : Course Fixture :=
  (replacing.course? shifting ["a", "b"] holding).get (by decide +kernel)

/-- The slot that was recorded is gone, and another one holds the old `f` instead. The number is
right. -/
theorem removals_counted_shifted :
    ∃ x ∈ shift.report.events, x.event = .symbolRemoved "b.f" 1 ∧
      (holding.oldHolders (shift.returned replacing holding) replacing.registry shift.targets
        holding.host.b (.top "b" "f")).card = 1 := by
  have hcourse : replacing.course? shifting ["a", "b"] holding = some shift :=
    (Option.some_get _).symm
  have hlawful : shifting.Lawful := Recompiler.lawful_onUnit "a"
    (Recompiler.lawful_importing "b" "f" "y") (Recompiler.lawful_renewing "g")
  have hsound : holding.Sound := by decide +kernel
  obtain ⟨x, hx, hevent, hunit⟩ : ∃ x ∈ shift.report.events,
      x.event = .symbolRemoved "b.f" 1 ∧ x.unit = "b" := by decide +kernel
  -- the law names the symbol by its text, which tells unit and name
  obtain ⟨u, f, hu, hname, -, -, -, hright⟩ :=
    removals_counted hlawful hsound rfl hcourse (reload_of_course hcourse) hx hevent
  rw [hunit] at hu hname hright
  have htext : "b.f" = (QualifiedName.top "b" "f").text := by decide
  obtain rfl : f = "f" := QualifiedName.text_top_inj.mp (hname.symm.trans htext)
  obtain rfl : holding.host.b = u := Option.some.inj (hu ▸ (by decide +kernel))
  exact ⟨x, hx, hevent, (hright.mpr (by decide +kernel)).symm⟩

/-- The fixture with an `f` that `b` exports and `a` holds twice. -/
def holdingTwice : World Fixture := holding.setExport holding.host.a "y" (.callable ⟨0⟩)

/-- A recompiler that puts numbers into the slots `x` of `a` and `f` of `b`. -/
def numbering : Recompiler Fixture := .onUnit "a" (.storing "x" 1) (.storing "f" 2)

/-- **A holder too many.** Slot `x` of `a` is overwritten before `f` is found to be removed, but the
report says that two slots have kept it. -/
theorem removals_overcounted :
    ∃ (c : Course Fixture) (report : Report) (w' : World Fixture),
      holdingTwice.Sound ∧ numbering.Lawful ∧ reloader.config.journalCapacity = none ∧
      reloader.config.logRemovedSymbols = true ∧
      reloader.course? numbering ["a", "b"] holdingTwice = some c ∧
      reloader.reload numbering ["a", "b"] holdingTwice = (.ok report, w') ∧
      report.failures = [] ∧
      holdingTwice.unit? reloader.registry "b" = some holdingTwice.host.b ∧
      (∃ x ∈ report.events, x.unit = "b" ∧
        x.event = .symbolRemoved (QualifiedName.top "b" "f").text 2) ∧
      (holdingTwice.oldHolders w' reloader.registry c.targets holdingTwice.host.b
        (.top "b" "f")).card = 1 := by
  let c := (reloader.course? numbering ["a", "b"] holdingTwice).get (by decide +kernel)
  have hcourse : reloader.course? numbering ["a", "b"] holdingTwice = some c :=
    (Option.some_get _).symm
  have hlawful : numbering.Lawful := Recompiler.lawful_onUnit "a"
    (Recompiler.lawful_storing "x" 1) (Recompiler.lawful_storing "f" 2)
  refine ⟨c, c.report, c.returned reloader holdingTwice, ?_, hlawful, ?_, ?_, hcourse,
    reload_of_course hcourse, ?_, ?_, ?_, ?_⟩
  all_goals decide +kernel

end Reloader

end HotReload
