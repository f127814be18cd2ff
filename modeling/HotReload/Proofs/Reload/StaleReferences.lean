import HotReload.Proofs.Reload.Recompilers
import HotReload.Proofs.Reload.Reported

/-!
# Stale references

A definition that a unit does not export any more after a reload is *dropped* (`World.Dropped`).
Slots of other units, ancestor lists and objects that referred to it have been given its successor,
or the report says that there is none; otherwise an unreported stale reference is left
(`World.Accounted`).

Ancestor lists are never left behind: living subtypes are looked up when the repair comes to the old
type, and none appears later. The bindings and the objects, however, are those that were found when
the reload began. What a recompiler makes of old definitions while a unit is waiting to be
recompiled is not among them: a slot that it fills with one, or an object that it creates of one,
keeps it and is not mentioned.

So nothing is left exactly if every slot and every object that refers to a dropped definition when
the repair starts was recorded when the reload began (`Reloader.Foreseen`), where slots can also be
left if their names are reported, which takes a configuration that does so, and a slot that was
recorded (`Reloader.accounted_iff`). `Reloader.late_import_unaccounted` is a reload that leaves a
slot behind.
-/

namespace HotReload

variable {σ : Type}

namespace World

/-- **A dropped definition.** `u` owned and exported `d` in `w` and does not export it in `w'`. -/
structure Dropped (w w' : World σ) (u : UnitId) (d : Definition) : Prop where
  exported : ∃ x, w.export? u x = some (.definition d)
  owned : (w.nameOf d).unit = (w.unit u).name
  gone : ∀ x, w'.export? u x ≠ some (.definition d)

/-- A value that is in no entry of the export table of a unit is in none of its slots. -/
theorem export?_ne {w : World σ} {u : UnitId} {v : Value}
    (h : ∀ e ∈ (w.exports u).entries, e.2 ≠ v) (x : String) : w.export? u x ≠ some v :=
  fun hx => h (x, v) ((Table.get?_eq_some_iff _ _ _).mp hx) rfl

variable [Host σ]

/-- **Accounted for.** What still refers to the dropped definition `d` of `u` is reported: slots of
other loaded units that show their exports by the name of a removed symbol, living types by that of
a removed type, and the living objects of the registry by that of a removed type or of a type that
refused an object. -/
structure Accounted (w : World σ) (report : Report) (r : RegistryId) (u : UnitId) (d : Definition) :
    Prop where
  slots : ∀ h ∈ w.unitsOf r, h ≠ u → w.isOpen h = true → ∀ x,
    w.export? h x = some (.definition d) →
      ∃ n, Noted report.events (w.nameOf d).unit (.symbolRemoved (w.nameOf d).text n)
  ancestors : ∀ t, d = .type t → ∀ s, w.isAlive (.type s) = true → t ∈ w.ancestors s →
    Noted report.events (w.nameOf d).unit (.typeRemoved (w.nameOf d).text)
  objects : ∀ t, d = .type t → ∀ o ∈ w.livingIn (w.registry r).heap, (w.object o).type = t →
    Noted report.events (w.nameOf d).unit (.typeRemoved (w.nameOf d).text) ∨
      ∃ reason, Noted report.events (w.nameOf d).unit (.retypeRejected (w.nameOf d).text reason)

end World

namespace Reloader

variable [Host σ]

/-- **Foreseen.** When the repair starts, the references to the dropped definition `d` are such that
the repair or the report covers them.

A slot is repaired if it was recorded and the name of `d` has a new definition. If it has none the
name is reported, provided that removed symbols are reported at all and that some slot was recorded
with a definition of this name. An object is repaired if it was recorded with an old type and its
new type does not refuse it. It is covered as well if an object is refused by the type of the name
of `d`. -/
structure Foreseen (r : Reloader) (c : Course σ) (w w' : World σ) (u : UnitId) (d : Definition) :
    Prop where
  slots : ∀ h ∈ c.compiled.unitsOf r.registry, h ≠ u → c.compiled.isOpen h = true → ∀ x,
    c.compiled.export? h x = some (.definition d) →
      if c.compiled.claimant? u (w.nameOf d) = none then
        r.config.logRemovedSymbols = true ∧
          ∃ h' x' d', w.HoldsStale r.registry c.targets h' x' d' ∧ w.nameOf d' = w.nameOf d
      else w.HoldsStale r.registry c.targets h x d
  objects : ∀ t, d = .type t →
    c.compiled.successor? (typesAmong (c.compiled.ownExports u)) t ≠ none →
      ∀ o ∈ w'.livingIn (w'.registry r.registry).heap, (c.compiled.object o).type = t →
        (∃ v ∈ c.batch.reloaded, ∃ old new, r.Relocates w c.compiled v o old new ∧
          c.compiled.refusal? (o, new) = none) ∨
        ∃ o' old new, r.Relocates w c.compiled u o' old new ∧ w.typeName old = w.typeName t ∧
          c.compiled.refusal? (o', new) ≠ none

namespace Course

variable {recompile : Recompiler σ} {r : Reloader} {names : List String} {w : World σ}
  {c : Course σ}

/-! ### References to a dropped definition at the end -/

section Dropped

variable (hlawful : recompile.Lawful) (hw : w.Sound) (h : r.course? recompile names w = some c)
  {u : UnitId} (hu : u ∈ c.batch.reloaded) {d : Definition}
  (hdropped : w.Dropped (c.returned r w) u d)

include hlawful hw h hdropped

theorem nameOf_dropped : c.compiled.nameOf d = w.nameOf d := by
  obtain ⟨x, hx⟩ := hdropped.exported
  exact (later_compiled hlawful hw h).nameOf d (hw.exports u x _ hx)

include hu

/-- When the repair starts no unit of the batch exports a dropped definition as its own. -/
theorem notMem_ownExports_of_dropped : ∀ v ∈ c.batch.reloaded, ∀ x,
    (x, d) ∉ c.compiled.ownExports v := by
  intro v hv x hx
  have hlater := later_compiled hlawful hw h
  have htarget := (mem_reloaded h).2
  have hname := nameOf_dropped hlawful hw h hdropped
  have hunit := name_target hlater hw h (htarget v hv)
  have howner := (c.compiled.mem_ownExports.mp hx).2
  rw [hname, hdropped.owned, hunit] at howner
  -- the owner is `u`, and what it owns then it exports in the end
  obtain rfl := target_eq_of_name hw h (htarget u hu) (htarget v hv) howner
  rw [← ownExports_returned hlawful hw h] at hx
  exact hdropped.gone x ((c.returned r w).mem_ownExports.mp hx).1

/-- **Slots with a dropped definition** in the end are those that held it when the repair started,
but for those that were recorded and whose definition has a successor. -/
theorem export?_dropped_iff (k : UnitId) (x : String) :
    (c.returned r w).export? k x = some (.definition d) ↔
      c.compiled.export? k x = some (.definition d) ∧
        ¬ (w.HoldsStale r.registry c.targets k x d ∧
          c.compiled.claimant? u (w.nameOf d) ≠ none) := by
  have hopened := opened_session h
  have hkept := keepsNames hlawful hw h
  have hnames := nodup_names_reloaded hlawful hw h
  have hlater := later_compiled hlawful hw h
  have htarget := (mem_reloaded h).2
  have hnot := notMem_ownExports_of_dropped hlawful hw h hu hdropped
  have hclaimed : ∀ v ∈ c.batch.reloaded, ∀ q, c.compiled.claimant? v q ≠ some d := by
    intro v hv q hclaim
    obtain ⟨hname, hunit, y, hy⟩ := c.compiled.claimant?_spec hclaim
    exact hnot v hv y (c.compiled.mem_ownExports.mpr ⟨hy, hname ▸ hunit⟩)
  -- the name belongs to `u`, so its successor is what `u` claims it for
  have hsucc : ∀ d', c.compiled.successorAmong? c.batch.reloaded (w.nameOf d) = some d' ↔
      c.compiled.claimant? u (w.nameOf d) = some d' := by
    intro d'
    have hunit := name_target hlater hw h (htarget u hu)
    rw [World.successorAmong?_eq_claimant? hnames hu (hunit.trans hdropped.owned.symm)]
  rw [export?_returned]
  constructor
  · -- a slot that is written is given a definition of some unit, which `d` is not
    intro hend
    have hstart : c.compiled.export? k x = some (.definition d) := by
      by_contra hne
      obtain ⟨d₁, d₂, hr⟩ := hopened.repoints_of_changed hkept hnames
        (show c.repaired.2.2.export? k x ≠ c.compiled.export? k x from fun hc => hne (hc ▸ hend))
      have hslot := hopened.export?_of_repoints hkept hnames hr
      obtain ⟨v, hv, hclaim⟩ := (World.successorAmong?_eq_some hnames).mp hr.succeeded
      have heq : some (Value.definition d₂) = some (.definition d) := hslot.symm.trans hend
      rw [Option.some.injEq, Value.definition.injEq] at heq
      exact hclaimed v hv _ (heq ▸ hclaim)
    refine ⟨hstart, ?_⟩
    rintro ⟨hstale, hclaim⟩
    obtain ⟨d', hd'⟩ := Option.ne_none_iff_exists'.mp hclaim
    have hslot := hopened.export?_of_claimant hkept hnames hstale hstart hu hd'
    have heq : some (Value.definition d') = some (.definition d) := hslot.symm.trans hend
    rw [Option.some.injEq, Value.definition.injEq] at heq
    exact hclaimed u hu _ (heq ▸ hd')
  · -- and only recorded slots with a successor are written
    rintro ⟨hstart, hidle⟩
    by_contra hne
    obtain ⟨d₁, d₂, hr⟩ := hopened.repoints_of_changed hkept hnames
      (show c.repaired.2.2.export? k x ≠ c.compiled.export? k x from fun hc => hne (hc ▸ hstart))
    have hd₁ := hr.held
    rw [hstart, Option.some.injEq, Value.definition.injEq] at hd₁
    subst hd₁
    refine hidle ⟨hr.stale, ?_⟩
    rw [(hsucc d₂).mp hr.succeeded]
    exact Option.some_ne_none d₂

/-- **Objects of a dropped type** in the end are those that had it when the repair started and were
not given another one. -/
theorem type_dropped_iff {t : TypeId} (ht : d = .type t) (o : ObjectId) :
    ((c.returned r w).object o).type = t ↔
      (c.compiled.object o).type = t ∧ ¬ ∃ v ∈ c.batch.reloaded, ∃ old new,
        r.Relocates w c.compiled v o old new ∧ c.compiled.refusal? (o, new) = none := by
  have hnot := notMem_ownExports_of_dropped hlawful hw h hu hdropped
  by_cases hmoved : ∃ v ∈ c.batch.reloaded, ∃ old new,
      r.Relocates w c.compiled v o old new ∧ c.compiled.refusal? (o, new) = none
  · -- it has a type that a unit exports
    obtain ⟨v, hv, old, new, hr, hfree⟩ := hmoved
    refine iff_of_false ?_ fun hc => hc.2 ⟨v, hv, old, new, hr, hfree⟩
    rw [type_returned_of_relocates hlawful hw h hv hr, if_pos hfree]
    rintro rfl
    obtain ⟨x, hx⟩ := Snapshot.mem_typesAmong.mp (List.mem_of_find?_eq_some hr.succeeded)
    exact hnot v hv x (ht ▸ hx)
  · rw [and_iff_left hmoved]
    -- a refused move leaves the type alone, and so does the absence of a move
    have hsame : ((c.returned r w).object o).type = (c.compiled.object o).type := by
      by_cases hr : ∃ v ∈ c.batch.reloaded, ∃ old new, r.Relocates w c.compiled v o old new
      · obtain ⟨v, hv, old, new, hr⟩ := hr
        rw [type_returned_of_relocates hlawful hw h hv hr, if_neg]
        exact fun hfree => hmoved ⟨v, hv, old, new, hr, hfree⟩
      · exact type_returned_of_not_relocates hlawful hw h
          fun v hv old new hc => hr ⟨v, hv, old, new, hc⟩
    rw [hsame]

/-- **No living type lists a dropped type** in the end, if another type succeeds it. -/
theorem unlisted_returned {r' : RegistryId} (henumerator : r.enumerator = .heapOf r') {t : TypeId}
    (ht : d = .type t)
    (hsome : c.compiled.successor? (typesAmong (c.compiled.ownExports u)) t ≠ none) :
    (c.returned r w).Unlisted t := by
  subst ht
  -- what was pinned when the batch started is pinned when the repair starts
  obtain ⟨hsound, -, hpins⟩ := compiled_lawful hlawful hw h
  have hlater := later_compiled hlawful hw h
  have htarget := (mem_reloaded h).2
  have hheld : ∀ v ∈ c.batch.reloaded,
      c.compiled.pins.contains (.unit v) = true ∧ c.compiled.knows (.unit v) = true := by
    intro v hv
    have hlt := (target_registered hw h (htarget v hv)).1
    rw [hpins]
    exact ⟨(pins_opened h).2 v (htarget v hv),
      decide_eq_true (Nat.lt_of_lt_of_le hlt hlater.units)⟩
  have howned : (w.type t).owner = (w.unit u).name := hdropped.owned
  have hunlisted : c.repaired.2.2.Unlisted t :=
    Session.unlisted_propagate hsound (known_closing hlawful hw h henumerator) (fits hlawful hw h)
      hheld hu ((mem_ownTypes_closing hlawful hw h (htarget u hu)).mpr ⟨hdropped.exported, howned⟩)
      (notMem_ownExports_of_dropped hlawful hw h hu hdropped) hsome
  have hframe := Session.frame_propagate c.closing c.batch.reloaded c.compiled
  -- letting go of the pins brings no type back
  have hdone : ({ c.repaired.2.2 with pins := w.pins } : World σ).Unlisted t := by
    refine hunlisted.of_pins fun n hn => ?_
    have hend : c.repaired.2.2.pins = c.opened.pins := hframe.pins.trans hpins
    rw [hend]
    exact (pins_opened h).1 n hn
  intro s hs
  refine hdone s ?_
  refine (World.reaches_congr ?_ ?_ ?_ ?_ ?_ ?_ _).mp hs
  case refine_5 => exact fun _ => Iff.rfl
  all_goals rfl

variable (hcapacity : r.config.journalCapacity = none)

include hcapacity

/-- A slot with a dropped definition is reported exactly if it was foreseen. -/
theorem slot_accounted_iff (k : UnitId) (x : String) :
    ((c.returned r w).export? k x = some (.definition d) →
        ∃ n, Noted c.report.events (w.unit u).name (.symbolRemoved (w.nameOf d).text n)) ↔
      (c.compiled.export? k x = some (.definition d) →
        if c.compiled.claimant? u (w.nameOf d) = none then
          r.config.logRemovedSymbols = true ∧
            ∃ h' x' d', w.HoldsStale r.registry c.targets h' x' d' ∧ w.nameOf d' = w.nameOf d
        else w.HoldsStale r.registry c.targets k x d) := by
  obtain ⟨y, hy⟩ := hdropped.exported
  have hreported := reported_symbol_iff hlawful hw h hcapacity hu (hw.exports u y _ hy)
    hdropped.owned
  rw [hreported, export?_dropped_iff hlawful hw h hu hdropped]
  -- a name that nothing claims is to be reported, any other is to be repointed
  by_cases hnone : c.compiled.claimant? u (w.nameOf d) = none
  · simp [hnone]
  · simp [hnone]

/-- An object of a dropped type is reported exactly if it was foreseen. -/
theorem object_accounted_iff {t : TypeId} (ht : d = .type t) (o : ObjectId) :
    (((c.returned r w).object o).type = t →
        Noted c.report.events (w.unit u).name (.typeRemoved (w.nameOf d).text) ∨
          ∃ reason, Noted c.report.events (w.unit u).name
            (.retypeRejected (w.nameOf d).text reason)) ↔
      (c.compiled.successor? (typesAmong (c.compiled.ownExports u)) t ≠ none →
        (c.compiled.object o).type = t →
          (∃ v ∈ c.batch.reloaded, ∃ old new, r.Relocates w c.compiled v o old new ∧
            c.compiled.refusal? (o, new) = none) ∨
          ∃ o' old new, r.Relocates w c.compiled u o' old new ∧ w.typeName old = w.typeName t ∧
            c.compiled.refusal? (o', new) ≠ none) := by
  have hend := type_dropped_iff hlawful hw h hu hdropped ht o
  subst ht
  obtain ⟨y, hy⟩ := hdropped.exported
  have howned : (w.type t).owner = (w.unit u).name := hdropped.owned
  have htype := reported_type_iff hlawful hw h hcapacity hu ⟨y, hy⟩ howned
  have hrejection := reported_rejection_iff hlawful hw h hcapacity hu (hw.exports u y _ hy) howned
  rw [World.nameOf_type, hend, htype, hrejection]
  -- without a successor the type is reported, and with one it comes down to the moves
  by_cases hnone : c.compiled.successor? (typesAmong (c.compiled.ownExports u)) t = none
  · simp [hnone]
  · rw [or_iff_right hnone, imp_iff_right hnone, and_imp]
    exact imp_congr_right fun _ => or_iff_not_imp_left.symm

end Dropped

end Course

/-! ### The law -/

/-- **Stale references.** After a reload that keeps its whole journal, and finds objects in the heap
of its registry, what refers to a dropped definition of a unit that succeeded is accounted for
exactly if it was foreseen. -/
theorem accounted_iff {recompile : Recompiler σ} {r : Reloader} {names : List String}
    {w w' : World σ} {c : Course σ} {report : Report} {b : String} {u : UnitId} {d : Definition}
    (hlawful : recompile.Lawful) (hw : w.Sound) (henumerator : r.enumerator = .heapOf r.registry)
    (hcapacity : r.config.journalCapacity = none)
    (hcourse : r.course? recompile names w = some c)
    (hreload : r.reload recompile names w = (.ok report, w')) (hu : w.unit? r.registry b = some u)
    (hreloaded : b ∈ report.reloaded) (hdropped : w.Dropped w' u d) :
    w'.Accounted report r.registry u d ↔ r.Foreseen c w w' u d := by
  obtain ⟨rfl, rfl⟩ := eq_of_course hcourse hreload
  have hmem := (Course.mem_reloaded_report hlawful hw hcourse hu).mp hreloaded
  have hform := Course.sameForm_returned c r w
  have hframe := Session.frame_propagate c.closing c.batch.reloaded c.compiled
  have hregistry : (c.returned r w).unitsOf r.registry = c.compiled.unitsOf r.registry := by
    have hregistries : c.repaired.2.2.registries = c.compiled.registries := hframe.registries
    change (c.repaired.2.2.registries.get _).units.values = _
    rw [hregistries]
    rfl
  -- reports are told by names of before the call, and none has changed
  have hname : (c.returned r w).nameOf d = w.nameOf d :=
    (hform.nameOf d).trans (Course.nameOf_dropped hlawful hw hcourse hdropped)
  have hunit := hdropped.owned
  have hliving : ∀ t, d = .type t → ∀ o ∈ (c.returned r w).livingIn
      ((c.returned r w).registry r.registry).heap, _ :=
    fun t ht o _ => Course.object_accounted_iff hlawful hw hcourse hmem hdropped hcapacity ht o
  have hslot := Course.slot_accounted_iff hlawful hw hcourse hmem hdropped hcapacity
  constructor
  · -- slots and objects agree one by one, each with its own condition
    intro haccounted
    refine ⟨?_, ?_⟩
    · intro k hk hne hopen x
      refine (hslot k x).mp fun hx => ?_
      have hreported := haccounted.slots k (hregistry ▸ hk) hne (hform.isOpen k ▸ hopen) x hx
      rwa [hname, hunit] at hreported
    · intro t ht hsome o ho
      refine (hliving t ht o ho).mp (fun ho' => ?_) hsome
      have hreported := haccounted.objects t ht o ho ho'
      rwa [hname, hunit] at hreported
  · -- back to the three sorts of references; lists need no condition
    intro hforeseen
    refine ⟨?_, ?_, ?_⟩
    · intro k hk hne hopen x hx
      rw [hname, hunit]
      exact (hslot k x).mpr (hforeseen.slots k (hregistry ▸ hk) hne (hform.isOpen k ▸ hopen) x) hx
    · -- an ancestor list is only left if no type succeeds the old one
      intro t ht s hs hlisted
      rw [hname, hunit]
      by_cases hnone : c.compiled.successor? (typesAmong (c.compiled.ownExports u)) t = none
      · subst ht
        exact (Course.reported_type_iff hlawful hw hcourse hcapacity hmem hdropped.exported
          hdropped.owned).mpr hnone
      · have hunlisted := Course.unlisted_returned hlawful hw hcourse hmem hdropped henumerator ht
          hnone
        exact absurd hlisted (hunlisted s ((World.isAlive_iff _ _).mp hs))
    · intro t ht o ho ho'
      rw [hname, hunit]
      exact (hliving t ht o ho).mpr (fun hsome => hforeseen.objects t ht hsome o ho) ho'

open Scenario.TwoUnits

/-- The fixture with an `f` that `b` exports and `a` holds as `x`. -/
def holding : World Fixture :=
  let (f, w) := bare.newCallable ⟨"b", "f", some bare.host.b, .literal .nil, none⟩
  let w := w.setExport w.host.b "f" (.callable f)
  w.setExport w.host.a "x" (.callable f)

/-- A recompiler that copies `b.f` into slot `y` of `a` and makes `f` anew for `b`. -/
def copying : Recompiler Fixture := .onUnit "a" (.importing "b" "f" "y") (.renewing "f")

theorem lawful_copying : copying.Lawful :=
  Recompiler.lawful_onUnit "a" (Recompiler.lawful_importing "b" "f" "y")
    (Recompiler.lawful_renewing "f")

/-- The course of a reload that comes to `b` before it comes to `a`. -/
def exporterFirst : Course Fixture :=
  (reloader.course? copying ["b", "a"] holding).get (by decide +kernel)

/-- The course of a reload that comes to `a` before it comes to `b`. -/
def importerFirst : Course Fixture :=
  (reloader.course? copying ["a", "b"] holding).get (by decide +kernel)

/-- If `b` comes first then `a` copies the new `f`, and the old one was in slot `x` only, which was
recorded. -/
theorem accounted_exporter_first :
    (exporterFirst.returned reloader holding).Accounted exporterFirst.report reloader.registry
      holding.host.b (.callable ⟨0⟩) := by
  have hcourse : reloader.course? copying ["b", "a"] holding = some exporterFirst :=
    (Option.some_get _).symm
  have hgone : ∀ x, (exporterFirst.returned reloader holding).export? holding.host.b x ≠
      some (.callable ⟨0⟩) := World.export?_ne (by decide +kernel)
  -- one other unit is loaded, and one of its slots holds the old `f` when the repair starts
  have hunits : ∀ h ∈ exporterFirst.compiled.unitsOf reloader.registry, h ≠ holding.host.b →
      h = holding.host.a := by decide +kernel
  have hslots : ∀ e ∈ (exporterFirst.compiled.exports holding.host.a).entries,
      e.2 = .callable ⟨0⟩ → e.1 = "x" := by decide +kernel
  have hreload := reload_of_course hcourse
  refine (accounted_iff (b := "b") lawful_copying ?_ rfl rfl hcourse hreload ?_ ?_
    ⟨⟨"f", ?_⟩, ?_, hgone⟩).mpr ⟨?slots, fun t ht => by cases ht⟩
  case slots =>
    intro h hh hne _ x hx
    obtain rfl := hunits h hh hne
    obtain rfl := hslots (x, _) ((Table.get?_eq_some_iff _ _ _).mp hx) rfl
    rw [if_neg (by decide +kernel)]
    refine ⟨?_, ?_, ?_, ?_, holding.host.b, ?_, "f", ?_⟩ <;> decide +kernel
  all_goals decide +kernel

/-- **A late import.** If `a` comes first then it copies the old `f` after the slots were recorded.
The slot keeps it, and no event tells. -/
theorem late_import_unaccounted :
    ∃ (report : Report) (w' : World Fixture) (d : Definition),
      holding.Sound ∧ copying.Lawful ∧ reloader.enumerator = .heapOf reloader.registry ∧
      reloader.config.journalCapacity = none ∧
      reloader.reload copying ["a", "b"] holding = (.ok report, w') ∧ report.failures = [] ∧
      "b" ∈ report.reloaded ∧ holding.unit? reloader.registry "b" = some holding.host.b ∧
      holding.Dropped w' holding.host.b d ∧
      ¬ w'.Accounted report reloader.registry holding.host.b d := by
  have hcourse : reloader.course? copying ["a", "b"] holding = some importerFirst :=
    (Option.some_get _).symm
  have hgone : ∀ x, (importerFirst.returned reloader holding).export? holding.host.b x ≠
      some (.callable ⟨0⟩) := World.export?_ne (by decide +kernel)
  -- no symbol was reported as removed, so the slot that is left is not accounted for
  have hsilent : ∀ x ∈ importerFirst.report.events, x.event.isSymbolRemoved = false := by
    decide +kernel
  refine ⟨importerFirst.report, importerFirst.returned reloader holding, .callable ⟨0⟩, ?_,
    lawful_copying, rfl, rfl, reload_of_course hcourse, ?_, ?_, ?_, ⟨⟨"f", ?_⟩, ?_, hgone⟩,
    fun haccounted => ?left⟩
  case left =>
    obtain ⟨n, x, hx, -, hevent⟩ := haccounted.slots holding.host.a (by decide +kernel)
      (by decide +kernel) (by decide +kernel) "y" (by decide +kernel)
    have hremoved := hsilent x hx
    rw [hevent] at hremoved
    cases hremoved
  all_goals decide +kernel

end Reloader

end HotReload
