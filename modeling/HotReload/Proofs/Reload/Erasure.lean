import HotReload.Proofs.Reload.FixedTable
import HotReload.Proofs.Reload.Overlay

/-!
# A reload erases a wrap

Let a unit be reloaded to a table that was there before. It makes no difference whether the unit has
been wrapped just before (`Reloader.reload_erases_wrap`): what a wrap lays over the unit is stale
when it is reloaded, as the definitions below it would be, and under the same names
(`World.Overlaid.refills_iff`). The only trace of the wrap is in slots that the reload does not
refill, for it has nothing to offer for them. The reload reports the names of these.

Types and objects see the slots only through what is alive. The two repairs of types start in
twins, so they end in twins (`Reloader.Abreast.sameHierarchy_returned`).
-/

namespace HotReload

variable {σ : Type} [Host σ]

namespace World

/-! ### A table in two worlds -/

section Later

variable {w w' : World σ} {u : UnitId} {table : Table Value}

omit [Host σ]

theorem hasDefinition_of_table (htable : ∀ e ∈ table.entries, w.hasValue e.2 = true) {x : String}
    {d : Definition} (hx : table.get? x = some (.definition d)) : w.hasDefinition d = true :=
  htable (x, .definition d) ((Table.get?_eq_some_iff _ _ _).mp hx)

variable (hlater : w.Later w') (hu : u.index < w.units.size)
  (htable : ∀ e ∈ table.entries, w.hasValue e.2 = true)

include hlater hu htable

/-- What a table gives to a unit, it gives to it in every later world, if it holds nothing new. -/
theorem ownExports_replaceExports_of_later :
    (w'.replaceExports u table).ownExports u = (w.replaceExports u table).ownExports u := by
  have hform := w.sameForm_replaceExports u table
  have hform' := w'.sameForm_replaceExports u table
  rw [ownExports, ownExports, hform'.ownDefinitions, hform.ownDefinitions, hform'.unitName,
    hform.unitName, hlater.unitName u hu, exports_replaceExports_self, exports_replaceExports_self]
  refine List.filter_congr fun e he => ?_
  have hknown := hasDefinition_of_table htable (Table.mem_definitions.mp he)
  rw [owns, owns, ownerOf, ownerOf, hlater.nameOf _ hknown]

theorem claimant?_replaceExports_of_later (q : QualifiedName) :
    (w'.replaceExports u table).claimant? u q = (w.replaceExports u table).claimant? u q := by
  rw [claimant?, claimant?, ownExports_replaceExports_of_later hlater hu htable]
  refine congrArg (Option.map _) (List.find?_congr fun e he => ?_)
  have hx := ((w.replaceExports u table).mem_ownExports.mp he).1
  rw [export?, exports_replaceExports_self] at hx
  rw [(w'.sameForm_replaceExports u table).nameOf, (w.sameForm_replaceExports u table).nameOf,
    hlater.nameOf _ (hasDefinition_of_table htable hx)]

end Later

namespace Overlaid

variable {w w₁ : World σ} {r : RegistryId} {u : UnitId} {out : CallableId → CallableId}
  {table : Table Value}

/-- **The same slots are refilled** with the same definitions. -/
theorem refills_iff (h : w.Overlaid w₁ r u out) (hw : w.Sound) (hu : u.index < w.units.size)
    (htable : ∀ e ∈ table.entries, w.hasValue e.2 = true) {u' : UnitId} {x : String}
    {d : Definition} : w₁.Refills r u table u' x d ↔ w.Refills r u table u' x d := by
  have hclaim := claimant?_replaceExports_of_later h.later hu htable
  constructor
  · -- what is stale after the wrap lies over what was stale before, under the same name
    rintro ⟨d₁, hstale₁, hd⟩
    obtain ⟨d₀, hstale, hname, -⟩ := h.of_holdsStale hw hstale₁
    rw [hclaim, hname] at hd
    exact ⟨d₀, hstale, hd⟩
  · rintro ⟨d₀, hstale, hd⟩
    obtain ⟨d₁, hstale₁, hname, -⟩ := h.holdsStale hw hstale
    rw [← hclaim, ← hname] at hd
    exact ⟨d₁, hstale₁, hd⟩

/-- No type has been laid over anything, or been covered. -/
theorem export?_type_iff (h : w.Overlaid w₁ r u out) {u' : UnitId} {x : String} {t : TypeId} :
    w₁.export? u' x = some (.type t) ↔ w.export? u' x = some (.type t) := by
  refine ⟨fun hx => ?_, fun hx => h.export?_of_notOwn hx nofun⟩
  by_contra hne
  have hchanged : w₁.export? u' x ≠ w.export? u' x := fun heq => hne (heq ▸ hx)
  obtain ⟨c, -, -, -, hnew, -⟩ := h.written u' x hchanged
  cases hx.symm.trans hnew

end Overlaid

end World

namespace Reloader

namespace Course

variable {recompile : Recompiler σ} {r : Reloader} {names : List String} {w : World σ}
  {c : Course σ} {u : UnitId} {table : Table Value}

/-- The old types of the one target are those that it owned and exported. -/
theorem ownTypes_installed (hcourse : r.course? recompile names w = some c)
    (hinstalled : c.Installed u table) {v : World σ} (hform : w.SameForm v) :
    c.closing.snapshot.ownTypes v (w.unit u).name = (typesAmong (w.ownExports u)).eraseDups := by
  have hcaptured := (opened_installed hcourse hinstalled).capture_eq
  have htable : c.closing.snapshot.exports? (w.unit u).name = some (w.exports u) :=
    Snapshot.exports?_eq_some hcaptured (List.nodup_singleton _) (List.mem_singleton_self u)
  rw [Snapshot.ownTypes_of_sameForm hform, Snapshot.ownTypes, htable]
  rfl

end Course

/-! ### Two reloads to one table -/

/-- **Abreast.** Two reloads of `u` to one table, the second one in a world with something laid over
that of the first one. -/
structure Abreast (recompile : Recompiler σ) (r : Reloader) (names : List String) (u : UnitId)
    (table : Table Value) (out : CallableId → CallableId) (w w₁ : World σ) (c c₁ : Course σ) :
    Prop where
  sound : w.Sound
  overlaid : w.Overlaid w₁ r.registry u out
  enumerated : r.enumerated w₁ = r.enumerated w
  known : ∀ e ∈ table.entries, w.hasValue e.2 = true
  course : r.course? recompile names w = some c
  course₁ : r.course? recompile names w₁ = some c₁
  installed : c.Installed u table
  installed₁ : c₁.Installed u table

namespace Abreast

variable {recompile : Recompiler σ} {r : Reloader} {names : List String} {u : UnitId}
  {table : Table Value} {out : CallableId → CallableId} {w w₁ : World σ} {c c₁ : Course σ}
  (h : Abreast recompile r names u table out w w₁ c c₁)

include h

theorem index_lt : u.index < w.units.size :=
  (Course.target_registered h.sound h.course
    (h.installed.targets ▸ List.mem_singleton_self u)).1

/-! ### Slots -/

/-- **Slots in the end.** A slot that differs has not been refilled, and it shows what has been laid
over its callable. -/
theorem export?_of_ne {u' : UnitId} {x : String}
    (hdiffers : (c₁.returned r w₁).export? u' x ≠ (c.returned r w).export? u' x) :
    ∃ d, w.HoldsStale r.registry [u] u' x (.callable d) ∧
      (w.callable d).owner = (w.unit u).name ∧
      (w.replaceExports u table).claimant? u (w.callableName d) = none ∧
      (c.returned r w).export? u' x = some (.callable d) ∧
      (c₁.returned r w₁).export? u' x = some (.callable (out d)) := by
  have hiff : ∀ d, w₁.Refills r.registry u table u' x d ↔ w.Refills r.registry u table u' x d :=
    fun _ => h.overlaid.refills_iff h.sound h.index_lt h.known
  -- a slot that one of the reloads refills gets the same value from both
  have hrefills : ∀ d, ¬ w.Refills r.registry u table u' x d := by
    intro d hd
    refine hdiffers ?_
    rw [Course.export?_of_refills h.course h.installed hd,
      Course.export?_of_refills h.course₁ h.installed₁ ((hiff d).mpr hd)]
  -- so it is what each found when it was called, or an entry of the table
  have hend := Course.export?_of_not_refills h.course h.installed hrefills
  have hend₁ := Course.export?_of_not_refills h.course₁ h.installed₁
    fun d hd => hrefills d ((hiff d).mp hd)
  have hslot : ∀ v : World σ, (v.replaceExports u table).export? u' x =
      if u' = u then table.get? x else v.export? u' x := by
    intro v
    rw [World.export?, World.exports_replaceExports]
    split <;> rfl
  rw [hslot] at hend hend₁
  by_cases hother : u' = u
  · rw [if_pos hother] at hend hend₁
    exact absurd (hend₁.trans hend.symm) hdiffers
  · -- the slot was written before the second reload, and not since
    rw [if_neg hother] at hend hend₁
    rw [hend, hend₁] at hdiffers
    obtain ⟨d, y, hd, hold, hnew, himports⟩ := h.overlaid.written u' x hdiffers
    have hu : u ∈ c.targets := h.installed.targets ▸ List.mem_singleton_self u
    have hstale : w.HoldsStale r.registry [u] u' x (.callable d) :=
      (himports hother).holdsStale h.sound (List.mem_singleton_self u)
        (Course.mem_unitsOf_of_target h.sound h.course hu)
    refine ⟨d, hstale, (World.mem_ownExports_callable.mp hd).2, ?_, hend.trans hold,
      hend₁.trans hnew⟩
    rw [Option.eq_none_iff_forall_ne_some]
    exact fun d' hd' => hrefills d' ⟨.callable d, hstale, hd'⟩

/-- What slots refer to in the end is the same, for callables are no nodes. -/
theorem nodes_export? (u' : UnitId) (x : String) :
    ((c₁.returned r w₁).export? u' x).map Value.nodes =
      ((c.returned r w).export? u' x).map Value.nodes := by
  by_cases hsame : (c₁.returned r w₁).export? u' x = (c.returned r w).export? u' x
  · rw [hsame]
  · obtain ⟨d, -, -, -, hold, hnew⟩ := h.export?_of_ne hsame
    rw [hold, hnew]
    rfl

/-! ### What the sessions record -/

/-- The same objects are recorded, with the same types. -/
theorem objects_eq : c₁.session.objects = c.session.objects := by
  have hobject : w₁.object = w.object := funext h.overlaid.twins.object
  -- the wrap replaces callables only, so the same types are stale in both
  have hstale : ∀ t, c₁.session.snapshot.isStale (.type t) =
      c.session.snapshot.isStale (.type t) := by
    intro t
    have hcaptured := (Course.opened_installed h.course h.installed).capture_eq
    have hcaptured₁ := (Course.opened_installed h.course₁ h.installed₁).capture_eq
    have hexported : (∃ t' ∈ [u], ∃ y, w₁.export? t' y = some (.type t)) ↔
        ∃ t' ∈ [u], ∃ y, w.export? t' y = some (.type t) := by
      simp only [h.overlaid.export?_type_iff]
    exact Bool.eq_iff_iff.mpr ((Snapshot.isStale_iff hcaptured₁ (.type t)).trans
      (hexported.trans (Snapshot.isStale_iff hcaptured (.type t)).symm))
  rw [Course.objects_eq h.overlaid.sound h.course₁, Course.objects_eq h.sound h.course,
    h.enumerated, Session.staleObjects, Session.staleObjects, hobject]
  exact List.filter_congr fun e _ => hstale e.type

/-- The two sessions hold on to the same. -/
theorem mem_held_iff (n : Node) : n ∈ c₁.targets.map .unit ++ c₁.session.nodes ↔
    n ∈ c.targets.map .unit ++ c.session.nodes := by
  rw [Course.mem_held_iff h.course h.installed, Course.mem_held_iff h.course₁ h.installed₁,
    h.overlaid.twins.slots, h.objects_eq]
  -- units, roots and objects are shared; left are the definitions that slots hold
  refine or_congr_right (or_congr_right (or_congr_left ?_))
  constructor
  · rintro ⟨u', x, d, hstale, hn⟩
    obtain ⟨d₀, hstale₀, -, hnodes⟩ := h.overlaid.of_holdsStale h.sound hstale
    exact ⟨u', x, d₀, hstale₀, hnodes ▸ hn⟩
  · rintro ⟨u', x, d, hstale, hn⟩
    obtain ⟨d₁, hstale₁, -, hnodes⟩ := h.overlaid.holdsStale h.sound hstale
    exact ⟨u', x, d₁, hstale₁, hnodes ▸ hn⟩

theorem ownTypes_eq : c₁.closing.snapshot.ownTypes (c₁.compiled.withBindings c₁.closing u).1
    (w.unit u).name =
      c.closing.snapshot.ownTypes (c.compiled.withBindings c.closing u).1 (w.unit u).name := by
  have hform := (Course.sameForm_installed h.course h.installed).trans
    (World.sameForm_withBindings _ c.closing u)
  have hform₁ := (Course.sameForm_installed h.course₁ h.installed₁).trans
    (World.sameForm_withBindings _ c₁.closing u)
  rw [Course.ownTypes_installed h.course h.installed hform,
    ← h.overlaid.later.unitName u h.index_lt,
    Course.ownTypes_installed h.course₁ h.installed₁ hform₁, h.overlaid.ownTypes]

theorem ownExports_eq : c₁.compiled.ownExports u = c.compiled.ownExports u := by
  rw [Course.ownExports_installed h.course h.installed,
    Course.ownExports_installed h.course₁ h.installed₁]
  exact World.ownExports_replaceExports_of_later h.overlaid.later h.index_lt h.known

/-! ### Types and objects -/

theorem twins_opened : c.opened.Twins c₁.opened := by
  obtain ⟨heaps, guards, heq⟩ := Course.opened_eq_pin h.course
  obtain ⟨heaps₁, guards₁, heq₁⟩ := Course.opened_eq_pin h.course₁
  rw [heq, heq₁]
  exact ((h.overlaid.twins.pin fun _ => Iff.rfl).pin h.mem_held_iff).putHeapsGuards _ _ _ _

/-- **The repairs of types start in twins**: up to there tables are written, and the same nodes are
pinned. -/
theorem twins_withBindings : (c.compiled.withBindings c.closing u).1.Twins
    (c₁.compiled.withBindings c₁.closing u).1 := by
  -- a wrapper and what it wraps have the same nodes, so slots lead to the same types
  have hslots : ∀ u' x,
      ((c₁.compiled.withBindings c₁.closing u).1.export? u' x).map Value.nodes =
        ((c.compiled.withBindings c.closing u).1.export? u' x).map Value.nodes := by
    intro u' x
    rw [Course.export?_withBindings (r := r) (w := w) h.installed,
      Course.export?_withBindings (r := r) (w := w₁) h.installed₁]
    exact h.nodes_export? u' x
  have hkept : c₁.compiled.keptFor u = c.compiled.keptFor u := by
    rw [World.keptFor, h.ownExports_eq, World.keptFor]
  have hsize := Course.size_units_installed h.course h.installed h.sound
  have hsize₁ := Course.size_units_installed h.course₁ h.installed₁ h.overlaid.sound
  obtain ⟨units, heq, hunits⟩ := c.compiled.withBindings_eq c.closing u
  obtain ⟨units₁, heq₁, hunits₁⟩ := c₁.compiled.withBindings_eq c₁.closing u
  have hpinned : (c.opened.pin (c.compiled.keptFor u)).Twins
      (c₁.opened.pin (c₁.compiled.keptFor u)) := h.twins_opened.pin fun _ => hkept ▸ Iff.rfl
  rw [heq, heq₁, h.installed.compiled, h.installed₁.compiled] at hslots ⊢
  rw [h.installed.compiled, h.installed₁.compiled] at hpinned
  exact hpinned.putUnits (hunits.trans hsize) (hunits₁.trans hsize₁) hslots

/-- **They end in twins**, so ancestor lists and the types of objects agree. -/
theorem sameHierarchy_returned : (c.returned r w).SameHierarchy (c₁.returned r w₁) := by
  have hunit := (Course.sameForm_installed h.course h.installed).unitName u
  have hunit₁ := ((Course.sameForm_installed h.course₁ h.installed₁).unitName u).trans
    (h.overlaid.later.unitName u h.index_lt)
  have hobjects : ∀ t, c₁.closing.objectsOf t = c.closing.objectsOf t := by
    intro t
    show (c₁.session.objects.filter _).map _ = (c.session.objects.filter _).map _
    rw [h.objects_eq]
  -- from here both repairs treat the same types, with the same objects, in the same order
  have htwins := h.twins_withBindings.repairTypes (w.unit u).name
    (typesAmong (c.compiled.ownExports u)) h.ownTypes_eq hobjects
  have hrepaired := Course.repaired_eq h.installed
  have hrepaired₁ := Course.repaired_eq h.installed₁
  rw [World.repair_eq, hunit] at hrepaired
  rw [World.repair_eq, hunit₁, h.ownExports_eq] at hrepaired₁
  refine ⟨fun t => ?_, fun o => ?_⟩
  · show c₁.repaired.2.2.ancestors t = c.repaired.2.2.ancestors t
    rw [hrepaired, hrepaired₁]
    exact htwins.types.ancestors t
  · show (c₁.repaired.2.2.object o).type = (c.repaired.2.2.object o).type
    rw [hrepaired, hrepaired₁]
    exact congrArg Object.type (htwins.object o)

end Abreast

/-- **A reload erases an earlier wrap.** Let `u` be a loaded unit that shows its exports, whose own
definitions are named apart, and let a fresh and discreet wrapper be given. In replacing mode, with
removed symbols logged in a journal without a capacity, let the recompiler return a table that holds
nothing new. Then a wrap of `u` that is followed by a reload of `u` ends with the same ancestor
lists and types of objects as the reload alone, and with the same slots, but for slots that the
reload alone leaves with a callable of `u` whose name it reports as removed. -/
theorem reload_erases_wrap {wrapper : Wrapper σ} {options : WrapOptions} {r : Reloader}
    {name : String} {u : UnitId} {table : Table Value} {w : World σ} (hw : w.Sound)
    (hwrapper : wrapper.Discreet) (hfresh : wrapper.Fresh) (hidle : w.isHeld r.guard = false)
    (hconfig : r.config.fault? = none) (hmode : r.config.installMode = .replace)
    (hlog : r.config.logRemovedSymbols = true) (hcapacity : r.config.journalCapacity = none)
    (hfinds : r.enumerator.Finds w) (hname : w.unit? r.registry name = some u)
    (hopen : w.isOpen u = true) (hapart : w.NamedApart u)
    (htable : ∀ e ∈ table.entries, w.hasValue e.2 = true) :
    ∃ wrapped w₁ again w₂ report w',
      r.wrap wrapper options [name] w = (.ok wrapped, w₁) ∧
      r.reload (.constant table) [name] w₁ = (.ok again, w₂) ∧
      r.reload (.constant table) [name] w = (.ok report, w') ∧
      (∀ h x, w₂.export? h x = w'.export? h x ∨
        ∃ c, w.export? h x = some (.callable c) ∧ w'.export? h x = some (.callable c) ∧
          (w.callable c).owner = (w.unit u).name ∧
          ∃ n, Noted report.events (w.unit u).name
            (.symbolRemoved (w.callableName c).text n)) ∧
      (∀ t, w₂.ancestors t = w'.ancestors t) ∧
      ∀ o, (w₂.object o).type = (w'.object o).type := by
  obtain ⟨wrapped, w₁, out, hwrap, hoverlaid, hidle₁, hfound⟩ := exists_overlaid options hw hwrapper
    hfresh hidle hconfig hfinds hname hopen hapart
  have hlt := (hw.registered r.registry name u hname).1
  obtain ⟨c, hcourse, hinstalled⟩ := exists_installed table hidle hconfig hmode hname hopen
  -- the wrap has released its guard and sealed no unit, so the second reload opens as well
  obtain ⟨c₁, hcourse₁, hinstalled₁⟩ := exists_installed table hidle₁ hconfig hmode
    ((hoverlaid.unit? r.registry name).trans hname) ((hoverlaid.later.isOpen hlt).trans hopen)
  have habreast : Abreast (.constant table) r [name] u table out w w₁ c c₁ :=
    ⟨hw, hoverlaid, hfound, htable, hcourse, hcourse₁, hinstalled, hinstalled₁⟩
  refine ⟨wrapped, w₁, c₁.report, c₁.returned r w₁, c.report, c.returned r w, hwrap,
    reload_of_course hcourse₁, reload_of_course hcourse, fun h x => or_iff_not_imp_left.mpr ?_,
    habreast.sameHierarchy_returned.ancestors, habreast.sameHierarchy_returned.objectType⟩
  intro hdiffers
  obtain ⟨d, hstale, howner, hclaim, hheld, -⟩ := habreast.export?_of_ne hdiffers
  exact ⟨d, hstale.held, hheld, howner, Course.reported_of_unclaimed hcourse hinstalled hw hlog
    hcapacity hstale howner hclaim⟩

open Scenario.TwoUnits

/-- Unit `b` exports two callables and a type, and `a` imports all three and derives a type from
that of `b`. There are other definitions for the first callable and the type, which no unit exports.
-/
def outgrown : World Fixture :=
  let (f, w) := bare.newCallable ⟨"b", "f", some ⟨0⟩, .literal .nil, none⟩
  let (g, w) := w.newCallable ⟨"b", "g", some ⟨0⟩, .literal .nil, none⟩
  let (c, w) := w.declareType ⟨"b", "C", ⟨0⟩, .dynamic, [], [], .ofList [("m", ⟨f, .onObject⟩)]⟩ []
  let (d, w) := w.declareType ⟨"a", "D", ⟨1⟩, .dynamic, [], [], .empty⟩ [c]
  let (_, w) := w.newObject c
  let w := w.replaceExports ⟨0⟩
    (.ofList [("f", .callable f), ("g", .callable g), ("h", .callable f), ("C", .type c)])
  let w := w.replaceExports ⟨1⟩
    (.ofList [("f", .callable f), ("g", .callable g), ("C", .type c), ("D", .type d),
      ("obj", .object ⟨0⟩)])
  let w := (w.newCallable ⟨"b", "f", some ⟨0⟩, .literal .nil, none⟩).2
  (w.declareType ⟨"b", "C", ⟨0⟩, .dynamic, [], [], .empty⟩ []).2

/-- The other definitions, which the recompiler returns. -/
def outgrowth : Table Value := .ofList [("f", .callable ⟨2⟩), ("C", .type ⟨2⟩)]

/-- A reloader over the fixture that replaces tables. -/
def overwriting : Reloader :=
  { reloader with config := { Config.standard with installMode := .replace } }

/-- One slot shows the wrap in the end: the callable in it has no successor. -/
theorem reload_erases_wrap_outgrown :
    ∃ wrapped w₁ again w₂ report w',
      overwriting.wrap (appending "!") .all ["b"] outgrown = (.ok wrapped, w₁) ∧
      overwriting.reload (.constant outgrowth) ["b"] w₁ = (.ok again, w₂) ∧
      overwriting.reload (.constant outgrowth) ["b"] outgrown = (.ok report, w') ∧
      w₁.export? ⟨1⟩ "f" = some (.callable ⟨3⟩) ∧ w₂.export? ⟨1⟩ "f" = some (.callable ⟨2⟩) ∧
      w₂.export? ⟨1⟩ "g" = some (.callable ⟨4⟩) ∧ w'.export? ⟨1⟩ "g" = some (.callable ⟨1⟩) ∧
      (∀ h x, w₂.export? h x = w'.export? h x ∨
        ∃ c, outgrown.export? h x = some (.callable c) ∧ w'.export? h x = some (.callable c) ∧
          (outgrown.callable c).owner = "b" ∧
          ∃ n, Noted report.events "b" (.symbolRemoved (outgrown.callableName c).text n)) ∧
      w₂.ancestors ⟨1⟩ = [⟨2⟩] ∧ (∀ t, w₂.ancestors t = w'.ancestors t) ∧
      ∀ o, (w₂.object o).type = (w'.object o).type := by
  have hf₁ : (overwriting.wrap (appending "!") .all ["b"] outgrown).2.export? ⟨1⟩ "f" =
      some (.callable ⟨3⟩) := by decide +kernel
  have hafter : ((overwriting.reload (.constant outgrowth) ["b"]
      (overwriting.wrap (appending "!") .all ["b"] outgrown).2).2.export? ⟨1⟩ "f" =
        some (.callable ⟨2⟩)) ∧ ((overwriting.reload (.constant outgrowth) ["b"]
      (overwriting.wrap (appending "!") .all ["b"] outgrown).2).2.export? ⟨1⟩ "g" =
        some (.callable ⟨4⟩)) ∧ (overwriting.reload (.constant outgrowth) ["b"]
      (overwriting.wrap (appending "!") .all ["b"] outgrown).2).2.ancestors ⟨1⟩ = [⟨2⟩] := by
    decide +kernel
  have hg : (overwriting.reload (.constant outgrowth) ["b"] outgrown).2.export? ⟨1⟩ "g" =
      some (.callable ⟨1⟩) := by decide +kernel
  obtain ⟨wrapped, w₁, again, w₂, report, w', hwrap, hagain, hreload, hslots, hancestors, htypes⟩ :=
    @reload_erases_wrap _ _ (appending "!") .all overwriting "b" ⟨0⟩ outgrowth outgrown
      (by decide +kernel) (discreet_appending "!") Wrapper.fresh_of_newCallable (by decide +kernel)
      rfl rfl rfl rfl trivial (by decide +kernel) (by decide +kernel) (by decide +kernel)
      (by decide +kernel)
  rw [hwrap] at hf₁ hafter
  rw [hagain] at hafter
  rw [hreload] at hg
  exact ⟨wrapped, w₁, again, w₂, report, w', hwrap, hagain, hreload, hf₁, hafter.1, hafter.2.1, hg,
    hslots, hafter.2.2, hancestors, htypes⟩

end Reloader

end HotReload
