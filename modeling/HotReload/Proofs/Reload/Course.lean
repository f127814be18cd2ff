import HotReload.Proofs.Reload.Attempts
import HotReload.Proofs.Reload.ExportSlots
import HotReload.Proofs.World.Operations

/-!
# The course of a reload

A reload opens a session, runs its batch and repairs references. What it does is told best by the
worlds in between: the one in which the batch starts, and the one in which the repair starts. The
**course** of a reload (`Reloader.Course`) is a record of them, and of what the reload has at hand
when the repair starts.

A reload that returns a report has a course (`Reloader.exists_course`), and its report and its last
world are those of the course (`Reloader.reload_of_course`). So a statement about a reload can speak
of every stage of it.

As long as the recompiler is lawful, the worlds of a course are sound, each later than the one
before it, and the targets stay pinned (`Reloader.Course.compiled_lawful`).
-/

namespace HotReload

variable {σ : Type} [Host σ]

namespace Reloader

/-- The **course** of a reload: its targets and its session, the world in which the batch starts,
the batch at its end, the world in which the repair starts and the journal by then. -/
structure Course (σ : Type) where
  targets : List UnitId
  session : Session
  opened : World σ
  batch : Batch
  compiled : World σ
  journal : Journal

/-- The world that a reload finds: its guard is taken, and what it works on is pinned. -/
def entered (r : Reloader) (w : World σ) : World σ := (w.putGuard r.guard true).pin r.nodes

/-- The course of a reload, if it is not refused. -/
def course? (recompile : Recompiler σ) (r : Reloader) (names : List String) (w : World σ) :
    Option (Course σ) :=
  if w.isHeld r.guard then none
  else
    match r.prepare names (r.entered w) with
    | (.error _, _) => none
    | (.ok (us, s), v) =>
      let v := v.pin (us.map .unit ++ s.nodes)
      let (b, v', journal) :=
        Batch.run (r.workshop recompile) r.config.retryBudget (us.map fun u => (u, (v.unit u).name))
          (v, s.journal)
      some ⟨us, s, v, b, v', journal⟩

namespace Course

/-- The units of the batch of a course. -/
def units (c : Course σ) : List (UnitId × String) :=
  c.targets.map fun u => (u, (c.opened.unit u).name)

/-- The session at the end of the batch. -/
def closing (c : Course σ) : Session := { c.session with journal := c.journal }

/-- The session with another journal. -/
def journaled (c : Course σ) (journal : Journal) : Session := { c.session with journal := journal }

/-- What the repair of the references to the units that succeeded comes to. -/
def repaired (c : Course σ) : Session × Stats × World σ :=
  c.closing.propagate c.batch.reloaded c.compiled

/-- The report. -/
def report (c : Course σ) : Report :=
  Reloader.report c.repaired.1 (namesOf c.repaired.2.2 c.batch.reloaded) c.batch.failures
    c.repaired.2.1

/-- The world when the reload of `w` has returned. -/
def returned (c : Course σ) (r : Reloader) (w : World σ) : World σ :=
  { c.repaired.2.2 with pins := w.pins }.putGuard r.guard false

end Course

/-! ### A reload and its course -/

/-- **A reload with a course returns its report**, and leaves the world in which the course ends. -/
theorem reload_of_course {recompile : Recompiler σ} {r : Reloader} {names : List String}
    {w : World σ} {c : Course σ} (h : r.course? recompile names w = some c) :
    r.reload recompile names w = (.ok c.report, c.returned r w) := by
  unfold course? at h
  split at h
  · cases h
  · -- a course exists only where the guard is free
    next hheld =>
    split at h
    · cases h
    · next us s v hprepare =>
      cases h
      unfold entered at hprepare
      simp only [reload, inSession, guarded, hheld, World.holding, hprepare]
      rfl

/-- So what it returns is what its course comes to. -/
theorem eq_of_course {recompile : Recompiler σ} {r : Reloader} {names : List String}
    {w w' : World σ} {c : Course σ} {report : Report} (h : r.course? recompile names w = some c)
    (hreload : r.reload recompile names w = (.ok report, w')) :
    c.report = report ∧ c.returned r w = w' := by
  rw [reload_of_course h, Prod.mk.injEq, Except.ok.injEq] at hreload
  exact hreload

/-- A reload that is not refused has a course. -/
theorem exists_course {recompile : Recompiler σ} {r : Reloader} {names : List String}
    {w w' : World σ} {report : Report} (h : r.reload recompile names w = (.ok report, w')) :
    ∃ c, r.course? recompile names w = some c ∧ c.report = report ∧ c.returned r w = w' := by
  cases hc : r.course? recompile names w with
  | some c => exact ⟨c, rfl, eq_of_course hc h⟩
  | none =>
    -- without a course the guard was taken or the preparation failed, and no report is returned
    unfold course? at hc
    split at hc
    · next hheld =>
      simp only [reload, inSession, guarded, hheld] at h
      cases h
    · next hheld =>
      split at hc
      · next e v hprepare =>
        unfold entered at hprepare
        simp only [reload, inSession, guarded, hheld, World.holding, hprepare] at h
        cases h
      · cases hc

/-! ### The stages -/

/-- What is done up to the start of the batch. -/
theorem prepare_eq_ok {r : Reloader} {names : List String} {w v : World σ} {us : List UnitId}
    {s : Session} (h : r.prepare names w = (.ok (us, s), v)) :
    r.config.fault? = none ∧ targets w r.registry names = .ok us ∧
      Session.start w us r.registry r.enumerator r.config = (.ok s, v) := by
  -- each of the three steps can end the preparation with an error
  unfold prepare at h
  split at h
  · cases h
  · next hfault =>
    split at h
    · cases h
    · next us' htargets =>
      split at h
      · cases h
      · next s' v' hstart =>
        obtain ⟨hs, rfl⟩ := Prod.mk.inj h
        rw [Except.ok.injEq, Prod.mk.injEq] at hs
        obtain ⟨rfl, rfl⟩ := hs
        exact ⟨hfault, htargets, hstart⟩

/-- The stages of a course: preparation, pins, batch. -/
theorem course?_eq_some {recompile : Recompiler σ} {r : Reloader} {names : List String}
    {w : World σ} {c : Course σ} (h : r.course? recompile names w = some c) :
    ∃ v, r.prepare names (r.entered w) = (.ok (c.targets, c.session), v) ∧
      c.opened = v.pin (c.targets.map .unit ++ c.session.nodes) ∧
      Batch.run (r.workshop recompile) r.config.retryBudget c.units
        (c.opened, c.session.journal) = (c.batch, c.compiled, c.journal) := by
  unfold course? at h
  split at h
  · cases h
  · split at h
    · cases h
    · next us s v hprepare =>
      cases h
      exact ⟨v, hprepare, rfl, rfl⟩

omit [Host σ] in
/-- Guards and pins are no concern of cells. -/
theorem sound_entered {w : World σ} (hw : w.Sound) (r : Reloader) : (r.entered w).Sound :=
  hw.of_stores rfl rfl rfl (Nat.le_refl _) (Nat.le_refl _)

omit [Host σ] in
/-- Taking the guard changes nothing that a world holds. -/
theorem later_entered (w : World σ) (r : Reloader) : (r.entered w).Later w :=
  World.later_of_stores rfl rfl rfl (Nat.le_refl _)

omit [Host σ] in
/-- Targets are looked up in the registry. -/
theorem targets_of_registries {w v : World σ} (h : v.registries = w.registries) (r : RegistryId)
    (names : List String) : targets v r names = targets w r names := by
  induction names with
  | nil => rfl
  | cons name names ih =>
    rw [targets, targets, ih, World.unit?, World.unit?, World.registry, h]
    rfl

/-- A reload is not refused if its configuration has no fault, its guard is free, and its names are
those of units that show their exports. -/
theorem exists_course_of_open (recompile : Recompiler σ) {r : Reloader} {names : List String}
    {w : World σ} {us : List UnitId} (hidle : w.isHeld r.guard = false)
    (hconfig : r.config.fault? = none) (htargets : targets w r.registry names = .ok us)
    (hopen : ∀ u ∈ us, w.isOpen u = true) :
    ∃ c, r.course? recompile names w = some c ∧ c.targets = us := by
  obtain ⟨s, v, hstart⟩ :=
    Session.exists_start (w := r.entered w) hopen r.registry r.enumerator r.config
  -- everything that could refuse the call has been excluded
  have hprepare : r.prepare names (r.entered w) = (.ok (us, s), v) := by
    simp only [prepare, hconfig,
      targets_of_registries (w := w) (v := r.entered w) rfl r.registry names, htargets, hstart]
  unfold course?
  rw [hidle, if_neg Bool.false_ne_true, hprepare]
  exact ⟨_, rfl, rfl⟩

omit [Host σ] in
/-- One name leads to one target. -/
theorem targets_singleton {w : World σ} {r : RegistryId} {name : String} {u : UnitId}
    (hu : w.unit? r name = some u) : targets w r [name] = .ok [u] := by
  simp only [targets, hu]
  rfl

omit [Host σ] in
/-- The targets are the units of the names, each of them once. -/
theorem mem_targets {w : World σ} {r : RegistryId} {names : List String} {us : List UnitId}
    (h : targets w r names = .ok us) :
    us.Nodup ∧ ∀ u, u ∈ us ↔ ∃ name ∈ names, w.unit? r name = some u := by
  induction names generalizing us with
  | nil =>
    cases h
    simp
  | cons name names ih =>
    rw [targets] at h
    cases hu : w.unit? r name with
    | none =>
      rw [hu] at h
      cases h
    | some u =>
      cases hrest : targets w r names with
      | error e =>
        rw [hu, hrest] at h
        cases h
      | ok vs =>
        rw [hu, hrest] at h
        obtain ⟨hnodup, hmem⟩ := ih hrest
        cases h
        -- later occurrences of a target are filtered out, so its first one counts
        refine ⟨List.nodup_cons.mpr ⟨by simp, hnodup.filter _⟩, fun v => ?_⟩
        rw [List.mem_cons, List.mem_filter, List.exists_mem_cons_iff, hu, ← hmem,
          Option.some.injEq]
        by_cases hv : v = u
        · simp [hv]
        · simp [hv, Ne.symm hv]

namespace Course

variable {recompile : Recompiler σ} {r : Reloader} {names : List String} {w : World σ}
  {c : Course σ}

/-- The targets of a course are those of the names. -/
theorem targets_eq (h : r.course? recompile names w = some c) :
    Reloader.targets w r.registry names = .ok c.targets := by
  obtain ⟨_, hprepare, -⟩ := course?_eq_some h
  have hentered : Reloader.targets (r.entered w) r.registry names =
      Reloader.targets w r.registry names :=
    targets_of_registries (v := r.entered w) (w := w) rfl _ _
  exact hentered.symm.trans (prepare_eq_ok hprepare).2.1

/-- The session of a course was started in the world that the reload had entered. -/
theorem session_started (h : r.course? recompile names w = some c) :
    ∃ v, Session.start (r.entered w) c.targets r.registry r.enumerator r.config =
        (.ok c.session, v) ∧
      c.opened = v.pin (c.targets.map .unit ++ c.session.nodes) := by
  obtain ⟨v, hprepare, hopened, -⟩ := course?_eq_some h
  exact ⟨v, (prepare_eq_ok hprepare).2.2, hopened⟩

/-- Up to the start of the batch only heaps, guards and pins are written. -/
theorem opened_eq (h : r.course? recompile names w = some c) :
    ∃ heaps guards pins, c.opened = { w with heaps := heaps, guards := guards, pins := pins } := by
  obtain ⟨v, hstart, hopened⟩ := session_started h
  obtain ⟨-, -, -, -, heaps, rfl⟩ := Session.opened_of_start hstart
  exact ⟨heaps, _, _, hopened⟩

/-- A unit of the batch is named as in the world of the call. -/
theorem name_opened (h : r.course? recompile names w = some c) (u : UnitId) :
    (c.opened.unit u).name = (w.unit u).name := by
  obtain ⟨heaps, guards, pins, heq⟩ := opened_eq h
  rw [heq]
  rfl

/-- What was pinned before the call is pinned during the batch, and so are the targets. -/
theorem pins_opened (h : r.course? recompile names w = some c) :
    (∀ n, w.pins.contains n = true → c.opened.pins.contains n = true) ∧
      ∀ u ∈ c.targets, c.opened.pins.contains (.unit u) = true := by
  obtain ⟨v, hstart, hopened⟩ := session_started h
  obtain ⟨-, -, -, -, heaps, rfl⟩ := Session.opened_of_start hstart
  rw [hopened]
  refine ⟨fun n hn => ?_, fun u hu => ?_⟩
  · -- pins are only ever added on the way
    refine (World.contains_pins_pin _ _ _).mpr (.inr ?_)
    exact (World.contains_pins_pin _ _ _).mpr (.inr hn)
  · refine (World.contains_pins_pin _ _ _).mpr (.inl ?_)
    exact List.mem_append_left _ (List.mem_map_of_mem hu)

/-- The session of a course is a session on its targets, opened in the world that the reload was
called in. -/
theorem opened_session (h : r.course? recompile names w = some c) :
    c.closing.Opened w c.targets r.registry := by
  obtain ⟨v, hstart, -⟩ := session_started h
  obtain ⟨hopened, -⟩ := Session.opened_of_start hstart
  exact (hopened.of_guards_pins (w := w)).of_journal

/-- Nothing that a session records depends on its journal. -/
theorem opened_journaled (h : r.course? recompile names w = some c) (journal : Journal) :
    (c.journaled journal).Opened w c.targets r.registry :=
  (opened_session h).of_journal

/-- The targets of a course are those of its call. -/
theorem mem_targets (h : r.course? recompile names w = some c) :
    c.targets.Nodup ∧ ∀ u, u ∈ c.targets ↔ ∃ name ∈ names, w.unit? r.registry name = some u := by
  obtain ⟨v, hprepare, -⟩ := course?_eq_some h
  have hmem := Reloader.mem_targets (prepare_eq_ok hprepare).2.1
  exact hmem

omit [Host σ] in
/-- The units of the batch are the targets of the call. -/
theorem map_fst_units (c : Course σ) : c.units.map (·.1) = c.targets := by
  rw [units, List.map_map]
  exact List.map_id _

/-- Targets are named once. -/
theorem nodup_units (h : r.course? recompile names w = some c) : (c.units.map (·.1)).Nodup :=
  map_fst_units c ▸ (mem_targets h).1

/-- Units that succeed are targets, and each succeeds once. -/
theorem mem_reloaded (h : r.course? recompile names w = some c) :
    c.batch.reloaded.Nodup ∧ ∀ u ∈ c.batch.reloaded, u ∈ c.targets := by
  obtain ⟨v, -, -, hrun⟩ := course?_eq_some h
  constructor
  · have hnodup := Batch.nodup_reloaded (r.workshop recompile) r.config.retryBudget (nodup_units h)
      (c.opened, c.session.journal)
    rwa [hrun] at hnodup
  · intro u hu
    rw [← map_fst_units]
    refine Batch.mem_of_mem_reloaded (r.workshop recompile) r.config.retryBudget
      (s := (c.opened, c.session.journal)) ?_
    rw [hrun]
    exact hu

/-! ### Lawful recompilers -/

omit [Host σ] in
/-- What a lawful recompiler and the installation of its tables keep. -/
theorem keeps_workshop (hlawful : recompile.Lawful) (units : List UnitId) (v : World σ) :
    (r.workshop recompile).Keeps units
      fun s => s.1.Sound ∧ v.Later s.1 ∧ s.1.pins = v.pins where
  note _ _ _ _ hs := hs
  compile u _ s hs :=
    ⟨hlawful.sound u r.registry s.1 hs.1, hs.2.1.trans (hlawful.later u r.registry s.1 hs.1),
      (hlawful.pins u r.registry s.1).trans hs.2.2⟩
  install u _ s table hs htable := by
    -- the table holds nothing that does not exist, so its installation keeps the world sound
    have hvalues := hlawful.table u r.registry s.1 table hs.1 htable
    have hsound := World.sound_install (hlawful.sound u r.registry s.1 hs.1) r.config.installMode u
      hvalues
    have hlater := hs.2.1.trans ((hlawful.later u r.registry s.1 hs.1).trans
      (World.later_install _ r.config.installMode u table))
    have hpins := (hlawful.pins u r.registry s.1).trans hs.2.2
    exact ⟨hsound, hlater, (World.pins_install _ r.config.installMode u table).trans hpins⟩

/-- To open a session keeps a world sound. -/
theorem opened_sound (hw : w.Sound) (h : r.course? recompile names w = some c) :
    c.opened.Sound ∧ w.Later c.opened := by
  obtain ⟨heaps, guards, pins, heq⟩ := opened_eq h
  rw [heq]
  exact ⟨hw.of_stores rfl rfl rfl (Nat.le_refl _) (Nat.le_refl _),
    World.later_of_stores rfl rfl rfl (Nat.le_refl _)⟩

/-- **A lawful batch.** The repair starts in a sound world, later than the one in which the batch
started, and everything that was pinned then is pinned still. -/
theorem compiled_lawful (hlawful : recompile.Lawful) (hw : w.Sound)
    (h : r.course? recompile names w = some c) :
    c.compiled.Sound ∧ c.opened.Later c.compiled ∧ c.compiled.pins = c.opened.pins := by
  obtain ⟨v, -, -, hrun⟩ := course?_eq_some h
  have hkept := Batch.run_preserves r.config.retryBudget c.units
    (keeps_workshop (r := r) hlawful _ c.opened) (s := (c.opened, c.session.journal))
    ⟨(opened_sound hw h).1, .refl _, rfl⟩
  rw [hrun] at hkept
  exact hkept

/-- The recompiled world is a later one. -/
theorem later_compiled (hlawful : recompile.Lawful) (hw : w.Sound)
    (h : r.course? recompile names w = some c) : w.Later c.compiled :=
  (opened_sound hw h).2.trans (compiled_lawful hlawful hw h).2.1

/-- A target is a cell of the world of the call, and registered under its name. -/
theorem target_registered (hw : w.Sound) (h : r.course? recompile names w = some c) {u : UnitId}
    (hu : u ∈ c.targets) :
    u.index < w.units.size ∧ w.unit? r.registry (w.unit u).name = some u := by
  obtain ⟨name, -, hname⟩ := ((mem_targets h).2 u).mp hu
  obtain ⟨hlt, heq⟩ := hw.registered r.registry name u hname
  exact ⟨hlt, heq.symm ▸ hname⟩

/-- So it keeps its name in every later world. -/
theorem name_target {v : World σ} (hlater : w.Later v) (hw : w.Sound)
    (h : r.course? recompile names w = some c) {u : UnitId} (hu : u ∈ c.targets) :
    (v.unit u).name = (w.unit u).name :=
  hlater.unitName u (target_registered hw h hu).1

/-- Targets are units of the registry. -/
theorem mem_unitsOf_of_target (hw : w.Sound) (h : r.course? recompile names w = some c)
    {u : UnitId} (hu : u ∈ c.targets) : u ∈ w.unitsOf r.registry :=
  World.mem_unitsOf.mpr ⟨_, (target_registered hw h hu).2⟩

/-- Names are what they were when the repair starts. -/
theorem keepsNames (hlawful : recompile.Lawful) (hw : w.Sound)
    (h : r.course? recompile names w = some c) :
    w.KeepsNames c.compiled r.registry c.targets :=
  World.keepsNames_of_later hw (later_compiled hlawful hw h) _ _

/-- Targets of one name are one target. -/
theorem target_eq_of_name (hw : w.Sound) (h : r.course? recompile names w = some c) {u v : UnitId}
    (hu : u ∈ c.targets) (hv : v ∈ c.targets) (hname : (w.unit u).name = (w.unit v).name) :
    u = v :=
  World.eq_of_loaded hw (mem_unitsOf_of_target hw h hu) (mem_unitsOf_of_target hw h hv) hname

/-- Different targets have different names. -/
theorem nodup_names_targets (hw : w.Sound) (h : r.course? recompile names w = some c) :
    (c.targets.map fun u => (w.unit u).name).Nodup :=
  (List.nodup_map_iff_inj_on (mem_targets h).1).mpr
    fun _ hu _ hv hname => target_eq_of_name hw h hu hv hname

/-- The units that succeeded have different names. -/
theorem nodup_names_of_later (hlater : w.Later c.compiled) (hw : w.Sound)
    (h : r.course? recompile names w = some c) :
    (c.batch.reloaded.map fun u => (c.compiled.unit u).name).Nodup := by
  obtain ⟨hnodup, hmem⟩ := mem_reloaded h
  rw [List.nodup_map_iff_inj_on hnodup]
  intro u hu v hv hname
  -- targets have kept their names, and targets of one name are one
  rw [name_target hlater hw h (hmem u hu), name_target hlater hw h (hmem v hv)] at hname
  exact target_eq_of_name hw h (hmem u hu) (hmem v hv) hname

/-- And so have the units that were reloaded. -/
theorem nodup_names_reloaded (hlawful : recompile.Lawful) (hw : w.Sound)
    (h : r.course? recompile names w = some c) :
    (c.batch.reloaded.map fun u => (c.compiled.unit u).name).Nodup :=
  nodup_names_of_later (later_compiled hlawful hw h) hw h

/-- The session fits the world in which the repair starts. -/
theorem fits (hlawful : recompile.Lawful) (hw : w.Sound)
    (h : r.course? recompile names w = some c) : c.closing.Fits c.compiled :=
  (opened_session h).fits (keepsNames hlawful hw h)

/-! ### The end -/

/-- The repair and the end of the call keep what cells are made with. -/
theorem sameForm_returned (c : Course σ) (r : Reloader) (w : World σ) :
    c.compiled.SameForm (c.returned r w) := by
  have hframe := Session.frame_propagate c.closing c.batch.reloaded c.compiled
  exact
    { unitName := hframe.form.unitName
      sealReason := hframe.form.sealReason
      nameOf := fun d => by
        -- a name is read off cells, and the end of the call writes pins and guards
        rw [← hframe.form.nameOf]
        cases d <;> rfl
      layout := hframe.form.layout }

/-- The end of a course lets go of pins and guard, and touches no exports. -/
@[simp] theorem exports_returned (c : Course σ) (r : Reloader) (w : World σ) :
    (c.returned r w).exports = c.repaired.2.2.exports := rfl

@[simp] theorem export?_returned (c : Course σ) (r : Reloader) (w : World σ) (h : UnitId)
    (x : String) : (c.returned r w).export? h x = c.repaired.2.2.export? h x := rfl

/-- The repair loads no unit and drops none. -/
theorem unitsOf_returned (c : Course σ) (r : Reloader) (w : World σ) (r' : RegistryId) :
    (c.returned r w).unitsOf r' = c.compiled.unitsOf r' := by
  have hregistries : c.repaired.2.2.registries = c.compiled.registries :=
    (Session.frame_propagate c.closing c.batch.reloaded c.compiled).registries
  change (c.repaired.2.2.registries.get _).units.values = _
  rw [hregistries]
  rfl

/-- What a unit owns and exports when the repair starts, it owns and exports in the end. -/
theorem ownExports_returned (hlawful : recompile.Lawful) (hw : w.Sound)
    (h : r.course? recompile names w = some c) (u : UnitId) :
    (c.returned r w).ownExports u = c.compiled.ownExports u := by
  have hown := Session.ownExports_propagate (fits hlawful hw h) c.batch.reloaded u
  have hform := Session.frame_propagate c.closing c.batch.reloaded c.compiled
  have hform' := sameForm_returned c r w
  rw [← hown, World.ownExports, World.ownExports, hform'.ownDefinitions, hform'.unitName,
    hform.form.ownDefinitions, hform.form.unitName, exports_returned]
  rfl

/-- What claims a name is not changed by the repair. -/
theorem claimant?_returned (hlawful : recompile.Lawful) (hw : w.Sound)
    (h : r.course? recompile names w = some c) (u : UnitId) (q : QualifiedName) :
    (c.returned r w).claimant? u q = c.compiled.claimant? u q :=
  Session.claimant?_congr (sameForm_returned c r w) (ownExports_returned hlawful hw h u) q

/-- The units in a report are those that succeeded. -/
theorem mem_reloaded_report (hlawful : recompile.Lawful) (hw : w.Sound)
    (h : r.course? recompile names w = some c) {name : String} {u : UnitId}
    (hu : w.unit? r.registry name = some u) :
    name ∈ c.report.reloaded ↔ u ∈ c.batch.reloaded := by
  have hlater := later_compiled hlawful hw h
  have hform := (Session.frame_propagate c.closing c.batch.reloaded c.compiled).form
  have hname : ∀ v ∈ c.batch.reloaded, (c.repaired.2.2.unit v).name = (w.unit v).name := by
    intro v hv
    have hlt := (target_registered hw h ((mem_reloaded h).2 v hv)).1
    exact (hform.unitName v).trans (hlater.unitName v hlt)
  change name ∈ namesOf c.repaired.2.2 c.batch.reloaded ↔ _
  rw [namesOf, List.mem_map]
  constructor
  · rintro ⟨v, hv, rfl⟩
    -- a reported name is that of one unit of the registry
    have hreg := (target_registered hw h ((mem_reloaded h).2 v hv)).2
    rw [hname v hv, hreg, Option.some.injEq] at hu
    exact hu ▸ hv
  · intro hmem
    exact ⟨u, hmem, (hname u hmem).trans (hw.registered r.registry name u hu).2⟩

end Course

end Reloader

end HotReload
