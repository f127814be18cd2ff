import HotReload.Proofs.Reload.Pinned
import HotReload.Proofs.Repair.Fading
import HotReload.Proofs.Repair.Notes

/-!
# What a reload does to objects and what it reports

The objects that a reload gives another type are those that its enumerator found with an old type
that another one succeeds (`Reloader.Relocates`). If the new type is refused the object keeps the
type that it has, and that need not be the old one, since the recompiler may have changed it
(`Reloader.Course.type_returned_of_relocates`).

A report says of three things that they could not be repaired, and each of them can be told from the
world of the call and the one in which the repair starts: a name without a definition, a type
without a successor, and an object that a type refuses (`Reloader.Course.reported_symbol_iff`,
`Reloader.Course.reported_type_iff`, `Reloader.Course.reported_rejection_iff`). This is about
reloads whose journal has no capacity; others may have dropped what they noted.
-/

namespace HotReload

variable {σ : Type} [Host σ]

namespace Reloader

/-- **Relocation.** The object `o` is to be given the type `new`: the enumerator found it with the
old type `old` of `u`, and in `w₁` the type `new` of `u` has the name of `old`. -/
structure Relocates (r : Reloader) (w w₁ : World σ) (u : UnitId) (o : ObjectId)
    (old new : TypeId) : Prop where
  found : o ∈ r.enumerated w
  type : (w.object o).type = old
  exported : ∃ x, w.export? u x = some (.type old)
  owned : (w.type old).owner = (w.unit u).name
  succeeded : w₁.successor? (typesAmong (w₁.ownExports u)) old = some new
  ne : old ≠ new

namespace Course

variable {recompile : Recompiler σ} {r : Reloader} {names : List String} {w : World σ}
  {c : Course σ}

/-! ### The journal when the repair starts -/

theorem config_closing (h : r.course? recompile names w = some c) :
    c.closing.config = r.config := by
  obtain ⟨v, hstart, -⟩ := session_started h
  exact (Session.opened_of_start hstart).2.1

/-- When the repair starts nothing has been noted but what comes before it. -/
theorem journal_closing (h : r.course? recompile names w = some c)
    (hcapacity : r.config.journalCapacity = none) :
    c.closing.journal.capacity = none ∧
      ∀ unit e, Noted c.closing.journal.entries unit e → e.precedesRepair = true := by
  obtain ⟨-, -, -, hrun⟩ := course?_eq_some h
  obtain ⟨v, hstart, -⟩ := session_started h
  obtain ⟨-, -, hjournal, -⟩ := Session.opened_of_start hstart
  -- the journal starts with the units that were skipped, and the batch notes its attempts in it
  let P : Journal → Prop := fun j =>
    j.capacity = none ∧ ∀ unit e, Noted j.entries unit e → e.precedesRepair = true
  have hlog : ∀ (j : Journal) unit (e : Event), e.precedesRepair = true → P j →
      P (j.log unit e) := by
    intro j unit e he hj
    refine ⟨hj.1, fun unit' e' hnoted => ?_⟩
    rcases (Journal.noted_log hj.1).mp hnoted with hold | ⟨-, rfl⟩
    · exact hj.2 unit' e' hold
    · exact he
  have hfirst : P c.session.journal := by
    rw [hjournal, Session.firstJournal]
    have hfold : ∀ (skipped : List (String × IntrospectError)) (j : Journal), P j →
        P (skipped.foldl (fun j e => j.log e.1 (.unitSkipped e.2.message)) j) := by
      intro skipped
      induction skipped with
      | nil =>
        intro j hj
        exact hj
      | cons e skipped ih =>
        intro j hj
        exact ih _ (hlog j e.1 _ rfl hj)
    refine hfold _ _ ⟨hcapacity, ?_⟩
    rintro unit e ⟨x, hx, -⟩
    cases hx
  have hkeeps : (r.workshop recompile).Keeps (c.units.map (·.1)) fun s => P s.2 :=
    ⟨fun unit e s he hs => hlog s.2 unit e he hs, fun _ _ _ hs => hs, fun _ _ _ _ hs _ => hs⟩
  have hkept := Batch.run_preserves r.config.retryBudget _ hkeeps
    (s := (c.opened, c.session.journal)) hfirst
  rw [hrun] at hkept
  exact hkept

theorem not_noted_closing (h : r.course? recompile names w = some c)
    (hcapacity : r.config.journalCapacity = none) {unit : String} {e : Event}
    (he : e.precedesRepair = false) : ¬ Noted c.closing.journal.entries unit e := by
  intro hnoted
  rw [(journal_closing h hcapacity).2 unit e hnoted] at he
  cases he

/-! ### Moves of objects -/

/-- What a session has recorded has a cell when the repair starts. -/
theorem known_closing (hlawful : recompile.Lawful) (hw : w.Sound)
    (h : r.course? recompile names w = some c) {r' : RegistryId}
    (henumerator : r.enumerator = .heapOf r') : c.closing.Known c.compiled := by
  obtain ⟨v, hstart, -⟩ := session_started h
  have hfinds : r.enumerator.Finds (r.entered w) := by
    rw [henumerator]
    trivial
  exact (Session.known_of_start hstart (sound_entered hw r) hfinds
    ((later_entered w r).trans (later_compiled hlawful hw h))).of_journal c.journal

theorem mem_ownTypes_closing (hlawful : recompile.Lawful) (hw : w.Sound)
    (h : r.course? recompile names w = some c) {u : UnitId} (hu : u ∈ c.targets) {t : TypeId} :
    t ∈ c.closing.snapshot.ownTypes c.compiled (c.compiled.unit u).name ↔
      (∃ x, w.export? u x = some (.type t)) ∧ (w.type t).owner = (w.unit u).name := by
  have hlater := later_compiled hlawful hw h
  have htable : c.closing.snapshot.exports? (w.unit u).name = some (w.exports u) :=
    Snapshot.exports?_eq_some (opened_session h).capture_eq (nodup_names_targets hw h) hu
  rw [name_target hlater hw h hu, Snapshot.mem_ownTypes htable]
  refine and_congr_right ?_
  rintro ⟨x, hx⟩
  have hname : c.compiled.nameOf (.type t) = w.nameOf (.type t) :=
    hlater.nameOf _ (hw.exports u x _ hx)
  have howner := (QualifiedName.top_inj.mp hname).1
  rw [howner]

/-- The moves of the repair are the relocations. -/
theorem mem_moves_iff (hlawful : recompile.Lawful) (hw : w.Sound)
    (h : r.course? recompile names w = some c) {u : UnitId} (hu : u ∈ c.targets) {o : ObjectId}
    {new : TypeId} :
    (o, new) ∈ c.closing.moves c.compiled u ↔ ∃ old, r.Relocates w c.compiled u o old new := by
  rw [Session.mem_moves]
  constructor
  · rintro ⟨old, hold, hsucc, hne, ho⟩
    obtain ⟨hexported, howned⟩ := (mem_ownTypes_closing hlawful hw h hu).mp hold
    -- objects were enumerated before the recompilation, with the types they had then
    obtain ⟨hfound, htype, -⟩ :=
      (mem_objectsOf hw h).mp (show o ∈ c.session.objectsOf old from ho)
    exact ⟨old, hfound, htype, hexported, howned, hsucc, hne⟩
  · rintro ⟨old, hr⟩
    obtain ⟨x, hx⟩ := hr.exported
    have hstale : c.session.snapshot.isStale (.type old) = true :=
      (Snapshot.isStale_iff (opened_session h).capture_eq _).mpr ⟨u, hu, x, hx⟩
    exact ⟨old, (mem_ownTypes_closing hlawful hw h hu).mpr ⟨hr.exported, hr.owned⟩, hr.succeeded,
      hr.ne, (mem_objectsOf hw h).mpr ⟨hr.found, hr.type, hstale⟩⟩

/-- An object has one type when it is found, so it is to be given one other at most. -/
theorem oneTarget_moves (hlawful : recompile.Lawful) (hw : w.Sound)
    (h : r.course? recompile names w = some c) :
    World.OneTarget (c.batch.reloaded.flatMap (c.closing.moves c.compiled)) :=
  (opened_session h).oneTarget_moves (nodup_names_reloaded hlawful hw h)

/-- As far as objects go, the repair is a pass over the moves. -/
theorem object_returned (hlawful : recompile.Lawful) (hw : w.Sound)
    (h : r.course? recompile names w = some c) (o : ObjectId) :
    (c.returned r w).object o = (World.moveEach
      (c.batch.reloaded.flatMap (c.closing.moves c.compiled)) c.compiled).1.object o := by
  have hobjects := Session.propagate_moves (fits hlawful hw h) c.batch.reloaded
  exact congrArg (fun objects => Store.get objects o.index) hobjects

/-- **An object that is relocated** has the new type in the end, unless the type that it had when
the repair started stands in the way. -/
theorem type_returned_of_relocates (hlawful : recompile.Lawful) (hw : w.Sound)
    (h : r.course? recompile names w = some c) {u : UnitId} (hu : u ∈ c.batch.reloaded)
    {o : ObjectId} {old new : TypeId} (hr : r.Relocates w c.compiled u o old new) :
    ((c.returned r w).object o).type =
      if c.compiled.refusal? (o, new) = none then new else (c.compiled.object o).type := by
  have hmem := (mem_moves_iff hlawful hw h ((mem_reloaded h).2 u hu)).mpr ⟨old, hr⟩
  rw [object_returned hlawful hw h]
  exact World.type_moveEach (oneTarget_moves hlawful hw h) c.compiled
    (List.mem_flatMap.mpr ⟨u, hu, hmem⟩)

theorem type_returned_of_not_relocates (hlawful : recompile.Lawful) (hw : w.Sound)
    (h : r.course? recompile names w = some c) {o : ObjectId}
    (hnone : ∀ u ∈ c.batch.reloaded, ∀ old new, ¬ r.Relocates w c.compiled u o old new) :
    ((c.returned r w).object o).type = (c.compiled.object o).type := by
  -- only moves write objects, and a move is a relocation
  rw [object_returned hlawful hw h, World.object_moveEach_of_notMem]
  rintro ⟨o', new⟩ hm rfl
  obtain ⟨u, hu, hm⟩ := List.mem_flatMap.mp hm
  obtain ⟨old, hr⟩ := (mem_moves_iff hlawful hw h ((mem_reloaded h).2 u hu)).mp hm
  exact hnone u hu old new hr

/-! ### What a report says -/

/-- A symbol is reported as removed if a slot was found to hold a definition of that name, and no
definition has the name when the repair starts. It takes no lawful recompiler for that, as long as
the repair starts in a later world. -/
theorem reported_symbol_iff_of_later (hlater : w.Later c.compiled) (hw : w.Sound)
    (h : r.course? recompile names w = some c) (hcapacity : r.config.journalCapacity = none)
    {u : UnitId} (hu : u ∈ c.batch.reloaded) {d : Definition} (hd : w.hasDefinition d = true)
    (howned : (w.nameOf d).unit = (w.unit u).name) :
    (∃ n, Noted c.report.events (w.unit u).name (.symbolRemoved (w.nameOf d).text n)) ↔
      r.config.logRemovedSymbols = true ∧
        (∃ h' x d', w.HoldsStale r.registry c.targets h' x d' ∧ w.nameOf d' = w.nameOf d) ∧
          c.compiled.claimant? u (w.nameOf d) = none := by
  have hunit := name_target hlater hw h ((mem_reloaded h).2 u hu)
  have hname := hlater.nameOf d hd
  have hnames := nodup_names_of_later hlater hw h
  have hfits := (opened_session h).fits (World.keepsNames_of_later hw hlater _ _)
  have hnoted := Session.noted_symbolRemoved_iff (d := d) hfits
    ((opened_session h).oneTarget_moves hnames) (journal_closing h hcapacity).1 hnames hu
    (by rw [hname, howned, hunit]) fun n => not_noted_closing h hcapacity rfl
  rw [hname, hunit, config_closing h] at hnoted
  refine hnoted.trans (and_congr_right fun _ => ?_)
  -- the names that bindings go by are those of the slots that were found
  rw [Session.mem_unclaimed, hunit, howned, eq_self, true_and]
  refine and_congr_left fun _ => ?_
  constructor
  · rintro ⟨b, hb, hkey⟩
    obtain ⟨hstale, hkey'⟩ := (opened_session h).mem_bindings_iff.mp hb
    exact ⟨b.holder, b.localName, b.stale, hstale, hkey'.symm.trans hkey⟩
  · rintro ⟨h', x, d', hstale, hkey⟩
    exact ⟨⟨h', x, d', w.nameOf d'⟩, (opened_session h).mem_bindings_iff.mpr ⟨hstale, rfl⟩, hkey⟩

section Reports

variable (hlawful : recompile.Lawful) (hw : w.Sound) (h : r.course? recompile names w = some c)
  (hcapacity : r.config.journalCapacity = none) {u : UnitId} (hu : u ∈ c.batch.reloaded)

include hlawful hw h hcapacity hu

theorem reported_symbol_iff {d : Definition} (hd : w.hasDefinition d = true)
    (howned : (w.nameOf d).unit = (w.unit u).name) :
    (∃ n, Noted c.report.events (w.unit u).name (.symbolRemoved (w.nameOf d).text n)) ↔
      r.config.logRemovedSymbols = true ∧
        (∃ h' x d', w.HoldsStale r.registry c.targets h' x d' ∧ w.nameOf d' = w.nameOf d) ∧
          c.compiled.claimant? u (w.nameOf d) = none :=
  reported_symbol_iff_of_later (later_compiled hlawful hw h) hw h hcapacity hu hd howned

/-- An old type is reported as removed if it has no successor. -/
theorem reported_type_iff {t : TypeId} (hexported : ∃ x, w.export? u x = some (.type t))
    (howned : (w.type t).owner = (w.unit u).name) :
    Noted c.report.events (w.unit u).name (.typeRemoved (w.typeName t).text) ↔
      c.compiled.successor? (typesAmong (c.compiled.ownExports u)) t = none := by
  obtain ⟨x, hx⟩ := hexported
  have hlater := later_compiled hlawful hw h
  have htarget := (mem_reloaded h).2 u hu
  have hunit := name_target hlater hw h htarget
  have hname : c.compiled.typeName t = w.typeName t := hlater.nameOf (.type t) (hw.exports u x _ hx)
  -- no such event can stand in the journal before the repair
  have hnoted := Session.noted_typeRemoved_iff (fits hlawful hw h) (oneTarget_moves hlawful hw h)
    (journal_closing h hcapacity).1 (nodup_names_reloaded hlawful hw h) hu
    ((mem_ownTypes_closing hlawful hw h htarget).mpr ⟨⟨x, hx⟩, howned⟩)
    (not_noted_closing h hcapacity rfl)
  rwa [hname, hunit] at hnoted

/-- A rejection is reported for the name of an old type if some object is refused by a type of that
name. -/
theorem reported_rejection_iff {t : TypeId} (ht : w.hasDefinition (.type t) = true)
    (howned : (w.type t).owner = (w.unit u).name) :
    (∃ reason, Noted c.report.events (w.unit u).name
        (.retypeRejected (w.typeName t).text reason)) ↔
      ∃ o old new, r.Relocates w c.compiled u o old new ∧ w.typeName old = w.typeName t ∧
        c.compiled.refusal? (o, new) ≠ none := by
  have hlater := later_compiled hlawful hw h
  have htarget := (mem_reloaded h).2 u hu
  have hunit := name_target hlater hw h htarget
  have hname : c.compiled.typeName t = w.typeName t := hlater.nameOf (.type t) ht
  have howner : (c.compiled.type t).owner = (w.type t).owner := (QualifiedName.top_inj.mp hname).1
  have hnoted := Session.noted_retypeRejected_iff (fits hlawful hw h)
    (oneTarget_moves hlawful hw h) (journal_closing h hcapacity).1
    (nodup_names_reloaded hlawful hw h) hu (by rw [howner, howned, hunit])
    fun reason => not_noted_closing h hcapacity rfl
  rw [hname, hunit] at hnoted
  refine hnoted.trans ?_
  -- the name of the new type is that of the old one
  have hsame : ∀ {o old new}, r.Relocates w c.compiled u o old new →
      c.compiled.typeName new = w.typeName old := by
    intro o old new hr
    obtain ⟨x, hx⟩ := hr.exported
    have hold : c.compiled.typeName old = w.typeName old :=
      hlater.nameOf (.type old) (hw.exports u x _ hx)
    have howned' : (c.compiled.type old).owner = (c.compiled.unit u).name := by
      rw [(QualifiedName.top_inj.mp hold).1, hr.owned, hunit]
    exact (World.typeName_of_successor? hr.succeeded howned').trans hold
  constructor
  · rintro ⟨⟨o, new⟩, hm, hnew, hrefused⟩
    obtain ⟨old, hr⟩ := (mem_moves_iff hlawful hw h htarget).mp hm
    exact ⟨o, old, new, hr, (hsame hr).symm.trans hnew, hrefused⟩
  · rintro ⟨o, old, new, hr, hold, hrefused⟩
    exact ⟨(o, new), (mem_moves_iff hlawful hw h htarget).mpr ⟨old, hr⟩, (hsame hr).trans hold,
      hrefused⟩

end Reports

end Course

end Reloader

end HotReload
