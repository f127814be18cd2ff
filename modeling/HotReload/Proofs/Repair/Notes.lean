import HotReload.Proofs.Repair.Moves

/-!
# What a repair notes

The journal of a propagation holds the events of one repair after the other, each noted for the unit
that was repaired. Which of them say that something could not be repaired is known in advance: it
can be read off the world in which the propagation starts (`Session.noted_symbolRemoved_iff`,
`Session.noted_typeRemoved_iff`, `Session.noted_retypeRejected_iff`).

The reason is that all worlds in between agree on what these events depend on. They are **stages**
(`Session.Stage`): what each unit owns is the same, and so are the moves that are refused.

A journal with a capacity may have dropped any of its entries, so all of this is about journals
without one.
-/

namespace HotReload

variable {σ : Type}

/-- The event has been noted for the named unit. -/
def Noted (entries : List Entry) (unit : String) (e : Event) : Prop :=
  ∃ x ∈ entries, x.unit = unit ∧ x.event = e

instance (entries : List Entry) (unit : String) (e : Event) : Decidable (Noted entries unit e) :=
  inferInstanceAs (Decidable (∃ x ∈ entries, _))

namespace QualifiedName

/-- Inside one unit, the written form of a name tells what it is. -/
theorem text_top_inj {unit name name' : String} :
    (top unit name).text = (top unit name').text ↔ name = name' := by
  change unit ++ "." ++ name = unit ++ "." ++ name' ↔ _
  exact String.append_right_inj _

end QualifiedName

namespace Journal

/-- A journal that keeps everything has the new entry at its end. -/
theorem entries_log {j : Journal} (h : j.capacity = none) (unit : String) (e : Event) :
    (j.log unit e).entries = j.entries ++ [⟨j.next, e.level, unit, e⟩] := by
  rw [log, record, h]
  rfl

/-- To note something leaves the bound as it is. -/
theorem capacity_logAll (j : Journal) (unit : String) (es : List Event) :
    (j.logAll unit es).capacity = j.capacity := by
  induction es generalizing j with
  | nil => rfl
  | cons e es ih => exact (ih (j.log unit e)).trans (j.capacity_record e.level unit e)

/-- What is recorded in a journal that keeps everything is found at its end. -/
theorem exists_logAll {j : Journal} (hj : j.capacity = none) (unit : String)
    (es : List Event) :
    ∃ new : List Entry, (j.logAll unit es).entries = j.entries ++ new ∧
      (∀ x ∈ new, x.unit = unit) ∧ new.map (·.event) = es := by
  induction es generalizing j with
  | nil => exact ⟨[], (List.append_nil _).symm, nofun, rfl⟩
  | cons e es ih =>
    -- the next entry too goes to a journal that keeps everything
    have hcapacity : (j.log unit e).capacity = none := hj
    obtain ⟨new, hnew, hunit, hevents⟩ := ih hcapacity
    refine ⟨⟨j.next, e.level, unit, e⟩ :: new, ?_, List.forall_mem_cons.mpr ⟨rfl, hunit⟩, ?_⟩
    · show ((j.log unit e).logAll unit es).entries = _
      rw [hnew, entries_log hj, List.append_assoc]
      rfl
    · rw [List.map_cons, hevents]

/-- What has been noted has been noted before, or just now. -/
theorem noted_log {j : Journal} (h : j.capacity = none) {unit unit' : String} {e e' : Event} :
    Noted (j.log unit e).entries unit' e' ↔
      Noted j.entries unit' e' ∨ (unit = unit' ∧ e = e') := by
  simp only [Noted, entries_log h, List.mem_append, List.mem_singleton, or_and_right, exists_or,
    exists_eq_left]

/-- The same after several notes. -/
theorem noted_logAll {j : Journal} (h : j.capacity = none) {unit unit' : String} {e : Event}
    (es : List Event) :
    Noted (j.logAll unit es).entries unit' e ↔
      Noted j.entries unit' e ∨ (unit = unit' ∧ e ∈ es) := by
  induction es generalizing j with
  | nil => simp [logAll]
  | cons e' es ih =>
    have hrest := ih (j := j.log unit e') h
    rw [show j.logAll unit (e' :: es) = (j.log unit e').logAll unit es from rfl, hrest,
      noted_log h, List.mem_cons, or_assoc, ← and_or_left, eq_comm (a := e')]

end Journal

namespace World

/-- A definition is not inside another one, so its name has two parts. -/
theorem exists_nameOf_eq_top (w : World σ) (d : Definition) :
    ∃ name, w.nameOf d = .top (w.nameOf d).unit name := by
  cases d with
  | callable c => exact ⟨_, rfl⟩
  | type t => exact ⟨_, rfl⟩

/-- Names of definitions of one unit are told apart by their written form. -/
theorem nameOf_text_inj (w : World σ) (d d' : Definition)
    (h : (w.nameOf d).unit = (w.nameOf d').unit) :
    w.nameOf d = w.nameOf d' ↔ (w.nameOf d).text = (w.nameOf d').text := by
  obtain ⟨name, hname⟩ := w.exists_nameOf_eq_top d
  obtain ⟨name', hname'⟩ := w.exists_nameOf_eq_top d'
  rw [hname, hname', h, QualifiedName.text_top_inj, QualifiedName.top_inj]
  exact and_iff_right rfl

/-- Types of one name have one successor. -/
theorem successor?_of_typeName {w : World σ} {t old : TypeId} (h : w.typeName t = w.typeName old)
    (types : List TypeId) : w.successor? types t = w.successor? types old := by
  have hname := (QualifiedName.top_inj.mp h).2
  rw [successor?, successor?, hname]

variable [Host σ]

/-! ### Events of one repair -/

/-- Symbols are reported as removed once bindings have been repaired. -/
theorem symbolRemoved_mem_repair {s : Session} {u : UnitId} {w : World σ} {name : String}
    {holders : Nat} :
    .symbolRemoved name holders ∈ (w.repair s u).2.map Deed.event ↔
      .symbolRemoved name holders ∈ (w.removals s u).map Deed.event := by
  rw [repair_eq, List.map_append, List.map_append, List.mem_append, List.mem_append]
  constructor
  · -- the other parts of a repair have events of other kinds
    rintro ((he | he) | he)
    · obtain ⟨d, hd, hevent⟩ := List.mem_map.mp he
      have hcount := ofEvent_repointEach _ _ d hd
      rw [hevent] at hcount
      simp [Stats.ofEvent, Stats.zero] at hcount
    · exact he
    · obtain ⟨d, hd, hevent⟩ := List.mem_map.mp he
      have hconcerns := concernsType_repairTypes s _ _ _ d hd
      rw [hevent] at hconcerns
      cases hconcerns
  · intro he
    exact .inl (.inr he)

/-- A type is reported as removed if it has no successor. -/
theorem typeRemoved_mem_repairType {s : Session} {types : List TypeId} {w : World σ} {old : TypeId}
    {name : String} :
    .typeRemoved name ∈ (repairType s types w old).2.map Deed.event ↔
      w.successor? types old = none ∧ name = (w.typeName old).text := by
  have hsubtypes : ∀ new (v : World σ) t, ∀ d ∈ (repointAncestors new v t).2,
      d.event ≠ .typeRemoved name := by
    intro new v t d hd
    unfold repointAncestors at hd
    split at hd
    · rw [List.mem_singleton.mp hd]
      exact nofun
    · cases hd
  have hobjects : ∀ new (v : World σ) o, ∀ d ∈ (retargetObject new v o).2,
      d.event ≠ .typeRemoved name := by
    intro new v o d hd hevent
    have hconcerns := v.concernsObject_move (o, new) d hd
    rw [hevent] at hconcerns
    cases hconcerns
  obtain ⟨hsucc, h⟩ | ⟨hsucc, h⟩ | ⟨new, -, hsucc, h⟩ := repairType_cases s types w old <;>
    rw [h, hsucc]
  · simp
  · simp
  · -- neither of the two passes reports a type
    refine iff_of_false ?_ (by simp)
    rw [List.map_append, List.mem_append, List.mem_map, List.mem_map]
    rintro (⟨d, hd, hevent⟩ | ⟨d, hd, hevent⟩)
    · exact forall_deeds_repairEach (fun t _ v => hsubtypes new v t) d hd hevent
    · exact forall_deeds_repairEach (fun o _ v => hobjects new v o) d hd hevent

/-- The types that a repair reports as removed are known where it starts. -/
theorem typeRemoved_mem_repair {s : Session} {u : UnitId} {w : World σ} {name : String} :
    .typeRemoved name ∈ (w.repair s u).2.map Deed.event ↔
      ∃ old ∈ s.snapshot.ownTypes w (w.unit u).name,
        w.successor? (typesAmong (w.ownExports u)) old = none ∧ name = (w.typeName old).text := by
  have hform := w.sameForm_withBindings s u
  have hpass : .typeRemoved name ∈ (repairTypes s (w.unit u).name (typesAmong (w.ownExports u))
      (w.withBindings s u).1).2.map Deed.event ↔ ∃ old ∈ s.snapshot.ownTypes w (w.unit u).name,
        w.successor? (typesAmong (w.ownExports u)) old = none ∧
          name = (w.typeName old).text := by
    unfold repairTypes
    rw [Snapshot.ownTypes_of_sameForm hform]
    refine mem_deeds_repairEach_iff (P := fun v => w.SameForm v) hform
      (fun old _ v hv => hv.trans (v.typeFrame_repairType s _ old).form) fun old _ v hv => ?_
    rw [typeRemoved_mem_repairType, hv.successor?, hv.typeName]
  rw [repair_eq, List.map_append, List.map_append, List.mem_append, List.mem_append, hpass]
  -- events of the repair of bindings are about bindings and symbols, this one about a type
  refine or_iff_right ?_
  rintro (he | he)
  · obtain ⟨d, hd, hevent⟩ := List.mem_map.mp he
    have hcount := ofEvent_repointEach _ _ d hd
    rw [hevent] at hcount
    simp [Stats.ofEvent, Stats.zero] at hcount
  · obtain ⟨d, hd, hevent⟩ := List.mem_map.mp he
    obtain ⟨q, -, rfl⟩ := List.mem_map.mp hd
    cases hevent

/-- The rejections of a repair are those of its moves. -/
theorem retypeRejected_mem_repair {s : Session} {u : UnitId} {w : World σ} {name reason : String} :
    .retypeRejected name reason ∈ (w.repair s u).2.map Deed.event ↔
      .retypeRejected name reason ∈ (moveEach (s.moves w u) w).2.map Deed.event := by
  rw [← (w.repair_moves s u).2, List.mem_map, List.mem_map]
  simp only [List.mem_filter]
  constructor
  · rintro ⟨d, hd, hevent⟩
    exact ⟨d, ⟨hd, by rw [hevent]; rfl⟩, hevent⟩
  · rintro ⟨d, ⟨hd, -⟩, hevent⟩
    exact ⟨d, hd, hevent⟩

end World

namespace Session

/-! ### Stages of a propagation -/

/-- **A stage** of a propagation to `us` that starts in `w`. -/
structure Stage (s : Session) (us : List UnitId) (w v : World σ) : Prop where
  form : w.SameForm v
  own : ∀ u, v.ownExports u = w.ownExports u
  refusal : ∀ m ∈ us.flatMap (s.moves w), v.refusal? m = w.refusal? m

theorem Stage.refl (s : Session) (us : List UnitId) (w : World σ) : s.Stage us w w :=
  ⟨.refl w, fun _ => rfl, fun _ _ => rfl⟩

variable [Host σ]

/-- A repair leads from stage to stage. -/
theorem Stage.repair {s : Session} {us : List UnitId} {w v : World σ} (hfits : s.Fits w)
    (hone : World.OneTarget (us.flatMap (s.moves w))) (hv : s.Stage us w v) {u : UnitId}
    (hu : u ∈ us) : s.Stage us w (v.repair s u).1 where
  form := hv.form.trans (v.frame_repair s u).form
  own u' := (World.ownExports_repair (hfits.of_sameForm hv.form) u u').trans (hv.own u')
  refusal m hm := by
    have hmoves : s.moves v u = s.moves w u := moves_congr hv.form (hv.own u)
    have hobjects := (v.repair_moves s u).1
    have hobject : (v.repair s u).1.object m.1 =
        (World.moveEach (s.moves w u) v).1.object m.1 := by
      rw [World.object, hobjects, hmoves]
      rfl
    have hform : (World.moveEach (s.moves w u) v).1.SameForm (v.repair s u).1 :=
      (v.sameForm_moveEach _).symm.trans (v.frame_repair s u).form
    -- the repair moves objects, but none to a type that another move would not give it
    have hmoved := World.refusal?_moveEach hone hm
      (fun a ha => List.mem_flatMap.mpr ⟨u, hu, ha⟩ : ∀ a ∈ s.moves w u, _) v
    calc (v.repair s u).1.refusal? m
        = (World.moveEach (s.moves w u) v).1.refusal? m := by
          rw [World.refusal?, World.refusal?, hobject, hform.retypeError?]
      _ = v.refusal? m := hmoved
      _ = w.refusal? m := hv.refusal m hm

/-! ### The journal of a propagation -/

/-- An event is in the journal if it was there before, or if it is journaled and one of the repairs
has it. Which repairs have it is told by `E`, and `P` is what the worlds in between have in
common. -/
theorem noted_propagate_iff {s : Session} {us : List UnitId} {w : World σ} {P : World σ → Prop}
    {E : UnitId → Prop} {e : Event} (hcapacity : s.journal.capacity = none)
    (hw : P w) (hkeep : ∀ u ∈ us, ∀ v, P v → P (v.repair s u).1)
    (hstep : ∀ u ∈ us, ∀ v, P v → (e ∈ (v.repair s u).2.map Deed.event ↔ E u)) (unit : String) :
    Noted (s.propagate us w).1.journal.entries unit e ↔
      Noted s.journal.entries unit e ∨
        (journals s.config e = true ∧ ∃ u ∈ us, (w.unit u).name = unit ∧ E u) := by
  induction us generalizing s w with
  | nil => simp [propagate_nil]
  | cons u us ih =>
    have hunit := (w.frame_repair s u).form.unitName
    have hnote : Noted (s.note ((w.repair s u).1.unit u).name (w.repair s u).2).journal.entries
        unit e ↔ Noted s.journal.entries unit e ∨
          (journals s.config e = true ∧ (w.unit u).name = unit ∧ E u) := by
      change Noted (s.journal.logAll _
        (((w.repair s u).2.map Deed.event).filter (journals s.config))).entries unit e ↔ _
      rw [Journal.noted_logAll hcapacity, List.mem_filter, hunit, hstep u List.mem_cons_self w hw,
        and_comm (a := E u), and_left_comm]
    have hcapacity' : (s.note ((w.repair s u).1.unit u).name (w.repair s u).2).journal.capacity =
        none := (Journal.capacity_logAll _ _ _).trans hcapacity
    -- the session has only noted something, so the other repairs are as they were
    have hrest := ih hcapacity' (hkeep u List.mem_cons_self w hw)
      (by
        intro u' hu' v
        rw [repair_note]
        exact hkeep u' (List.mem_cons_of_mem u hu') v)
      (by
        intro u' hu' v
        rw [repair_note]
        exact hstep u' (List.mem_cons_of_mem u hu') v)
    simp only [hunit] at hrest
    have htail : Noted (s.propagate (u :: us) w).1.journal.entries unit e ↔
        Noted (s.note ((w.repair s u).1.unit u).name (w.repair s u).2).journal.entries unit e ∨
          (journals s.config e = true ∧ ∃ u' ∈ us, (w.unit u').name = unit ∧ E u') := by
      have hcons : (s.propagate (u :: us) w).1 =
          ((s.note ((w.repair s u).1.unit u).name (w.repair s u).2).propagate us
            (w.repair s u).1).1 := rfl
      rw [hcons, hunit]
      exact hrest
    rw [htail, hnote, or_assoc, ← and_or_left]
    simp only [List.mem_cons, exists_eq_or_imp]

section Reports

variable {s : Session} {us : List UnitId} {w : World σ} {u : UnitId}

/-- As `Session.noted_propagate_iff`, for an event that was not there before. The units have
different names, so the event is one of the repair of the unit that it is noted for. -/
theorem noted_iff_of_stage (hfits : s.Fits w) (hone : World.OneTarget (us.flatMap (s.moves w)))
    (hcapacity : s.journal.capacity = none) (hnames : (us.map fun u => (w.unit u).name).Nodup)
    (hu : u ∈ us) {e : Event} (hnew : ¬ Noted s.journal.entries (w.unit u).name e)
    {E : UnitId → Prop}
    (hstep : ∀ u ∈ us, ∀ v, s.Stage us w v → (e ∈ (v.repair s u).2.map Deed.event ↔ E u)) :
    Noted (s.propagate us w).1.journal.entries (w.unit u).name e ↔
      journals s.config e = true ∧ E u := by
  have hpass := noted_propagate_iff (P := s.Stage us w) hcapacity (.refl s us w)
    (fun u hu v hv => hv.repair hfits hone hu) hstep (w.unit u).name
  rw [hpass, or_iff_right hnew]
  refine and_congr_right fun _ => ⟨?_, fun h => ⟨u, hu, rfl, h⟩⟩
  -- only this unit has the name
  rintro ⟨u', hu', hname, h⟩
  obtain rfl := List.inj_on_of_nodup_map hnames hu' hu hname
  exact h

/-- **Removed symbols** are noted for the names that nothing claims. -/
theorem noted_symbolRemoved_iff (hfits : s.Fits w)
    (hone : World.OneTarget (us.flatMap (s.moves w))) (hcapacity : s.journal.capacity = none)
    (hnames : (us.map fun u => (w.unit u).name).Nodup) (hu : u ∈ us) {d : Definition}
    (howner : (w.nameOf d).unit = (w.unit u).name)
    (hnew : ∀ n, ¬ Noted s.journal.entries (w.unit u).name (.symbolRemoved (w.nameOf d).text n)) :
    (∃ n, Noted (s.propagate us w).1.journal.entries (w.unit u).name
        (.symbolRemoved (w.nameOf d).text n)) ↔
      s.config.logRemovedSymbols = true ∧ w.nameOf d ∈ s.unclaimed w u := by
  have hstep : ∀ n, ∀ u ∈ us, ∀ v, s.Stage us w v →
      (.symbolRemoved (w.nameOf d).text n ∈ (v.repair s u).2.map Deed.event ↔
        .symbolRemoved (w.nameOf d).text n ∈ (w.removals s u).map Deed.event) := by
    intro n u' _ v hv
    rw [World.symbolRemoved_mem_repair, World.removals, World.removals,
      unclaimed_congr hv.form (hv.own u')]
  -- this is the one kind of event that settings can leave out
  have hjournals : ∀ n, journals s.config (.symbolRemoved (w.nameOf d).text n) = true ↔
      s.config.logRemovedSymbols = true := by
    intro n
    rw [journals, Event.isSymbolRemoved, Bool.not_true, Bool.or_false]
  have hmem : (∃ n, .symbolRemoved (w.nameOf d).text n ∈ (w.removals s u).map Deed.event) ↔
      w.nameOf d ∈ s.unclaimed w u := by
    simp only [World.removals, List.map_map, List.mem_map, Function.comp, Event.symbolRemoved.injEq]
    constructor
    · rintro ⟨n, q, hq, htext, -⟩
      -- the event gives the written form of a name only, but the name is one of the same unit
      obtain ⟨⟨b, hb, rfl⟩, hunit, -⟩ := mem_unclaimed.mp hq
      rw [← hfits.key b hb] at hunit htext hq
      rw [← w.nameOf_text_inj _ _ (hunit.trans howner.symm)] at htext
      rwa [htext] at hq
    · intro hq
      exact ⟨_, _, hq, rfl, rfl⟩
  rw [← hmem, ← exists_and_left]
  refine exists_congr fun n => ?_
  rw [noted_iff_of_stage hfits hone hcapacity hnames hu (hnew n) (hstep n), hjournals]

/-- **Removed types** are noted for the old types without a successor. -/
theorem noted_typeRemoved_iff (hfits : s.Fits w)
    (hone : World.OneTarget (us.flatMap (s.moves w))) (hcapacity : s.journal.capacity = none)
    (hnames : (us.map fun u => (w.unit u).name).Nodup) (hu : u ∈ us) {t : TypeId}
    (ht : t ∈ s.snapshot.ownTypes w (w.unit u).name)
    (hnew : ¬ Noted s.journal.entries (w.unit u).name (.typeRemoved (w.typeName t).text)) :
    Noted (s.propagate us w).1.journal.entries (w.unit u).name
        (.typeRemoved (w.typeName t).text) ↔
      w.successor? (typesAmong (w.ownExports u)) t = none := by
  have hstep : ∀ u ∈ us, ∀ v, s.Stage us w v →
      (.typeRemoved (w.typeName t).text ∈ (v.repair s u).2.map Deed.event ↔
        ∃ old ∈ s.snapshot.ownTypes w (w.unit u).name,
          w.successor? (typesAmong (w.ownExports u)) old = none ∧
            (w.typeName t).text = (w.typeName old).text) := by
    intro u' _ v hv
    simp only [World.typeRemoved_mem_repair, Snapshot.ownTypes_of_sameForm hv.form,
      hv.form.unitName, hv.own, hv.form.successor?, hv.form.typeName]
  rw [noted_iff_of_stage hfits hone hcapacity hnames hu hnew hstep]
  have hjournals : journals s.config (.typeRemoved (w.typeName t).text) = true := Bool.or_true _
  rw [and_iff_right hjournals]
  constructor
  · rintro ⟨old, hold, hnone, htext⟩
    -- the same successor is looked for, because the name is the same
    have hname : w.typeName t = w.typeName old := by
      refine (w.nameOf_text_inj (.type t) (.type old) ?_).mpr htext
      exact (Snapshot.owner_of_mem_ownTypes ht).trans (Snapshot.owner_of_mem_ownTypes hold).symm
    rwa [World.successor?_of_typeName hname]
  · intro hnone
    exact ⟨t, ht, hnone, rfl⟩

/-- **Rejections** are noted for the moves that are refused. -/
theorem noted_retypeRejected_iff (hfits : s.Fits w)
    (hone : World.OneTarget (us.flatMap (s.moves w))) (hcapacity : s.journal.capacity = none)
    (hnames : (us.map fun u => (w.unit u).name).Nodup) (hu : u ∈ us) {t : TypeId}
    (howner : (w.type t).owner = (w.unit u).name)
    (hnew : ∀ reason, ¬ Noted s.journal.entries (w.unit u).name
      (.retypeRejected (w.typeName t).text reason)) :
    (∃ reason, Noted (s.propagate us w).1.journal.entries (w.unit u).name
        (.retypeRejected (w.typeName t).text reason)) ↔
      ∃ m ∈ s.moves w u, w.typeName m.2 = w.typeName t ∧ w.refusal? m ≠ none := by
  have hstep : ∀ reason, ∀ u ∈ us, ∀ v, s.Stage us w v →
      (.retypeRejected (w.typeName t).text reason ∈ (v.repair s u).2.map Deed.event ↔
        ∃ m ∈ s.moves w u, ∃ e, w.refusal? m = some e ∧
          (w.typeName t).text = (w.typeName m.2).text ∧ reason = e.message) := by
    intro reason u' hu' v hv
    have hsub : ∀ m ∈ s.moves w u', m ∈ us.flatMap (s.moves w) :=
      fun m hm => List.mem_flatMap.mpr ⟨u', hu', hm⟩
    rw [World.retypeRejected_mem_repair, moves_congr hv.form (hv.own u'),
      World.mem_deeds_moveEach (hone.subset hsub)]
    refine exists_congr fun m => and_congr_right fun hm => ?_
    rw [hv.refusal m (hsub m hm), hv.form.typeName]
  have hnoted : ∀ reason, Noted (s.propagate us w).1.journal.entries (w.unit u).name
      (.retypeRejected (w.typeName t).text reason) ↔
        ∃ m ∈ s.moves w u, ∃ e, w.refusal? m = some e ∧
          (w.typeName t).text = (w.typeName m.2).text ∧ reason = e.message := by
    intro reason
    rw [noted_iff_of_stage hfits hone hcapacity hnames hu (hnew reason) (hstep reason)]
    exact and_iff_right (Bool.or_true _)
  -- both types belong to the unit, so their names agree as soon as they are written alike
  have htext : ∀ m ∈ s.moves w u, w.typeName m.2 = w.typeName t ↔
      (w.typeName t).text = (w.typeName m.2).text := by
    intro m hm
    have howner' : (w.type m.2).owner = (w.unit u).name := owner_of_mem_moves hm
    rw [eq_comm]
    exact w.nameOf_text_inj (.type t) (.type m.2) (howner.trans howner'.symm)
  simp only [hnoted]
  constructor
  · rintro ⟨reason, m, hm, e, hrefused, hname, -⟩
    refine ⟨m, hm, (htext m hm).mpr hname, ?_⟩
    rw [hrefused]
    exact Option.some_ne_none e
  · rintro ⟨m, hm, hname, hrefused⟩
    obtain ⟨e, he⟩ := Option.ne_none_iff_exists'.mp hrefused
    exact ⟨e.message, m, hm, e, he, (htext m hm).mp hname, rfl⟩

end Reports

end Session

end HotReload
