import HotReload.Proofs.Repair.Bindings

/-!
# Propagation as a whole

A repair of a unit runs three passes: over bindings, over ancestor lists and over objects. The first
writes exports and nothing else, the other two write types and objects and nothing else
(`World.repair_eq`). So a propagation, as far as exports go, is a single pass of repointings, and
the repointings are those that can be read off the world in which it starts
(`Session.propagate_bindings`).

A **frame** (`World.Frame`) is what all of this leaves alone.
-/

namespace HotReload

variable {σ : Type}

namespace Event

/-- True of the events of a repair of types. -/
def concernsType : Event → Bool
  | typeRemoved _ | ancestorRepointed _ _ | objectRetargeted _ | retypeRejected _ _ => true
  | _ => false

end Event

/-- A deed with such an event counts neither as a binding nor as a symbol. -/
theorem Deed.IsTrue.of_concernsType {d : Deed} (h : d.IsTrue) (hd : d.event.concernsType = true) :
    d.counts.bindingsRepointed = 0 ∧ d.counts.removedSymbols = 0 := by
  rw [h.1]
  generalize d.event = e at hd
  cases e <;> simp [Event.concernsType] at hd <;> exact ⟨rfl, rfl⟩

namespace World

/-! ### Frames -/

/-- **Frame of a repair.** The worlds differ in exports, ancestors, back-lists and types of objects
at most. -/
structure Frame (w w' : World σ) : Prop where
  form : w.SameForm w'
  callables : w'.callables = w.callables
  heaps : w'.heaps = w.heaps
  registries : w'.registries = w.registries
  guards : w'.guards = w.guards
  pins : w'.pins = w.pins
  host : w'.host = w.host

namespace Frame

variable {w w' w'' : World σ}

theorem refl (w : World σ) : w.Frame w := ⟨.refl w, rfl, rfl, rfl, rfl, rfl, rfl⟩

theorem trans (h : w.Frame w') (h' : w'.Frame w'') : w.Frame w'' where
  form := h.form.trans h'.form
  callables := h'.callables.trans h.callables
  heaps := h'.heaps.trans h.heaps
  registries := h'.registries.trans h.registries
  guards := h'.guards.trans h.guards
  pins := h'.pins.trans h.pins
  host := h'.host.trans h.host

end Frame

/-- To repoint a binding rewrites one slot. -/
theorem frame_repoint (w : World σ) (t : ExternalBinding × Definition) :
    w.Frame (w.repoint t).1 := by
  have hform := w.sameForm_repoint t
  by_cases hacts : w.Acts t
  · rw [repoint_of_acts hacts] at hform ⊢
    exact ⟨hform, rfl, rfl, rfl, rfl, rfl, rfl⟩
  · rw [repoint_of_not_acts hacts]
    exact .refl w

/-- To repoint any number of bindings rewrites slots only. -/
theorem frame_repointEach (ts : List (ExternalBinding × Definition)) (w : World σ) :
    w.Frame (repointEach ts w).1 :=
  repairEach_related Frame.refl Frame.trans ts w fun t _ v => v.frame_repoint t

/-- A repair of types is within the frame, and it writes no exports either. -/
structure TypeFrame (w w' : World σ) : Prop extends w.Frame w' where
  units : w'.units = w.units

namespace TypeFrame

variable {w w' w'' : World σ}

theorem refl (w : World σ) : w.TypeFrame w := ⟨.refl w, rfl⟩

theorem trans (h : w.TypeFrame w') (h' : w'.TypeFrame w'') : w.TypeFrame w'' :=
  ⟨h.toFrame.trans h'.toFrame, h'.units.trans h.units⟩

/-- A step on types leaves every table as it is. -/
theorem exports (h : w.TypeFrame w') : w'.exports = w.exports := by
  funext u
  rw [World.exports, World.exports, unit, unit, h.units]

end TypeFrame

/-- A new ancestor goes to types: to the one that gets it, and to the lists of subtypes. -/
theorem typeFrame_repointAncestors (new : TypeId) (w : World σ) (s : TypeId) :
    w.TypeFrame (repointAncestors new w s).1 := by
  have hform := w.sameForm_repointAncestors new s
  unfold repointAncestors at hform ⊢
  split
  · next h =>
    rw [if_pos h] at hform
    obtain ⟨types, heq⟩ := w.setAncestors_eq s
      ((w.ancestors s).map fun t => if w.isPredecessor new t then new else t)
    refine ⟨⟨hform, ?_, ?_, ?_, ?_, ?_, ?_⟩, ?_⟩ <;> rw [heq]
  · exact .refl w

/-- A new type goes to the objects. -/
theorem typeFrame_retargetObject (new : TypeId) (w : World σ) (o : ObjectId) :
    w.TypeFrame (retargetObject new w o).1 := by
  have hform := w.sameForm_retargetObject new o
  rw [retargetObject_fst] at hform ⊢
  split
  · next h =>
    rw [if_pos h] at hform
    exact ⟨⟨hform, rfl, rfl, rfl, rfl, rfl, rfl⟩, rfl⟩
  · exact .refl w

/-- A type that succeeds one of the same unit has its name. -/
theorem typeName_of_successor? {w : World σ} {u : UnitId} {old new : TypeId}
    (h : w.successor? (typesAmong (w.ownExports u)) old = some new)
    (howned : (w.type old).owner = (w.unit u).name) : w.typeName new = w.typeName old := by
  obtain ⟨x, hx⟩ := Snapshot.mem_typesAmong.mp (List.mem_of_find?_eq_some h)
  have howner : (w.type new).owner = (w.unit u).name := (w.mem_ownExports.mp hx).2
  have hsame := List.find?_some h
  rw [beq_iff_eq] at hsame
  rw [typeName, typeName, howner, howned, hsame]

variable [Host σ]

/-- What is done for an old type that another one succeeds. -/
theorem repairType_of_succeeded {s : Session} {types : List TypeId} {w : World σ} {old new : TypeId}
    (h : w.successor? types old = some new) (hne : old ≠ new) :
    repairType s types w old =
      ((retargetObjects s old new (w.repointSubtypes old new).1).1,
        (w.repointSubtypes old new).2 ++
          (retargetObjects s old new (w.repointSubtypes old new).1).2) := by
  simp only [repairType, h, if_neg hne]

/-- A type that is still current needs nothing done. -/
theorem repairType_self {s : Session} {types : List TypeId} {w : World σ} {old : TypeId}
    (h : w.successor? types old = some old) : repairType s types w old = (w, []) := by
  simp only [repairType, h, if_true]

/-- Of a type without a successor no more is done than that it is counted and shown. -/
theorem repairType_of_removed {s : Session} {types : List TypeId} {w : World σ} {old : TypeId}
    (h : w.successor? types old = none) :
    repairType s types w old =
      (w, [⟨{ Stats.zero with removedTypes := 1 }, .typeRemoved (w.typeName old).text⟩]) := by
  simp only [repairType, h]

/-- **What can be done for an old type**: report it, leave it as its own successor, or repair its
subtypes and then its objects. -/
theorem repairType_cases (s : Session) (types : List TypeId) (w : World σ) (old : TypeId) :
    (w.successor? types old = none ∧
        repairType s types w old =
          (w, [⟨{ Stats.zero with removedTypes := 1 }, .typeRemoved (w.typeName old).text⟩])) ∨
      (w.successor? types old = some old ∧ repairType s types w old = (w, [])) ∨
      ∃ new, old ≠ new ∧ w.successor? types old = some new ∧ repairType s types w old =
        ((retargetObjects s old new (w.repointSubtypes old new).1).1,
          (w.repointSubtypes old new).2 ++
            (retargetObjects s old new (w.repointSubtypes old new).1).2) := by
  cases h : w.successor? types old with
  | none => exact .inl ⟨rfl, repairType_of_removed h⟩
  | some new =>
    -- a type may be found in the table that it has been in before
    by_cases hnew : old = new
    · subst hnew
      exact .inr (.inl ⟨rfl, repairType_self h⟩)
    · exact .inr (.inr ⟨new, hnew, rfl, repairType_of_succeeded h hnew⟩)

/-- The repair for one type is a step on types. -/
theorem typeFrame_repairType (s : Session) (types : List TypeId) (w : World σ) (old : TypeId) :
    w.TypeFrame (repairType s types w old).1 := by
  obtain ⟨-, h⟩ | ⟨-, h⟩ | ⟨new, -, -, h⟩ := repairType_cases s types w old <;> rw [h]
  · exact .refl w
  · exact .refl w
  · -- first the subtypes, then the objects
    have hsubtypes : w.TypeFrame (w.repointSubtypes old new).1 :=
      repairEach_related TypeFrame.refl TypeFrame.trans _ w
        fun t _ v => v.typeFrame_repointAncestors new t
    have hobjects := repairEach_related (R := TypeFrame) TypeFrame.refl TypeFrame.trans
      (s.objectsOf old) (w.repointSubtypes old new).1 fun o _ v => v.typeFrame_retargetObject new o
    exact hsubtypes.trans hobjects

/-- The repair of what pointed at the old types of the named unit, whose current own types are
`types`. -/
def repairTypes (s : Session) (unit : String) (types : List TypeId) (w : World σ) :
    World σ × List Deed :=
  repairEach (repairType s types) (s.snapshot.ownTypes w unit) w

/-- And so is the repair for all types of a unit. -/
theorem typeFrame_repairTypes (s : Session) (unit : String) (types : List TypeId) (w : World σ) :
    w.TypeFrame (repairTypes s unit types w).1 :=
  repairEach_related TypeFrame.refl TypeFrame.trans _ w
    fun t _ v => v.typeFrame_repairType s types t

/-! ### A repair in parts -/

omit [Host σ] in
@[simp] theorem exports_pin (w : World σ) (nodes : List Node) : (w.pin nodes).exports = w.exports :=
  rfl

omit [Host σ] in
/-- Pins say nothing of names and layouts. -/
theorem sameForm_pins (w : World σ) (pins : NumberedSet Node) :
    w.SameForm { w with pins := pins } where
  unitName _ := rfl
  sealReason _ := rfl
  nameOf d := by cases d <;> rfl
  layout _ := rfl

/-- What is held on to while a unit is repaired. -/
def keptFor (w : World σ) (u : UnitId) : List Node :=
  .unit u :: (w.ownExports u).flatMap fun e => (Value.definition e.2).nodes

/-- The world of a repair of `u` when its bindings have been repaired. -/
def withBindings (w : World σ) (s : Session) (u : UnitId) : World σ × List Deed :=
  repointEach (s.repointings w u) (w.pin (w.keptFor u))

omit [Host σ] in
/-- The first part of a repair keeps the form. -/
theorem sameForm_withBindings (w : World σ) (s : Session) (u : UnitId) :
    w.SameForm (w.withBindings s u).1 :=
  (w.sameForm_pins _).trans (sameForm_repointEach _ _)

/-- The deeds that report the names without a definition. -/
def removals (w : World σ) (s : Session) (u : UnitId) : List Deed :=
  (s.unclaimed w u).map fun q =>
    ⟨{ Stats.zero with removedSymbols := 1 },
      .symbolRemoved q.text (s.references.holders q).length⟩

omit [Host σ] in
/-- The repair of bindings is a pass of repointings and a report of what has no successor. -/
theorem repointBindings_eq (s : Session) (u : UnitId) (w v : World σ) (h : w.SameForm v) :
    repointBindings s.references (w.unit u).name (w.ownExports u) v =
      ((repointEach (s.repointings w u) v).1,
        (repointEach (s.repointings w u) v).2 ++ w.removals s u) := by
  have hpass : repairEach (repointHolders s.references) (w.claims (w.ownExports u)) v =
      repointEach (s.repointings w u) v := by
    -- a pass over claims, each of them a pass over the holders of a name
    unfold repointEach Session.repointings
    rw [repairEach_flatMap]
    refine repairEach_congr fun c _ v' => ?_
    rw [repairEach_map]
    rfl
  have hremoved : removedSymbols s.references (w.unit u).name
      ((w.claims (w.ownExports u)).map (·.1)) = w.removals s u := by
    unfold removedSymbols removals Session.unclaimed
    simp only [claims_contains, Option.not_isSome]
  simp only [repointBindings, h.claims, hpass, hremoved]

/-- **A repair in parts**: bindings first, then types. -/
theorem repair_eq (s : Session) (u : UnitId) (w : World σ) :
    w.repair s u =
      ({ (repairTypes s (w.unit u).name (typesAmong (w.ownExports u))
            (w.withBindings s u).1).1 with pins := w.pins },
        (w.withBindings s u).2 ++ w.removals s u ++
          (repairTypes s (w.unit u).name (typesAmong (w.ownExports u))
            (w.withBindings s u).1).2) := by
  -- what is repointed is worked out with the pins set, which makes no difference
  have hbindings := repointBindings_eq s u w (w.pin (w.keptFor u)) (w.sameForm_pins _)
  simp only [repair, holding, repairFrom]
  rw [show w.ownDefinitions (w.unit u).name (w.exports u) = w.ownExports u from rfl]
  rw [show (.unit u :: (w.ownExports u).flatMap fun e => (Value.definition e.2).nodes) =
    w.keptFor u from rfl, hbindings]
  rfl

/-- **A repair changes slots, ancestor lists and types of objects, and nothing else.** -/
theorem frame_repair (s : Session) (u : UnitId) (w : World σ) : w.Frame (w.repair s u).1 := by
  -- pins are set for the time of the repair, so the frame is assembled from its parts
  have hbindings := frame_repointEach (s.repointings w u) (w.pin (w.keptFor u))
  have htypes := (typeFrame_repairTypes s (w.unit u).name (typesAmong (w.ownExports u))
    (w.withBindings s u).1).toFrame
  have hframe := hbindings.trans htypes
  rw [repair_eq]
  exact
    { form := ((w.sameForm_pins _).trans hframe.form).trans (sameForm_pins _ _)
      callables := hframe.callables
      heaps := hframe.heaps
      registries := hframe.registries
      guards := hframe.guards
      pins := rfl
      host := hframe.host }

/-- As far as exports go, a repair is its pass over bindings. -/
theorem exports_repair (s : Session) (u : UnitId) (w : World σ) :
    (w.repair s u).1.exports = (repointEach (s.repointings w u) w).1.exports := by
  have htypes := (typeFrame_repairTypes s (w.unit u).name (typesAmong (w.ownExports u))
    (w.withBindings s u).1).exports
  have hpins := (repointEach_congr (w.exports_pin (w.keptFor u)) (s.repointings w u)).1
  rw [repair_eq, ← hpins]
  exact htypes

/-- A repair leaves what every unit owns and exports. -/
theorem ownExports_repair {s : Session} {w : World σ} (hfits : s.Fits w) (u v : UnitId) :
    (w.repair s u).1.ownExports v = w.ownExports v := by
  have hform := (w.frame_repair s u).form
  have hform' := w.sameForm_repointEach (s.repointings w u)
  have hrepointings : ∀ t ∈ s.repointings w u,
      t.1 ∈ s.references.bindings ∧ w.nameOf t.2 = t.1.key := by
    rintro ⟨b, d⟩ ht
    obtain ⟨hb, hclaim⟩ := Session.mem_repointings.mp ht
    exact ⟨hb, (w.claimant?_spec hclaim).1⟩
  -- the worlds have the same exports, so they have the same own exports by their form
  rw [← Session.ownExports_repointEach hfits hrepointings v]
  rw [ownExports, ownExports, exports_repair, hform.ownDefinitions, hform.unitName,
    hform'.ownDefinitions, hform'.unitName]

/-! ### Deeds of a repair -/

omit [Host σ] in
/-- Each deed of a pass of repointings counts as one repointed binding. -/
theorem counts_repointEach (ts : List (ExternalBinding × Definition)) (w : World σ) :
    ∀ d ∈ (repointEach ts w).2, d.counts = { Stats.zero with bindingsRepointed := 1 } :=
  forall_deeds_repointEach (fun _ _ _ => rfl) ts w

omit [Host σ] in
/-- The events of the first part count bindings only. -/
theorem ofEvent_repointEach (ts : List (ExternalBinding × Definition)) (w : World σ) :
    ∀ d ∈ (repointEach ts w).2,
      Stats.ofEvent d.event = { Stats.zero with bindingsRepointed := 1 } := by
  intro d hd
  have htrue := forall_deeds_repairEach (fun t _ v => v.isTrue_repoint t) d hd
  rw [← htrue.1, counts_repointEach ts w d hd]

omit [Host σ] in
/-- What a new ancestor shows concerns a type. -/
theorem concernsType_repointAncestors (new : TypeId) (w : World σ) (s : TypeId) :
    ∀ d ∈ (repointAncestors new w s).2, d.event.concernsType = true := by
  intro d hd
  unfold repointAncestors at hd
  split at hd
  · rw [List.mem_singleton.mp hd]
    rfl
  · cases hd

omit [Host σ] in
/-- So does what a new type of an object shows, the change as well as the refusal. -/
theorem concernsType_retargetObject (new : TypeId) (w : World σ) (o : ObjectId) :
    ∀ d ∈ (retargetObject new w o).2, d.event.concernsType = true := by
  intro d hd
  unfold retargetObject at hd
  split at hd
  · cases hd
  · split at hd <;> rw [List.mem_singleton.mp hd] <;> rfl

/-- What the passes over ancestor lists and objects do, and the report of a type without a
successor, make up the deeds of a repair of types. -/
theorem forall_deeds_repairTypes {P : Deed → Prop} {s : Session} {unit : String}
    {types : List TypeId} {w : World σ}
    (hremoved : ∀ name, P ⟨{ Stats.zero with removedTypes := 1 }, .typeRemoved name⟩)
    (hancestors : ∀ new (v : World σ) t, ∀ d ∈ (repointAncestors new v t).2, P d)
    (hobjects : ∀ new (v : World σ) o, ∀ d ∈ (retargetObject new v o).2, P d) :
    ∀ d ∈ (repairTypes s unit types w).2, P d := by
  -- what a type has done to it does not depend on the deeds so far
  apply forall_deeds_repairEach
  intro old _ v d hd
  obtain ⟨-, h⟩ | ⟨-, h⟩ | ⟨new, -, -, h⟩ := repairType_cases s types v old <;> rw [h] at hd
  · rw [List.mem_singleton.mp hd]
    exact hremoved _
  · cases hd
  · rcases List.mem_append.mp hd with hd | hd
    · exact forall_deeds_repairEach (fun t _ v => hancestors new v t) d hd
    · exact forall_deeds_repairEach (fun o _ v => hobjects new v o) d hd

/-- The events of a repair of types concern types. -/
theorem concernsType_repairTypes (s : Session) (unit : String) (types : List TypeId) (w : World σ) :
    ∀ d ∈ (repairTypes s unit types w).2, d.event.concernsType = true :=
  forall_deeds_repairTypes (fun _ => rfl) (fun new v t => v.concernsType_repointAncestors new t)
    fun new v o => v.concernsType_retargetObject new o

/-- The deeds of the second part are true, since those of its steps are. -/
theorem isTrue_repairTypes (s : Session) (unit : String) (types : List TypeId) (w : World σ) :
    ∀ d ∈ (repairTypes s unit types w).2, d.IsTrue :=
  forall_deeds_repairTypes (fun _ => ⟨rfl, by simp [Stats.zero]⟩)
    (fun new v t => v.isTrue_repointAncestors new t) fun new v o => v.isTrue_retargetObject new o

omit [Host σ] in
/-- Each deed of the part between them shows one removed symbol. -/
theorem forall_deeds_removals {P : Deed → Prop} {w : World σ} {s : Session} {u : UnitId}
    (hP : ∀ name holders, P ⟨{ Stats.zero with removedSymbols := 1 },
      .symbolRemoved name holders⟩) :
    ∀ d ∈ w.removals s u, P d := by
  intro d hd
  obtain ⟨q, -, rfl⟩ := List.mem_map.mp hd
  exact hP _ _

omit [Host σ] in
/-- A removal counts as one. -/
theorem counts_removals (w : World σ) (s : Session) (u : UnitId) :
    ∀ d ∈ w.removals s u, d.counts = { Stats.zero with removedSymbols := 1 } :=
  forall_deeds_removals fun _ _ => rfl

/-- **Every deed of a repair is true to its event.** -/
theorem isTrue_repair (s : Session) (u : UnitId) (w : World σ) :
    ∀ d ∈ (w.repair s u).2, d.IsTrue := by
  intro d hd
  rw [repair_eq, List.mem_append, List.mem_append] at hd
  rcases hd with (hd | hd) | hd
  · exact forall_deeds_repairEach (fun t _ v => v.isTrue_repoint t) d hd
  · exact forall_deeds_removals (fun _ _ => ⟨rfl, by simp [Stats.zero]⟩) d hd
  · exact isTrue_repairTypes s _ _ _ d hd

/-- The repair of several units consists of true deeds. -/
theorem isTrue_repairs (s : Session) (us : List UnitId) (w : World σ) :
    ∀ d ∈ (repairEach (fun w u => w.repair s u) us w).2, d.IsTrue :=
  forall_deeds_repairEach fun u _ v => v.isTrue_repair s u

/-- The count of repointed bindings is the number of deeds of the pass over bindings. -/
theorem bindingsRepointed_repair (s : Session) (u : UnitId) (w : World σ) :
    (Stats.tally (w.repair s u).2).bindingsRepointed =
      (repointEach (s.repointings w u) w).2.length := by
  -- of the three parts of a repair only the first one counts for bindings
  have hpins := (repointEach_congr (w.exports_pin (w.keptFor u)) (s.repointings w u)).2
  have hbindings : (Stats.tally (w.withBindings s u).2).bindingsRepointed =
      (w.withBindings s u).2.length := by
    refine Stats.count_tally_eq_length _ rfl (fun _ _ => rfl) fun d hd => ?_
    rw [counts_repointEach _ _ d hd]
  have hremovals : (Stats.tally (w.removals s u)).bindingsRepointed = 0 := by
    refine Stats.count_tally_eq_zero _ rfl (fun _ _ => rfl) fun d hd => ?_
    rw [counts_removals w s u d hd]
    rfl
  have htypes := Stats.count_tally_eq_zero (·.bindingsRepointed) rfl (fun _ _ => rfl)
    fun d hd => ((isTrue_repairTypes s (w.unit u).name (typesAmong (w.ownExports u))
      (w.withBindings s u).1 d hd).of_concernsType (concernsType_repairTypes s _ _ _ d hd)).1
  rw [repair_eq, Stats.tally_append, Stats.tally_append, ← hpins]
  simp only [Stats.add_def, hbindings, hremovals, htypes, Nat.add_zero]
  rfl

/-- The count of removed symbols is the number of names without a definition. -/
theorem removedSymbols_repair (s : Session) (u : UnitId) (w : World σ) :
    (Stats.tally (w.repair s u).2).removedSymbols = (s.unclaimed w u).length := by
  -- and only the second one for symbols
  have hbindings : (Stats.tally (w.withBindings s u).2).removedSymbols = 0 := by
    refine Stats.count_tally_eq_zero _ rfl (fun _ _ => rfl) fun d hd => ?_
    rw [counts_repointEach _ _ d hd]
    rfl
  have hremovals : (Stats.tally (w.removals s u)).removedSymbols = (w.removals s u).length := by
    refine Stats.count_tally_eq_length _ rfl (fun _ _ => rfl) fun d hd => ?_
    rw [counts_removals w s u d hd]
  have htypes := Stats.count_tally_eq_zero (·.removedSymbols) rfl (fun _ _ => rfl)
    fun d hd => ((isTrue_repairTypes s (w.unit u).name (typesAmong (w.ownExports u))
      (w.withBindings s u).1 d hd).of_concernsType (concernsType_repairTypes s _ _ _ d hd)).2
  rw [repair_eq, Stats.tally_append, Stats.tally_append]
  simp only [Stats.add_def, hbindings, hremovals, htypes, Nat.add_zero, Nat.zero_add]
  rw [removals, List.length_map]

end World

namespace Session

variable [Host σ]

/-- To propagate nothing does nothing. -/
theorem propagate_nil (s : Session) (w : World σ) : s.propagate [] w = (s, .zero, w) := rfl

/-- Units are repaired one after the other, each in the world that the last one leaves. -/
theorem propagate_cons (s : Session) (u : UnitId) (us : List UnitId) (w : World σ) :
    s.propagate (u :: us) w =
      let rest := (s.note ((w.repair s u).1.unit u).name (w.repair s u).2).propagate us
        (w.repair s u).1
      (rest.1, Stats.tally (w.repair s u).2 + rest.2.1, rest.2.2) :=
  rfl

/-! What has been noted in the journal does not show in a repair. -/

/-- What a session has noted does not bear on its repairs. -/
@[simp] theorem repair_note (s : Session) (unit : String) (deeds : List Deed) (w : World σ)
    (u : UnitId) : w.repair (s.note unit deeds) u = w.repair s u := rfl

omit [Host σ] in
@[simp] theorem repointings_note (s : Session) (unit : String) (deeds : List Deed) :
    ((s.note unit deeds).repointings : World σ → _) = s.repointings := rfl

omit [Host σ] in
@[simp] theorem unclaimed_note (s : Session) (unit : String) (deeds : List Deed) :
    ((s.note unit deeds).unclaimed : World σ → _) = s.unclaimed := rfl

/-- A propagation is a pass of repairs, and its counts are the tally of their deeds. -/
theorem propagate_eq_repairEach (s : Session) (us : List UnitId) (w : World σ) :
    (s.propagate us w).2.1 = Stats.tally (World.repairEach (fun w u => w.repair s u) us w).2 ∧
      (s.propagate us w).2.2 = (World.repairEach (fun w u => w.repair s u) us w).1 := by
  induction us generalizing s w with
  | nil => exact ⟨rfl, rfl⟩
  | cons u us ih =>
    obtain ⟨hstats, hworld⟩ :=
      ih (s.note ((w.repair s u).1.unit u).name (w.repair s u).2) (w.repair s u).1
    simp only [repair_note] at hstats hworld
    rw [propagate_cons, World.repairEach_cons, Stats.tally_append, ← hstats, ← hworld]
    exact ⟨rfl, rfl⟩

/-- **Propagation changes slots, ancestor lists and types of objects, and nothing else.** -/
theorem frame_propagate (s : Session) (us : List UnitId) (w : World σ) :
    w.Frame (s.propagate us w).2.2 := by
  induction us generalizing s w with
  | nil => exact .refl w
  | cons u us ih =>
    rw [propagate_cons]
    exact (w.frame_repair s u).trans (ih _ _)

/-- A propagation leaves what every unit owns and exports. -/
theorem ownExports_propagate {s : Session} {w : World σ} (hfits : s.Fits w) (us : List UnitId)
    (v : UnitId) : (s.propagate us w).2.2.ownExports v = w.ownExports v := by
  induction us generalizing s w with
  | nil => rfl
  | cons u us ih =>
    -- names are kept, so what was recorded fits the next world as well
    have hrest := ih (s := s.note ((w.repair s u).1.unit u).name (w.repair s u).2)
      (hfits.of_sameForm (w.frame_repair s u).form).note
    rw [propagate_cons]
    exact hrest.trans (World.ownExports_repair hfits u v)

/-- **A propagation is one pass of repointings**, as far as exports and the counts of bindings and
symbols go, and the pass can be read off the world in which the propagation starts. -/
theorem propagate_bindings {s : Session} {w : World σ} (hfits : s.Fits w) (us : List UnitId) :
    (s.propagate us w).2.2.exports =
        (World.repointEach (us.flatMap (s.repointings w)) w).1.exports ∧
      (s.propagate us w).2.1.bindingsRepointed =
        (World.repointEach (us.flatMap (s.repointings w)) w).2.length ∧
      (s.propagate us w).2.1.removedSymbols = (us.flatMap (s.unclaimed w)).length := by
  -- the induction is on the units that are left, from any world that fits the session
  induction us generalizing s w with
  | nil => exact ⟨rfl, rfl, rfl⟩
  | cons u us ih =>
    have hform := (w.frame_repair s u).form
    have hown := World.ownExports_repair hfits u
    have hexports := World.exports_repair s u w
    obtain ⟨ihexports, ihbindings, ihsymbols⟩ :=
      ih (s := s.note ((w.repair s u).1.unit u).name (w.repair s u).2)
        (hfits.of_sameForm hform).note
    -- what the rest of the pass consists of is not affected by its beginning
    have hts : us.flatMap (s.repointings (w.repair s u).1) = us.flatMap (s.repointings w) :=
      List.flatMap_congr fun v _ => repointings_congr hform (hown v)
    have hqs : us.flatMap (s.unclaimed (w.repair s u).1) = us.flatMap (s.unclaimed w) :=
      List.flatMap_congr fun v _ => unclaimed_congr hform (hown v)
    obtain ⟨hrest, hlength⟩ := World.repointEach_congr hexports (us.flatMap (s.repointings w))
    rw [repointings_note, hts] at ihexports ihbindings
    rw [unclaimed_note, hqs] at ihsymbols
    -- the bindings of the first unit come first in the list of all
    have hpass : World.repointEach ((u :: us).flatMap (s.repointings w)) w =
        ((World.repointEach (us.flatMap (s.repointings w))
            (World.repointEach (s.repointings w u) w).1).1,
          (World.repointEach (s.repointings w u) w).2 ++
            (World.repointEach (us.flatMap (s.repointings w))
              (World.repointEach (s.repointings w u) w).1).2) := by
      rw [List.flatMap_cons]
      exact World.repairEach_append _ _ _ _
    rw [propagate_cons, hpass]
    refine ⟨ihexports.trans hrest, ?_, ?_⟩
    · simp only [Stats.add_def, World.bindingsRepointed_repair, ihbindings, hlength,
        List.length_append]
    · simp only [Stats.add_def, World.removedSymbols_repair, ihsymbols, List.flatMap_cons,
        List.length_append]

end Session

end HotReload
