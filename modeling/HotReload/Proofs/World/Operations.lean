import HotReload.Proofs.World.Soundness

/-!
# Operations keep worlds sound

A lemma `sound_…` for each operation of the object model that writes cells, and a lemma `later_…`
where it is not plain that cells keep what they were made with.

Most operations write a single store, and `Sound.of_stores` covers those that leave units, types and
registries alone. New ancestors are the one write that has to be followed on both sides of a
relation (`World.mem_subtypes_setAncestors`).
-/

namespace HotReload

namespace World

variable {σ : Type}

/-! ### Operations outside units and types -/

/-- Cells can be added, and callables, objects, heaps, guards, pins and the host can be written,
without a world becoming unsound. -/
theorem Sound.of_stores {w w' : World σ} (h : w.Sound) (hunits : w'.units = w.units)
    (htypes : w'.types = w.types) (hregistries : w'.registries = w.registries)
    (hcallables : w.callables.size ≤ w'.callables.size)
    (hobjects : w.objects.size ≤ w'.objects.size) : w'.Sound where
  exports u x v hv := by
    have hv' : w.export? u x = some v := by
      rwa [export?, World.exports, unit, hunits] at hv
    have hsizes : w.units.size ≤ w'.units.size ∧ w.types.size ≤ w'.types.size := by
      rw [hunits, htypes]
      exact ⟨Nat.le_refl _, Nat.le_refl _⟩
    exact hasValue_of_size_le hsizes.1 hcallables hsizes.2 hobjects (h.exports u x v hv')
  ancestors s t ht := by
    rw [World.ancestors, type, htypes] at ht
    rw [htypes]
    exact h.ancestors s t ht
  -- ancestors and subtypes are read off the types, which are the same
  mirror s t := by
    have hm := h.mirror s t
    rwa [World.ancestors, type, type, ← htypes] at hm
  registered r name u hu := by
    have hu' : w.unit? r name = some u := by
      rwa [unit?, registry, hregistries] at hu
    have hw := h.registered r name u hu'
    rwa [unit, hunits]

/-- Objects, heaps, registries, guards, pins and the host have nothing that cells keep. -/
theorem later_of_stores {w w' : World σ} (hunits : w'.units = w.units)
    (hcallables : w'.callables = w.callables) (htypes : w'.types = w.types)
    (hobjects : w.objects.size ≤ w'.objects.size) : w.Later w' where
  units := Nat.le_of_eq (congrArg Store.size hunits.symm)
  callables := Nat.le_of_eq (congrArg Store.size hcallables.symm)
  types := Nat.le_of_eq (congrArg Store.size htypes.symm)
  objects := hobjects
  unitName u _ := by rw [unit, hunits, ← unit]
  sealReason u _ := by rw [unit, hunits, ← unit]
  -- names are read off callables and types
  nameOf d _ := by
    cases d with
    | callable c => rw [nameOf_callable, callableName, callable, hcallables, ← callable]; rfl
    | type t => rw [nameOf_type, typeName, type, htypes, ← type]; rfl
  layout t _ := by rw [type, htypes, ← type]

/-- A new callable belongs to nothing yet. -/
theorem sound_newCallable {w : World σ} (h : w.Sound) (cell : Callable) :
    (w.newCallable cell).2.Sound := by
  refine h.of_stores rfl rfl rfl ?_ (Nat.le_refl _)
  rw [newCallable, Store.size_alloc]
  exact Nat.le_succ _

/-- It does not change what is there. -/
theorem later_newCallable (w : World σ) (cell : Callable) : w.Later (w.newCallable cell).2 where
  units := Nat.le_refl _
  callables := by
    rw [newCallable, Store.size_alloc]
    exact Nat.le_succ _
  types := Nat.le_refl _
  objects := Nat.le_refl _
  unitName _ _ := rfl
  sealReason _ _ := rfl
  nameOf d hd := by
    cases d with
    | callable c =>
      rw [hasDefinition, decide_eq_true_eq] at hd
      -- a callable that was there is not the new one
      have hcell : (w.newCallable cell).2.callable c = w.callable c :=
        w.callables.get_alloc_of_lt cell hd
      rw [nameOf_callable, callableName, hcell]
      rfl
    | type t => rfl
  layout _ _ := rfl

/-- A new object belongs to nothing either. -/
theorem sound_newObject {w : World σ} (h : w.Sound) (t : TypeId) : (w.newObject t).2.Sound := by
  refine h.of_stores rfl rfl rfl (Nat.le_refl _) ?_
  rw [newObject, Store.size_alloc]
  exact Nat.le_succ _

/-- No relation of the world goes through objects. -/
theorem sound_putObject {w : World σ} (h : w.Sound) (o : ObjectId) (cell : Object) :
    (w.putObject o cell).Sound :=
  h.of_stores rfl rfl rfl (Nat.le_refl _) (w.objects.size_le_size_set _ _)

/-! ### New exports -/

/-- A world gets nothing to refer to that is not there by an export of what is. -/
theorem sound_replaceExports {w : World σ} (h : w.Sound) (u : UnitId) {table : Table Value}
    (htable : ∀ e ∈ table.entries, w.hasValue e.2 = true) : (w.replaceExports u table).Sound := by
  have hlater : w.Later (w.replaceExports u table) :=
    (w.sameForm_replaceExports u table).later (w.units.size_le_size_set _ _) (Nat.le_refl _)
      (Nat.le_refl _) (Nat.le_refl _)
  refine ⟨fun v x a ha => ?_, h.ancestors, h.mirror, fun r name v hv => ?_⟩
  · -- the exports of this unit are those of the table
    rw [export?, exports_replaceExports] at ha
    split at ha
    · exact hlater.hasValue (htable (x, a) ((table.get?_eq_some_iff x a).mp ha))
    · exact hlater.hasValue (h.exports v x a ha)
  · -- units are registered under the names that they keep
    obtain ⟨hlt, hname⟩ := h.registered r name v hv
    exact ⟨Nat.lt_of_lt_of_le hlt hlater.units, (hlater.unitName v hlt).trans hname⟩

/-- Exports may change without anything else. -/
theorem later_replaceExports (w : World σ) (u : UnitId) (table : Table Value) :
    w.Later (w.replaceExports u table) :=
  (w.sameForm_replaceExports u table).later (w.units.size_le_size_set _ _) (Nat.le_refl _)
    (Nat.le_refl _) (Nat.le_refl _)

end World

namespace Table

variable {α : Type}

/-- What is in a table after an insertion has been in it before, or is the new entry. -/
theorem mem_entries_insert {t : Table α} {name : String} {a : α} {e : String × α}
    (h : e ∈ (t.insert name a).entries) : e ∈ t.entries ∨ e = (name, a) := by
  obtain ⟨x, b⟩ := e
  rw [← get?_eq_some_iff, get?_insert] at h
  split at h
  · next hname =>
    rw [Option.some.injEq] at h
    exact .inr (Prod.ext hname h.symm)
  · exact .inl ((t.get?_eq_some_iff x b).mp h)

/-- What a merged table holds comes from one of the tables. -/
theorem mem_entries_merge {t new : Table α} {e : String × α} (h : e ∈ (t.merge new).entries) :
    e ∈ t.entries ∨ e ∈ new.entries := by
  -- a merge inserts entry by entry, and each insertion brings at most its own
  have hfold : ∀ (es : List (String × α)) (t : Table α),
      e ∈ (es.foldl (fun t e => t.insert e.1 e.2) t).entries → e ∈ t.entries ∨ e ∈ es := by
    intro es
    induction es with
    | nil => exact fun t h => .inl h
    | cons e' es ih =>
      intro t h
      rcases ih _ h with h | h
      · rcases mem_entries_insert h with h | rfl
        · exact .inl h
        · exact .inr List.mem_cons_self
      · exact .inr (List.mem_cons_of_mem e' h)
  exact hfold new.entries t h

end Table

namespace World

variable {σ : Type}

/-- A recompiled table is installed if its values exist. -/
theorem sound_install {w : World σ} (h : w.Sound) (mode : InstallMode) (u : UnitId)
    {table : Table Value} (htable : ∀ e ∈ table.entries, w.hasValue e.2 = true) :
    (w.install mode u table).Sound := by
  cases mode with
  | merge =>
    refine sound_replaceExports h u fun e he => ?_
    -- he | a merge keeps entries of the old table
    rcases Table.mem_entries_merge he with he | he
    · exact h.exports u e.1 e.2 ((Table.get?_eq_some_iff _ _ _).mpr he)
    · exact htable e he
  | replace => exact sound_replaceExports h u htable

@[simp] theorem pins_install (w : World σ) (mode : InstallMode) (u : UnitId)
    (table : Table Value) : (w.install mode u table).pins = w.pins := by
  cases mode <;> rfl

/-- An installation changes the exports of one unit. -/
theorem later_install (w : World σ) (mode : InstallMode) (u : UnitId) (table : Table Value) :
    w.Later (w.install mode u table) := by
  cases mode with
  | merge => exact w.later_replaceExports u _
  | replace => exact w.later_replaceExports u _

/-! ### New units -/

/-- A new unit under a name: what was registered stays registered, but for a unit of that name. -/
theorem sound_enterUnit {w : World σ} (h : w.Sound) (r : RegistryId) (name : String)
    (sealReason : Option String) : (w.enterUnit r name sealReason).2.Sound := by
  have hold : ∀ u : UnitId, u.index < w.units.size →
      (w.enterUnit r name sealReason).2.unit u = w.unit u :=
    fun u hu => w.units.get_alloc_of_lt _ hu
  have hnew : (w.enterUnit r name sealReason).2.unit ⟨w.units.size⟩ =
      ⟨name, .empty, (w.registry r).heap, sealReason⟩ := by
    refine (w.units.get_alloc _ _).trans ?_
    rw [Store.alloc_fst, if_pos rfl]
  have hsize : (w.enterUnit r name sealReason).2.units.size = w.units.size + 1 :=
    w.units.size_alloc _
  refine ⟨fun u x v hv => ?_, h.ancestors, h.mirror, fun r' x u hu => ?_⟩
  · -- the new unit has no exports, and the others have theirs
    have hu := index_lt_of_export? hv
    rw [hsize] at hu
    rcases Nat.lt_succ_iff_lt_or_eq.mp hu with hu | hu
    · have hv' : w.export? u x = some v := by rwa [export?, World.exports, hold u hu] at hv
      have hle : w.units.size ≤ (w.enterUnit r name sealReason).2.units.size := by
        rw [hsize]
        exact Nat.le_succ _
      exact hasValue_of_size_le hle (Nat.le_refl _) (Nat.le_refl _) (Nat.le_refl _)
        (h.exports u x v hv')
    · rw [export?, World.exports, show u = ⟨w.units.size⟩ from congrArg UnitId.mk hu, hnew] at hv
      cases hv
  · rw [unit?, enterUnit] at hu
    simp only [registry_putRegistry] at hu
    -- a unit found is the new one, or it was found before
    have hfrom : (r' = r ∧ x = name ∧ u = ⟨w.units.size⟩) ∨ w.unit? r' x = some u := by
      split at hu
      · next hr =>
        rw [Table.get?_insert] at hu
        split at hu
        · next hx => exact .inl ⟨hr, hx, (Option.some.inj hu).symm⟩
        · exact .inr (by rw [hr]; exact hu)
      · exact .inr hu
    rcases hfrom with ⟨-, rfl, rfl⟩ | hfrom
    · rw [hsize, hnew]
      exact ⟨Nat.lt_succ_self _, rfl⟩
    · obtain ⟨hlt, hname⟩ := h.registered r' x u hfrom
      rw [hsize, hold u hlt]
      exact ⟨Nat.lt_succ_of_lt hlt, hname⟩

/-- To unload a unit is to forget its name. -/
theorem sound_unload {w : World σ} (h : w.Sound) (r : RegistryId) (name : String) :
    (w.unload r name).Sound where
  exports := h.exports
  ancestors := h.ancestors
  mirror := h.mirror
  registered r' x u hu := by
    rw [unit?, unload, registry_putRegistry] at hu
    split at hu
    · next hr =>
      -- what is still registered was registered before
      rw [Table.get?_erase] at hu
      split at hu
      · cases hu
      · exact h.registered r' x u (by rw [hr]; exact hu)
    · exact h.registered r' x u hu

/-! ### New ancestors -/

/-- To add a subtype adds it to one list. -/
theorem mem_subtypes_addSubtype (w : World σ) (t s r t' : TypeId) :
    r ∈ ((w.addSubtype t s).type t').subtypes ↔
      r ∈ (w.type t').subtypes ∨ (t' = t ∧ r = s) := by
  unfold addSubtype
  split
  · next h =>
    -- it has been there already, and is not entered twice
    rw [List.contains_iff_mem] at h
    refine ⟨.inl, ?_⟩
    rintro (hr | ⟨rfl, rfl⟩)
    · exact hr
    · exact h
  · rw [type_putType]
    by_cases ht : t' = t
    · subst ht
      rw [if_pos rfl, List.mem_append, List.mem_singleton]
      simp
    · rw [if_neg ht]
      simp [ht]

/-- To drop a subtype removes it from one list. -/
theorem mem_subtypes_dropSubtype (w : World σ) (t s r t' : TypeId) :
    r ∈ ((w.dropSubtype t s).type t').subtypes ↔
      r ∈ (w.type t').subtypes ∧ ¬ (t' = t ∧ r = s) := by
  unfold dropSubtype
  rw [type_putType]
  by_cases ht : t' = t
  · subst ht
    rw [if_pos rfl, List.mem_filter]
    simp
  · rw [if_neg ht]
    simp [ht]

/-- Subtypes are added one ancestor at a time. -/
theorem mem_subtypes_foldl_addSubtype (s r t' : TypeId) (ts : List TypeId) (w : World σ) :
    r ∈ ((ts.foldl (fun w t => w.addSubtype t s) w).type t').subtypes ↔
      r ∈ (w.type t').subtypes ∨ (t' ∈ ts ∧ r = s) := by
  induction ts generalizing w with
  | nil => simp
  | cons t ts ih =>
    rw [List.foldl_cons, ih, mem_subtypes_addSubtype, List.mem_cons, or_assoc, or_and_right]

/-- And dropped one ancestor at a time. -/
theorem mem_subtypes_foldl_dropSubtype (s r t' : TypeId) (ts : List TypeId) (w : World σ) :
    r ∈ ((ts.foldl (fun w t => w.dropSubtype t s) w).type t').subtypes ↔
      r ∈ (w.type t').subtypes ∧ ¬ (t' ∈ ts ∧ r = s) := by
  induction ts generalizing w with
  | nil => simp
  | cons t ts ih =>
    rw [List.foldl_cons, ih, mem_subtypes_dropSubtype, List.mem_cons, and_assoc, or_and_right,
      not_or]

/-- **The other side of new ancestors.** If `s` is in the back-lists of its ancestors and in no
others, then new ancestors for it leave it in theirs and in no others, and all other types where
they are. -/
theorem mem_subtypes_setAncestors (w : World σ) (s : TypeId) (new : List TypeId)
    (hmirror : ∀ t, s ∈ (w.type t).subtypes ↔ t ∈ w.ancestors s) (r t : TypeId) :
    r ∈ ((w.setAncestors s new).type t).subtypes ↔
      if r = s then t ∈ new else r ∈ (w.type t).subtypes := by
  have hput : ((w.putType s { w.type s with ancestors := new }).type t).subtypes =
      (w.type t).subtypes := by
    rw [type_putType]
    split
    · next h => rw [h]
    · rfl
  unfold setAncestors
  rw [mem_subtypes_foldl_addSubtype, mem_subtypes_foldl_dropSubtype, hput]
  by_cases hr : r = s
  · subst hr
    rw [if_pos rfl, hmirror]
    -- old ancestors that are new ones as well are neither dropped nor added
    by_cases hold : t ∈ w.ancestors r <;> by_cases hnew : t ∈ new <;> simp [hold, hnew]
  · simp [hr]

/-- The function writes to one type at a time: it makes the cells up to it, and none if there is
one. -/
structure WritesType (f : World σ → TypeId → World σ) : Prop where
  le : ∀ w t, w.types.size ≤ (f w t).types.size
  eq : ∀ w t, t.index < w.types.size → (f w t).types.size = w.types.size

/-- A subtype is added by a write to one type, or by none. -/
theorem writesType_addSubtype (s : TypeId) :
    WritesType fun (w : World σ) t => w.addSubtype t s := by
  refine ⟨fun w t => ?_, fun w t ht => ?_⟩ <;> unfold addSubtype <;> split
  · exact Nat.le_refl _
  · exact w.types.size_le_size_set _ _
  · rfl
  · exact w.types.size_set_of_lt ht _

/-- And dropped by a write to one type. -/
theorem writesType_dropSubtype (s : TypeId) :
    WritesType fun (w : World σ) t => w.dropSubtype t s where
  le w _ := w.types.size_le_size_set _ _
  eq w _ ht := w.types.size_set_of_lt ht _

namespace WritesType

variable {f : World σ → TypeId → World σ} (hf : WritesType f)

include hf

/-- Writes take no types away. -/
theorem le_foldl (ts : List TypeId) (w : World σ) : w.types.size ≤ (ts.foldl f w).types.size := by
  induction ts generalizing w with
  | nil => exact Nat.le_refl _
  | cons t ts ih => exact Nat.le_trans (hf.le w t) (ih (f w t))

/-- Writes to existing types make no new ones. -/
theorem foldl_eq (ts : List TypeId) (w : World σ) (hts : ∀ t ∈ ts, t.index < w.types.size) :
    (ts.foldl f w).types.size = w.types.size := by
  induction ts generalizing w with
  | nil => rfl
  | cons t ts ih =>
    rw [List.forall_mem_cons] at hts
    have hstep := hf.eq w t hts.1
    -- the bound on the other types is one on those of the next world
    rw [List.foldl_cons, ih (f w t) (hstep.symm ▸ hts.2), hstep]

end WritesType

/-- New ancestors take no types away. -/
theorem size_types_setAncestors_le (w : World σ) (s : TypeId) (new : List TypeId) :
    w.types.size ≤ (w.setAncestors s new).types.size := by
  -- there are three sorts of writes: of the list, and to old and new ancestors
  have hput : w.types.size ≤ (w.putType s { w.type s with ancestors := new }).types.size :=
    w.types.size_le_size_set _ _
  have hdrop := (writesType_dropSubtype s).le_foldl ((w.ancestors s).filter (!new.contains ·))
    (w.putType s { w.type s with ancestors := new })
  exact Nat.le_trans hput (Nat.le_trans hdrop ((writesType_addSubtype s).le_foldl _ _))

/-- New ancestors make no cells if all types concerned have one. -/
theorem size_types_setAncestors {w : World σ} {s : TypeId} {new : List TypeId}
    (hs : s.index < w.types.size) (hold : ∀ t ∈ w.ancestors s, t.index < w.types.size)
    (hnew : ∀ t ∈ new, t.index < w.types.size) :
    (w.setAncestors s new).types.size = w.types.size := by
  have hput : (w.putType s { w.type s with ancestors := new }).types.size = w.types.size :=
    w.types.size_set_of_lt hs _
  unfold setAncestors
  -- a type that is dropped from has been an ancestor, so it exists
  have hdrop := (writesType_dropSubtype s).foldl_eq ((w.ancestors s).filter (!new.contains ·))
    (w.putType s { w.type s with ancestors := new })
      fun t ht => hput.symm ▸ hold t (List.mem_filter.mp ht).1
  rw [hput] at hdrop
  rw [(writesType_addSubtype s).foldl_eq, hdrop]
  intro t ht
  rw [hdrop]
  exact hnew t (List.mem_filter.mp ht).1

/-- What there is keeps its name when ancestors change. -/
theorem later_setAncestors (w : World σ) (s : TypeId) (new : List TypeId) :
    w.Later (w.setAncestors s new) := by
  obtain ⟨types, heq⟩ := w.setAncestors_eq s new
  refine (w.sameForm_setAncestors s new).later ?_ ?_ (w.size_types_setAncestors_le s new) ?_ <;>
    exact Nat.le_of_eq (by rw [heq])

@[simp] theorem pins_setAncestors (w : World σ) (s : TypeId) (new : List TypeId) :
    (w.setAncestors s new).pins = w.pins := by
  obtain ⟨types, heq⟩ := w.setAncestors_eq s new
  rw [heq]

/-- **New ancestors leave a world sound**: lists of ancestors and lists of subtypes change
together. -/
theorem sound_setAncestors {w : World σ} (h : w.Sound) (s : TypeId) {new : List TypeId}
    (hnew : ∀ t ∈ new, t.index < w.types.size) : (w.setAncestors s new).Sound := by
  have hlater := w.later_setAncestors s new
  refine ⟨?_, ?_, ?_, ?_⟩
  · intro u x v hv
    rw [export?, World.exports, unit_setAncestors] at hv
    exact hlater.hasValue (h.exports u x v hv)
  · -- ancestors are the new ones, or those of another type
    intro r t ht
    refine Nat.lt_of_lt_of_le ?_ hlater.types
    rw [ancestors_setAncestors] at ht
    split at ht
    · exact hnew t ht
    · exact h.ancestors r t ht
  · -- both sides change for the one type, and for this type together
    intro r t
    rw [w.mem_subtypes_setAncestors s new (h.mirror s), ancestors_setAncestors]
    split
    · exact Iff.rfl
    · exact h.mirror r t
  · intro r name u hu
    obtain ⟨types, heq⟩ := w.setAncestors_eq s new
    rw [heq] at hu ⊢
    exact h.registered r name u hu

/-! ### New types and members -/

/-- A new type takes the next place. -/
theorem type_newType (w : World σ) (cell : TypeDecl) (t : TypeId) :
    (w.newType cell).2.type t = if t = ⟨w.types.size⟩ then cell else w.type t := by
  obtain ⟨i⟩ := t
  simp only [TypeId.mk.injEq]
  exact w.types.get_alloc cell i

/-- A new type may have any ancestors that exist. -/
theorem sound_declareType {w : World σ} (h : w.Sound) (cell : TypeDecl) {ancestors : List TypeId}
    (hancestors : ∀ t ∈ ancestors, t.index < w.types.size) :
    (w.declareType cell ancestors).2.Sound := by
  have hsize : (w.newType { cell with ancestors := [], subtypes := [] }).2.types.size =
      w.types.size + 1 := w.types.size_alloc _
  have hnone : ∀ t, ⟨w.types.size⟩ ∉ (w.type t).subtypes := by
    intro t ht
    have hanc := (h.mirror ⟨w.types.size⟩ t).mp ht
    have hdefault : w.type ⟨w.types.size⟩ = default := w.types.get_of_size_le (Nat.le_refl _)
    rw [World.ancestors, hdefault] at hanc
    cases hanc
  -- the type is made without ancestors, and they are given to it after that
  suffices hnew : (w.newType { cell with ancestors := [], subtypes := [] }).2.Sound from
    sound_setAncestors hnew _ fun t ht => hsize ▸ Nat.lt_succ_of_lt (hancestors t ht)
  have hle :
      w.types.size ≤ (w.newType { cell with ancestors := [], subtypes := [] }).2.types.size := by
    rw [hsize]
    exact Nat.le_succ _
  refine ⟨fun u x v hv => ?_, fun s t ht => ?_, fun s t => ?_, h.registered⟩
  · refine hasValue_of_size_le ?_ ?_ hle ?_ (h.exports u x v hv) <;> exact Nat.le_refl _
  · rw [World.ancestors, type_newType] at ht
    rw [hsize]
    split at ht
    · cases ht
    · exact Nat.lt_succ_of_lt (h.ancestors s t ht)
  · rw [World.ancestors, type_newType, type_newType]
    by_cases ht : t = ⟨w.types.size⟩ <;> by_cases hs : s = ⟨w.types.size⟩
    · simp [ht, hs]
    · -- no type that was there before lists the new one
      simp only [ht, hs, if_true, if_false, List.not_mem_nil, false_iff]
      intro hanc
      exact Nat.lt_irrefl _ (h.ancestors s _ hanc)
    · simp [ht, hs, hnone]
    · simp only [ht, hs, if_false]
      exact h.mirror s t

/-- A declaration leaves existing types as they were, except that some have a new subtype. -/
theorem later_declareType (w : World σ) (cell : TypeDecl) (ancestors : List TypeId) :
    w.Later (w.declareType cell ancestors).2 := by
  have hnew : w.Later (w.newType { cell with ancestors := [], subtypes := [] }).2 := by
    refine ⟨Nat.le_refl _, Nat.le_refl _, ?_, Nat.le_refl _, fun _ _ => rfl, fun _ _ => rfl, ?_, ?_⟩
    · rw [newType, Store.size_alloc]
      exact Nat.le_succ _
    · intro d hd
      cases d with
      | callable c => rfl
      | type t =>
        rw [nameOf_type, typeName, type_newType, if_neg]
        · rfl
        · -- the new type was not there before
          rintro rfl
          exact Nat.lt_irrefl _ (of_decide_eq_true hd)
    · intro t ht
      rw [type_newType, if_neg]
      rintro rfl
      exact Nat.lt_irrefl _ ht
  exact hnew.trans (later_setAncestors _ _ _)

/-- The new type has a cell. -/
theorem lt_size_types_declareType (w : World σ) (cell : TypeDecl) (ancestors : List TypeId) :
    w.types.size < (w.declareType cell ancestors).2.types.size := by
  calc w.types.size
      < (w.newType { cell with ancestors := [], subtypes := [] }).2.types.size := by
        rw [newType, Store.size_alloc]
        exact Nat.lt_succ_self _
    _ ≤ (w.declareType cell ancestors).2.types.size := size_types_setAncestors_le _ _ _

@[simp] theorem pins_declareType (w : World σ) (cell : TypeDecl) (ancestors : List TypeId) :
    (w.declareType cell ancestors).2.pins = w.pins :=
  pins_setAncestors _ _ _

/-- Members are no part of what makes a world sound. -/
theorem sound_setMember {w : World σ} (h : w.Sound) (t : TypeId) (name : String) (m : Member) :
    (w.setMember t name m).Sound := by
  have hlater : w.Later (w.setMember t name m) :=
    (w.sameForm_putType t { w.type t with members := (w.type t).members.insert name m } rfl rfl
      rfl).later (Nat.le_refl _) (Nat.le_refl _) (w.types.size_le_size_set _ _) (Nat.le_refl _)
  have htype : ∀ s, ((w.setMember t name m).type s).ancestors = (w.type s).ancestors ∧
      ((w.setMember t name m).type s).subtypes = (w.type s).subtypes := by
    intro s
    rw [setMember, type_putType]
    split
    · next hs =>
      rw [hs]
      exact ⟨rfl, rfl⟩
    · exact ⟨rfl, rfl⟩
  -- neither side of the ancestor relation has been written
  refine ⟨fun u x v hv => hlater.hasValue (h.exports u x v hv), fun s r hr => ?_, fun s r => ?_,
    h.registered⟩
  · rw [World.ancestors, (htype s).1] at hr
    exact Nat.lt_of_lt_of_le (h.ancestors s r hr) hlater.types
  · rw [(htype r).2, World.ancestors, (htype s).1]
    exact h.mirror s r

end World

end HotReload
