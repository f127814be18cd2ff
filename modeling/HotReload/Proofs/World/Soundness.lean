import HotReload.Proofs.World.Form
import HotReload.Reload.Reloader

/-!
# Sound worlds and later worlds

A world is **sound** (`World.Sound`) if its references lead to cells: what units export exists, a
registry enters units under their own names, and the two sides of the ancestor relation agree. The
object model gives no way to leave the sound worlds: `HotReload.Proofs.World.Operations` goes
through its operations.

A world is **later** than another one (`World.Later`) if the cells of the other are still there and
have kept what cells keep. This is all that may be taken for granted of a world after code of the
host has run in it.

A recompiler that respects the object model, and so leads from sound worlds to later sound worlds,
is **lawful** (`Recompiler.Lawful`).
-/

namespace HotReload

namespace Store

variable {α : Type} [Inhabited α]

/-- A write past the end makes the cells up to it. -/
theorem size_set (s : Store α) (i : Nat) (a : α) : (s.set i a).size = max s.size (i + 1) := by
  unfold set
  split
  · next h =>
    rw [size, Array.size_setIfInBounds, ← size]
    omega
  · next h =>
    rw [size, Array.size_push, Array.size_append, Array.size_replicate, ← size]
    omega

/-- A write makes no store smaller. -/
theorem size_le_size_set (s : Store α) (i : Nat) (a : α) : s.size ≤ (s.set i a).size := by
  rw [size_set]
  exact Nat.le_max_left _ _

/-- A write to a cell that is there makes it no larger either. -/
theorem size_set_of_lt (s : Store α) {i : Nat} (h : i < s.size) (a : α) :
    (s.set i a).size = s.size := by
  rw [size_set]
  omega

/-- What is not there reads as a default. -/
theorem get_of_size_le (s : Store α) {i : Nat} (h : s.size ≤ i) : s.get i = default := by
  rw [get_eq, Array.getElem?_eq_none h, Option.getD_none]

/-- A new cell changes none that was there. -/
theorem get_alloc_of_lt (s : Store α) (a : α) {i : Nat} (h : i < s.size) :
    (s.alloc a).2.get i = s.get i := by
  rw [get_alloc, if_neg]
  exact Nat.ne_of_lt h

end Store

namespace World

variable {σ : Type}

/-! ### References to cells -/

/-- True if the world has the cell of a definition. -/
def hasDefinition (w : World σ) : Definition → Bool
  | .callable c => c.index < w.callables.size
  | .type t => t.index < w.types.size

/-- True if the world has the cell that a value refers to, if it refers to one. -/
def hasValue (w : World σ) : Value → Bool
  | .object o => o.index < w.objects.size
  | .definition d => w.hasDefinition d
  | .unit u => u.index < w.units.size
  | _ => true

/-- Definitions stay as long as no store shrinks. -/
theorem hasDefinition_of_size_le {w w' : World σ}
    (hcallables : w.callables.size ≤ w'.callables.size) (htypes : w.types.size ≤ w'.types.size)
    {d : Definition} (hd : w.hasDefinition d = true) : w'.hasDefinition d = true := by
  cases d with
  | callable c =>
    rw [hasDefinition, decide_eq_true_eq] at hd ⊢
    exact Nat.lt_of_lt_of_le hd hcallables
  | type t =>
    rw [hasDefinition, decide_eq_true_eq] at hd ⊢
    exact Nat.lt_of_lt_of_le hd htypes

/-- A value that leads to a cell does so in a world with more cells. -/
theorem hasValue_of_size_le {w w' : World σ} (hunits : w.units.size ≤ w'.units.size)
    (hcallables : w.callables.size ≤ w'.callables.size) (htypes : w.types.size ≤ w'.types.size)
    (hobjects : w.objects.size ≤ w'.objects.size) {v : Value} (hv : w.hasValue v = true) :
    w'.hasValue v = true := by
  cases v with
  | object o =>
    rw [hasValue, decide_eq_true_eq] at hv ⊢
    exact Nat.lt_of_lt_of_le hv hobjects
  | unit u =>
    rw [hasValue, decide_eq_true_eq] at hv ⊢
    exact Nat.lt_of_lt_of_le hv hunits
  | definition d => exact hasDefinition_of_size_le hcallables htypes hv
  -- the other values are no references
  | _ => rfl

/-- What is exported is exported by a unit that has a cell. -/
theorem index_lt_of_export? {w : World σ} {u : UnitId} {x : String} {v : Value}
    (h : w.export? u x = some v) : u.index < w.units.size := by
  refine Nat.lt_of_not_le fun hu => ?_
  have hdefault : w.unit u = default := w.units.get_of_size_le hu
  rw [export?, exports, hdefault] at h
  cases h

/-- What has ancestors has a cell. -/
theorem index_lt_of_mem_ancestors {w : World σ} {s t : TypeId} (h : t ∈ w.ancestors s) :
    s.index < w.types.size := by
  refine Nat.lt_of_not_le fun hs => ?_
  have hdefault : w.type s = default := w.types.get_of_size_le hs
  rw [ancestors, hdefault] at h
  cases h

/-! ### Later worlds -/

/-- **Later.** The cells of `w` are there in `w'` and have kept what they were made with. -/
structure Later (w w' : World σ) : Prop where
  units : w.units.size ≤ w'.units.size
  callables : w.callables.size ≤ w'.callables.size
  types : w.types.size ≤ w'.types.size
  objects : w.objects.size ≤ w'.objects.size
  unitName : ∀ u, u.index < w.units.size → (w'.unit u).name = (w.unit u).name
  sealReason : ∀ u, u.index < w.units.size → (w'.unit u).sealReason = (w.unit u).sealReason
  nameOf : ∀ d, w.hasDefinition d = true → w'.nameOf d = w.nameOf d
  layout : ∀ t, t.index < w.types.size → (w'.type t).layout = (w.type t).layout

namespace Later

variable {w w' w'' : World σ}

theorem refl (w : World σ) : w.Later w :=
  ⟨Nat.le_refl _, Nat.le_refl _, Nat.le_refl _, Nat.le_refl _, fun _ _ => rfl, fun _ _ => rfl,
    fun _ _ => rfl, fun _ _ => rfl⟩

/-- What exists goes on to exist. -/
theorem hasDefinition (h : w.Later w') {d : Definition} (hd : w.hasDefinition d = true) :
    w'.hasDefinition d = true :=
  hasDefinition_of_size_le h.callables h.types hd

theorem hasValue (h : w.Later w') {v : Value} (hv : w.hasValue v = true) :
    w'.hasValue v = true :=
  hasValue_of_size_le h.units h.callables h.types h.objects hv

theorem trans (h : w.Later w') (h' : w'.Later w'') : w.Later w'' where
  units := Nat.le_trans h.units h'.units
  callables := Nat.le_trans h.callables h'.callables
  types := Nat.le_trans h.types h'.types
  objects := Nat.le_trans h.objects h'.objects
  unitName u hu := (h'.unitName u (Nat.lt_of_lt_of_le hu h.units)).trans (h.unitName u hu)
  sealReason u hu := (h'.sealReason u (Nat.lt_of_lt_of_le hu h.units)).trans (h.sealReason u hu)
  nameOf d hd := (h'.nameOf d (h.hasDefinition hd)).trans (h.nameOf d hd)
  layout t ht := (h'.layout t (Nat.lt_of_lt_of_le ht h.types)).trans (h.layout t ht)

/-- A unit is sealed from the start or not at all. -/
theorem isOpen (h : w.Later w') {u : UnitId} (hu : u.index < w.units.size) :
    w'.isOpen u = w.isOpen u := by
  rw [World.isOpen, World.isOpen, h.sealReason u hu]

end Later

/-- Worlds of the same form are later than each other as far as they have the same cells. -/
theorem SameForm.later {w w' : World σ} (h : w.SameForm w')
    (hunits : w.units.size ≤ w'.units.size) (hcallables : w.callables.size ≤ w'.callables.size)
    (htypes : w.types.size ≤ w'.types.size) (hobjects : w.objects.size ≤ w'.objects.size) :
    w.Later w' where
  units := hunits
  callables := hcallables
  types := htypes
  objects := hobjects
  unitName u _ := h.unitName u
  sealReason u _ := h.sealReason u
  nameOf d _ := h.nameOf d
  layout t _ := h.layout t

/-! ### Sound worlds -/

/-- **Sound.** References lead to cells, and both sides of the ancestor relation agree. -/
structure Sound (w : World σ) : Prop where
  exports : ∀ u x v, w.export? u x = some v → w.hasValue v = true
  ancestors : ∀ s t, t ∈ w.ancestors s → t.index < w.types.size
  mirror : ∀ s t, s ∈ (w.type t).subtypes ↔ t ∈ w.ancestors s
  registered : ∀ r name u, w.unit? r name = some u →
    u.index < w.units.size ∧ (w.unit u).name = name

/-- Only the cells of a world have to be looked at to see that it is sound. -/
theorem sound_iff (w : World σ) :
    w.Sound ↔
      (∀ i < w.units.size, ∀ e ∈ (w.exports ⟨i⟩).entries, w.hasValue e.2 = true) ∧
      (∀ i < w.types.size, ∀ t ∈ w.ancestors ⟨i⟩, t.index < w.types.size ∧
        ⟨i⟩ ∈ (w.type t).subtypes) ∧
      (∀ i < w.types.size, ∀ s ∈ (w.type ⟨i⟩).subtypes, ⟨i⟩ ∈ w.ancestors s) ∧
      (∀ i < w.registries.size, ∀ e ∈ (w.registry ⟨i⟩).units.entries,
        e.2.index < w.units.size ∧ (w.unit e.2).name = e.1) := by
  constructor
  · intro h
    refine ⟨?_, ?_, ?_, ?_⟩
    · intro i _ e he
      exact h.exports ⟨i⟩ e.1 e.2 ((Table.get?_eq_some_iff _ _ _).mpr he)
    · intro i _ t ht
      exact ⟨h.ancestors ⟨i⟩ t ht, (h.mirror ⟨i⟩ t).mpr ht⟩
    · intro i _ s hs
      exact (h.mirror s ⟨i⟩).mp hs
    · intro i _ e he
      exact h.registered ⟨i⟩ e.1 e.2 ((Table.get?_eq_some_iff _ _ _).mpr he)
  · rintro ⟨hexports, hancestors, hsubtypes, hregistered⟩
    refine ⟨?_, ?_, ?_, ?_⟩
    · intro u x v hv
      exact hexports u.index (index_lt_of_export? hv) (x, v) ((Table.get?_eq_some_iff _ _ _).mp hv)
    · intro s t ht
      exact (hancestors s.index (index_lt_of_mem_ancestors ht) t ht).1
    · intro s t
      constructor
      · intro hs
        by_cases ht : t.index < w.types.size
        · exact hsubtypes t.index ht s hs
        · -- what has no cell reads as a cell without references
          have hdefault : w.type t = default := w.types.get_of_size_le (Nat.le_of_not_lt ht)
          rw [hdefault] at hs
          cases hs
      · intro ht
        exact (hancestors s.index (index_lt_of_mem_ancestors ht) t ht).2
    · intro r name u hu
      by_cases hr : r.index < w.registries.size
      · exact hregistered r.index hr (name, u) ((Table.get?_eq_some_iff _ _ _).mp hu)
      · -- nor is anything entered in a registry that is not there
        have hdefault : w.registry r = default :=
          w.registries.get_of_size_le (Nat.le_of_not_lt hr)
        rw [unit?, hdefault] at hu
        cases hu

instance (w : World σ) : Decidable w.Sound := decidable_of_iff _ w.sound_iff.symm

end World

/-- **A lawful recompiler** respects the object model. It keeps worlds sound and cells what they
are, it returns nothing that does not exist, and when it returns it has let go of what it held. -/
structure Recompiler.Lawful {σ : Type} (recompile : Recompiler σ) : Prop where
  sound : ∀ u r (w : World σ), w.Sound → (recompile u r w).2.Sound
  later : ∀ u r (w : World σ), w.Sound → w.Later (recompile u r w).2
  table : ∀ u r (w : World σ) table, w.Sound → (recompile u r w).1 = .ok table →
    ∀ e ∈ table.entries, (recompile u r w).2.hasValue e.2 = true
  pins : ∀ u r (w : World σ), (recompile u r w).2.pins = w.pins

end HotReload
