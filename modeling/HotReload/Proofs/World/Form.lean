import HotReload.World.Objects
import HotReload.World.Units
import HotReload.Reload.Repair

/-!
# What cells are made with

Some fields of a cell are given when it is made and are never written again: the name and the seal
of a unit, the name and the owner of a definition, the layout of a type. Two worlds in which all of
them agree have the **same form** (`World.SameForm`).

The three writes of a repair keep the form: a write to an export slot, new ancestors for a type, and
a new type for an object. Everything that a repair looks up by name is therefore the same at each of
its steps (`SameForm.ownDefinitions`, `SameForm.claims`, `SameForm.successor?`).

New ancestors are the one write that touches several cells. `World.setAncestors_eq` says that only
types are written, and `World.ancestors_setAncestors` that only one ancestor list is.
-/

namespace HotReload.World

variable {σ : Type}

/-- **Same form.** The worlds agree in what cells are made with and keep. -/
structure SameForm (w w' : World σ) : Prop where
  unitName : ∀ u, (w'.unit u).name = (w.unit u).name
  sealReason : ∀ u, (w'.unit u).sealReason = (w.unit u).sealReason
  nameOf : ∀ d, w'.nameOf d = w.nameOf d
  layout : ∀ t, (w'.type t).layout = (w.type t).layout

namespace SameForm

variable {w w' w'' : World σ}

theorem refl (w : World σ) : w.SameForm w :=
  ⟨fun _ => rfl, fun _ => rfl, fun _ => rfl, fun _ => rfl⟩

/-- Which of the two is later does not matter. -/
theorem symm (h : w.SameForm w') : w'.SameForm w where
  unitName u := (h.unitName u).symm
  sealReason u := (h.sealReason u).symm
  nameOf d := (h.nameOf d).symm
  layout t := (h.layout t).symm

theorem trans (h : w.SameForm w') (h' : w'.SameForm w'') : w.SameForm w'' where
  unitName u := (h'.unitName u).trans (h.unitName u)
  sealReason u := (h'.sealReason u).trans (h.sealReason u)
  nameOf d := (h'.nameOf d).trans (h.nameOf d)
  layout t := (h'.layout t).trans (h.layout t)

/-- Types keep their qualified names, and so owner and name. -/
theorem typeName (h : w.SameForm w') (t : TypeId) : w'.typeName t = w.typeName t :=
  h.nameOf (.type t)

theorem type_owner (h : w.SameForm w') (t : TypeId) : (w'.type t).owner = (w.type t).owner :=
  (QualifiedName.top_inj.mp (h.typeName t)).1

theorem type_name (h : w.SameForm w') (t : TypeId) : (w'.type t).name = (w.type t).name :=
  (QualifiedName.top_inj.mp (h.typeName t)).2

/-- What a unit owns depends on names only. -/
theorem owns (h : w.SameForm w') (unit : String) (d : Definition) :
    w'.owns unit d = w.owns unit d := by
  rw [World.owns, World.owns, ownerOf, ownerOf, h.nameOf]

/-- A unit stays open, or sealed. -/
theorem isOpen (h : w.SameForm w') (u : UnitId) : w'.isOpen u = w.isOpen u := by
  rw [World.isOpen, World.isOpen, h.sealReason]

/-- A table has the same own definitions. -/
theorem ownDefinitions (h : w.SameForm w') (unit : String) (table : Table Value) :
    w'.ownDefinitions unit table = w.ownDefinitions unit table := by
  simp only [World.ownDefinitions, h.owns]

/-- Claims are made by name, so that they stay the same. -/
theorem claims (h : w.SameForm w') (current : List (String × Definition)) :
    w'.claims current = w.claims current := by
  simp only [World.claims, h.nameOf]

/-- Successors are found by name. -/
theorem successor? (h : w.SameForm w') (types : List TypeId) (old : TypeId) :
    w'.successor? types old = w.successor? types old := by
  simp only [World.successor?, h.type_name]

/-- Predecessors are known by their name. -/
theorem isPredecessor (h : w.SameForm w') (new t : TypeId) :
    w'.isPredecessor new t = w.isPredecessor new t := by
  simp only [World.isPredecessor, h.typeName]

/-- Whether a type may take the place of another depends on names and layouts. -/
theorem retypeError? (h : w.SameForm w') (source target : TypeId) :
    w'.retypeError? source target = w.retypeError? source target := by
  -- the names occur in the error only
  simp only [World.retypeError?, h.typeName, h.layout]

end SameForm

/-- **Same types**, but for their members. -/
def SameTypes (w w' : World σ) : Prop :=
  ∀ t, ∃ members, w'.type t = { w.type t with members := members }

namespace SameTypes

variable {w w' w'' : World σ}

theorem refl (w : World σ) : w.SameTypes w := fun _ => ⟨_, rfl⟩

theorem trans (h : w.SameTypes w') (h' : w'.SameTypes w'') : w.SameTypes w'' := by
  intro t
  obtain ⟨members, heq⟩ := h t
  obtain ⟨members', heq'⟩ := h' t
  refine ⟨members', ?_⟩
  rw [heq', heq]

/-- Only members may differ, so lineage and names are the same. -/
theorem ancestors (h : w.SameTypes w') (t : TypeId) : w'.ancestors t = w.ancestors t := by
  obtain ⟨members, heq⟩ := h t
  rw [World.ancestors, heq, World.ancestors]

theorem subtypes (h : w.SameTypes w') (t : TypeId) :
    (w'.type t).subtypes = (w.type t).subtypes := by
  obtain ⟨members, heq⟩ := h t
  rw [heq]

theorem owner (h : w.SameTypes w') (t : TypeId) : (w'.type t).owner = (w.type t).owner := by
  obtain ⟨members, heq⟩ := h t
  rw [heq]

theorem name (h : w.SameTypes w') (t : TypeId) : (w'.type t).name = (w.type t).name := by
  obtain ⟨members, heq⟩ := h t
  rw [heq]

theorem typeName (h : w.SameTypes w') (t : TypeId) : w'.typeName t = w.typeName t := by
  rw [World.typeName, World.typeName, h.owner, h.name]

/-- And successors, which are found by name. -/
theorem successor? (h : w.SameTypes w') (types : List TypeId) (old : TypeId) :
    w'.successor? types old = w.successor? types old := by
  simp only [World.successor?, h.name]

end SameTypes

/-! ### Writes that keep the form -/

/-- A table may change as a whole: a unit is known by its name and its seal. -/
theorem sameForm_replaceExports (w : World σ) (u : UnitId) (table : Table Value) :
    w.SameForm (w.replaceExports u table) where
  unitName v := by
    rw [replaceExports, unit_putUnit]
    split
    · next h => rw [h]
    · rfl
  sealReason v := by
    rw [replaceExports, unit_putUnit]
    split
    · next h => rw [h]
    · rfl
  nameOf d := by cases d <;> rfl
  layout _ := rfl

/-- Writing a type without touching what it was made with keeps the form. -/
theorem sameForm_putType (w : World σ) (t : TypeId) (cell : TypeDecl)
    (howner : cell.owner = (w.type t).owner) (hname : cell.name = (w.type t).name)
    (hlayout : cell.layout = (w.type t).layout) : w.SameForm (w.putType t cell) where
  unitName _ := rfl
  sealReason _ := rfl
  nameOf d := by
    cases d with
    | callable c => rfl
    | type s =>
      -- only the name of the written type could differ
      simp only [nameOf_type, typeName, type_putType]
      split
      · next h => rw [h, howner, hname]
      · rfl
  layout s := by
    rw [type_putType]
    split
    · next h => rw [h, hlayout]
    · rfl

/-- An object may change its type. The form speaks of types and not of what has them. -/
theorem sameForm_setTypeOf (w : World σ) (o : ObjectId) (t : TypeId) :
    w.SameForm (w.setTypeOf o t) where
  unitName _ := rfl
  sealReason _ := rfl
  nameOf d := by cases d <;> rfl
  layout _ := rfl

/-! ### New ancestors -/

/-- A new subtype is entered among the types, unless it is there already. -/
theorem addSubtype_eq (w : World σ) (t s : TypeId) :
    ∃ types, w.addSubtype t s = { w with types := types } := by
  unfold addSubtype
  split
  · exact ⟨w.types, rfl⟩
  · exact ⟨_, rfl⟩

/-- A fold of writes to types is a write to types. -/
theorem foldl_types_eq {f : World σ → TypeId → World σ}
    (hf : ∀ w t, ∃ types, f w t = { w with types := types }) (ts : List TypeId) (w : World σ) :
    ∃ types, ts.foldl f w = { w with types := types } := by
  induction ts generalizing w with
  | nil => exact ⟨w.types, rfl⟩
  | cons t ts ih =>
    obtain ⟨types, h⟩ := hf w t
    rw [List.foldl_cons, h]
    exact ih _

/-- New ancestors are written to types and to nothing else. -/
theorem setAncestors_eq (w : World σ) (s : TypeId) (new : List TypeId) :
    ∃ types, w.setAncestors s new = { w with types := types } := by
  unfold setAncestors
  -- `s` is dropped from the back-lists of old ancestors before it is added to those of new ones
  obtain ⟨types, h⟩ := foldl_types_eq (f := fun w t => w.dropSubtype t s) (fun _ _ => ⟨_, rfl⟩)
    ((w.ancestors s).filter (!new.contains ·)) (w.putType s { w.type s with ancestors := new })
  obtain ⟨types', h'⟩ := foldl_types_eq (f := fun w t => w.addSubtype t s)
    (fun w t => w.addSubtype_eq t s) (new.filter (!(w.ancestors s).contains ·))
    { w with types := types }
  refine ⟨types', ?_⟩
  simp only [h]
  exact h'

@[simp] theorem unit_setAncestors (w : World σ) (s : TypeId) (new : List TypeId) (u : UnitId) :
    (w.setAncestors s new).unit u = w.unit u := by
  obtain ⟨types, h⟩ := w.setAncestors_eq s new
  rw [h]
  rfl

@[simp] theorem object_setAncestors (w : World σ) (s : TypeId) (new : List TypeId) (o : ObjectId) :
    (w.setAncestors s new).object o = w.object o := by
  obtain ⟨types, h⟩ := w.setAncestors_eq s new
  rw [h]
  rfl

@[simp] theorem callable_setAncestors (w : World σ) (s : TypeId) (new : List TypeId)
    (c : CallableId) : (w.setAncestors s new).callable c = w.callable c := by
  obtain ⟨types, h⟩ := w.setAncestors_eq s new
  rw [h]
  rfl

/-- A back-list is not part of the form, nor is an ancestor list. -/
theorem type_addSubtype (w : World σ) (t s r : TypeId) :
    (w.addSubtype t s).type r =
      { w.type r with subtypes := ((w.addSubtype t s).type r).subtypes } := by
  unfold addSubtype
  split
  · rfl
  · rw [type_putType]
    split
    · next h => rw [h]
    · rfl

/-- To drop a subtype changes the list of subtypes and no other part of a type. -/
theorem type_dropSubtype (w : World σ) (t s r : TypeId) :
    (w.dropSubtype t s).type r =
      { w.type r with subtypes := ((w.dropSubtype t s).type r).subtypes } := by
  unfold dropSubtype
  rw [type_putType]
  split
  · next h => rw [h]
  · rfl

/-- A fold of writes to back-lists is a write to back-lists. -/
theorem type_foldl {f : World σ → TypeId → World σ} {r : TypeId}
    (hf : ∀ w t, (f w t).type r = { w.type r with subtypes := ((f w t).type r).subtypes })
    (ts : List TypeId) (w : World σ) :
    ∃ back, (ts.foldl f w).type r = { w.type r with subtypes := back } := by
  induction ts generalizing w with
  | nil => exact ⟨_, rfl⟩
  | cons t ts ih =>
    obtain ⟨back, h⟩ := ih (f w t)
    refine ⟨back, ?_⟩
    rw [List.foldl_cons, h, hf]

/-- What new ancestors leave of a type: all but its back-list, and its ancestors unless it is the
type that they are for. -/
theorem type_setAncestors (w : World σ) (s : TypeId) (new : List TypeId) (r : TypeId) :
    ∃ back, (w.setAncestors s new).type r =
      { w.type r with
        ancestors := if r = s then new else w.ancestors r
        subtypes := back } := by
  unfold setAncestors
  obtain ⟨back, h⟩ := type_foldl (fun w t => w.type_dropSubtype t s r)
    ((w.ancestors s).filter (!new.contains ·)) (w.putType s { w.type s with ancestors := new })
  obtain ⟨back', h'⟩ := type_foldl (fun w t => w.type_addSubtype t s r)
    (new.filter (!(w.ancestors s).contains ·))
    (((w.ancestors s).filter (!new.contains ·)).foldl (fun w t => w.dropSubtype t s)
      (w.putType s { w.type s with ancestors := new }))
  refine ⟨back', ?_⟩
  -- both folds keep the ancestors, which the write before them has put in
  rw [h', h, type_putType]
  split
  · next hr => rw [hr]
  · rfl

/-- New ancestors change one ancestor list. -/
theorem ancestors_setAncestors (w : World σ) (s : TypeId) (new : List TypeId) (r : TypeId) :
    (w.setAncestors s new).ancestors r = if r = s then new else w.ancestors r := by
  obtain ⟨back, h⟩ := w.type_setAncestors s new r
  rw [ancestors, h]

/-- New ancestors keep the form. -/
theorem sameForm_setAncestors (w : World σ) (s : TypeId) (new : List TypeId) :
    w.SameForm (w.setAncestors s new) where
  unitName u := by rw [unit_setAncestors]
  sealReason u := by rw [unit_setAncestors]
  nameOf d := by
    cases d with
    | callable c => simp only [nameOf_callable, callableName, callable_setAncestors]
    -- ancestors and lists of subtypes have no part in a name
    | type t =>
      obtain ⟨back, h⟩ := w.type_setAncestors s new t
      simp only [nameOf_type, typeName, h]
  layout t := by
    obtain ⟨back, h⟩ := w.type_setAncestors s new t
    rw [h]

end HotReload.World
