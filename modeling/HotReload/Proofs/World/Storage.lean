import HotReload.Call
import HotReload.Proofs.Repair.Moves
import HotReload.Proofs.World.Operations

/-!
# The storage of objects

What is stored in an object is laid out as its type says, and nothing ever converts it. An object
may be moved to another type, but objects of that type have to be **stored as** those of the type
that it was made with (`World.StoredAs`): the layouts are the same, and if the host stores the
objects then so are the types.

`World.KeepsStorage` says this of all objects of a world at once, together with what has become of
their fields. Two sorts of steps keep storage:

* whatever leaves the types of objects alone (`World.KeepsTypes`), as all operations of the object
  model do but one;
* `World.retarget`, because it looks at both layouts before it moves an object
  (`World.keepsStorage_setTypeOf`).

Layouts are compared by hops, each with the type that the object has just then. That no detour leads
to another layout in the end is the transitivity of `World.KeepsStorage`. It needs types that
exist: a type that is yet to be made has no layout to compare. So worlds have to be grounded
(`World.Grounded`), which means that no type or object comes up in them before it is made. The world
in which nothing has been loaded is grounded, and the operations keep worlds so.
-/

namespace HotReload

variable {σ : Type}

namespace Table

variable {α : Type}

/-- Who does not look at a name does not see what is written under it. -/
theorem filter_entries_insert {p : String × α → Bool} {name : String} (t : Table α) (a : α)
    (hp : ∀ b, p (name, b) = false) :
    (t.insert name a).entries.filter p = t.entries.filter p := by
  show (putEntry name a t.entries).filter p = t.entries.filter p
  -- the induction is on the entries before, one of which may be replaced
  induction t.entries with
  | nil => simp [putEntry, hp]
  | cons e es ih =>
    obtain ⟨x, b⟩ := e
    by_cases h : x = name
    · subst h
      simp [putEntry, hp]
    · simp [putEntry, h, List.filter_cons, ih]

end Table

/-! ### Grounded worlds -/

mutual

/-- The values that an expression names. -/
def Expr.literals : Expr → List Value
  | .literal v => [v]
  | .callPath _ args | .concat args | .seq args | .inner args => Expr.literalsOf args
  | .invoke e args | .method e _ args | .member e _ args => e.literals ++ Expr.literalsOf args
  | .field e _ | .setGlobal _ e | .kindOf e | .typeOf e | .errorText e => e.literals
  | .setField a _ b | .isA a b | .equal a b | .add a b | .attempt a b => a.literals ++ b.literals
  | .cond c a b => c.literals ++ (a.literals ++ b.literals)
  | .arg _ | .argCount | .global _ | .resolve _ | .selfName | .raise _ | .forward | .malformed => []

/-- The values that expressions name. -/
def Expr.literalsOf : List Expr → List Value
  | [] => []
  | e :: es => e.literals ++ Expr.literalsOf es

end

namespace World

/-- True if the type or the object that a value refers to exists, if it refers to one. -/
def isBacked (w : World σ) : Value → Bool
  | .object o => o.index < w.objects.size
  | .type t => t.index < w.types.size
  | _ => true

/-- What all these values refer to exists. -/
def Backs (w : World σ) (vs : List Value) : Prop := ∀ v ∈ vs, w.isBacked v = true

instance (w : World σ) (vs : List Value) : Decidable (w.Backs vs) :=
  inferInstanceAs (Decidable (∀ v ∈ vs, w.isBacked v = true))

/-- An object is there if its cell is, and a type likewise. -/
@[simp] theorem isBacked_object {w : World σ} {o : ObjectId} :
    w.isBacked (.object o) = true ↔ o.index < w.objects.size := decide_eq_true_iff

@[simp] theorem isBacked_type {w : World σ} {t : TypeId} :
    w.isBacked (.type t) = true ↔ t.index < w.types.size := decide_eq_true_iff

@[simp] theorem backs_nil {w : World σ} : w.Backs [] := List.forall_mem_nil _

@[simp] theorem backs_cons {w : World σ} {v : Value} {vs : List Value} :
    w.Backs (v :: vs) ↔ w.isBacked v = true ∧ w.Backs vs := List.forall_mem_cons

@[simp] theorem backs_append {w : World σ} {us vs : List Value} :
    w.Backs (us ++ vs) ↔ w.Backs us ∧ w.Backs vs := List.forall_mem_append

/-- Nil refers to nothing. -/
theorem isBacked_getD {w : World σ} {v? : Option Value}
    (h : ∀ v, v? = some v → w.isBacked v = true) : w.isBacked (v?.getD .nil) = true := by
  cases v? with
  | none => rfl
  | some v => exact h v rfl

/-- Whatever exists goes on to exist. -/
theorem Later.isBacked {w w' : World σ} (h : w.Later w') {v : Value} (hv : w.isBacked v = true) :
    w'.isBacked v = true := by
  unfold World.isBacked at hv ⊢
  split at hv <;> simp only [decide_eq_true_eq] at hv ⊢
  · exact Nat.lt_of_lt_of_le hv h.objects
  · exact Nat.lt_of_lt_of_le hv h.types

/-- The same of several values. -/
theorem Later.backs {w w' : World σ} (h : w.Later w') {vs : List Value} (hvs : w.Backs vs) :
    w'.Backs vs :=
  fun v hv => h.isBacked (hvs v hv)

/-- **Grounded.** The types of objects exist, and so does what is exported, stored in a field or
named in a body. -/
structure Grounded (w : World σ) : Prop where
  types : ∀ o, o.index < w.objects.size → (w.object o).type.index < w.types.size
  exports : ∀ u x v, w.export? u x = some v → w.isBacked v = true
  fields : ∀ o x v, w.field? o x = some v → w.isBacked v = true
  bodies : ∀ c, w.Backs (w.callable c).body.literals

/-- Only the cells of a world have to be looked at to see that it is grounded. -/
theorem grounded_iff (w : World σ) :
    w.Grounded ↔
      (∀ i < w.objects.size, (w.object ⟨i⟩).type.index < w.types.size ∧
        ∀ e ∈ (w.object ⟨i⟩).fields.entries, w.isBacked e.2 = true) ∧
      (∀ i < w.units.size, ∀ e ∈ (w.exports ⟨i⟩).entries, w.isBacked e.2 = true) ∧
      ∀ i < w.callables.size, ∀ v ∈ (w.callable ⟨i⟩).body.literals, w.isBacked v = true := by
  constructor
  · intro h
    refine ⟨fun i hi => ⟨h.types ⟨i⟩ hi, fun e he => ?_⟩, fun i _ e he => ?_,
      fun i _ => h.bodies ⟨i⟩⟩
    · exact h.fields ⟨i⟩ e.1 e.2 ((Table.get?_eq_some_iff _ _ _).mpr he)
    · exact h.exports ⟨i⟩ e.1 e.2 ((Table.get?_eq_some_iff _ _ _).mpr he)
  · rintro ⟨hobjects, hexports, hbodies⟩
    refine ⟨fun o ho => (hobjects o.index ho).1, fun u x v hv => ?_, fun o x v hv => ?_,
      fun c => ?_⟩
    · exact hexports u.index (index_lt_of_export? hv) (x, v) ((Table.get?_eq_some_iff _ _ _).mp hv)
    · by_cases ho : o.index < w.objects.size
      · exact (hobjects o.index ho).2 (x, v) ((Table.get?_eq_some_iff _ _ _).mp hv)
      · -- what is not there has no fields
        have hdefault : w.object o = default := w.objects.get_of_size_le (Nat.le_of_not_lt ho)
        rw [field?, hdefault] at hv
        cases hv
    · by_cases hc : c.index < w.callables.size
      · exact hbodies c.index hc
      · -- and a body that names nothing
        have hdefault : w.callable c = default := w.callables.get_of_size_le (Nat.le_of_not_lt hc)
        rw [hdefault]
        intro v hv
        rw [List.mem_singleton.mp hv]
        rfl

instance (w : World σ) : Decidable w.Grounded := decidable_of_iff _ w.grounded_iff.symm

/-- There is nothing in the first world that could be missing. -/
theorem grounded_initial (host : σ) : (initial host).Grounded := by
  rw [grounded_iff]
  refine ⟨?_, ?_, ?_⟩ <;> exact fun i hi => absurd hi (Nat.not_lt_zero i)

/-! ### What keeps storage -/

/-- **Stored alike.** Objects of `t` are stored as objects of `s` are: the types have the same
layout, and they are the same type if the host stores their objects. -/
structure StoredAs (w : World σ) (t s : TypeId) : Prop where
  layout : (w.type t).layout = (w.type s).layout
  native : (w.type s).layout = .native → t = s

namespace StoredAs

variable {w w' : World σ} {r s t : TypeId}

theorem refl (w : World σ) (t : TypeId) : w.StoredAs t t := ⟨rfl, fun _ => rfl⟩

/-- Storage is passed on from type to type. -/
theorem trans (h : w.StoredAs t s) (h' : w.StoredAs s r) : w.StoredAs t r where
  layout := h.layout.trans h'.layout
  native hr := by
    obtain rfl := h'.native hr
    exact h.native hr

/-- Where nothing stands in the way from one type to another, objects of both are stored alike. -/
theorem of_retypeError? (h : w.retypeError? s t = none) : w.StoredAs t s := by
  rcases retypeError?_eq_none_iff.mp h with rfl | ⟨hlayout, hnative, -⟩
  · exact .refl w s
  · exact ⟨hlayout.symm, fun hs => absurd hs hnative⟩

/-- Types that exist store alike in later worlds too, since layouts never change. -/
theorem later (h : w.StoredAs t s) (hlater : w.Later w') (ht : t.index < w.types.size)
    (hs : s.index < w.types.size) : w'.StoredAs t s where
  layout := by rw [hlater.layout t ht, hlater.layout s hs, h.layout]
  native hnative := by
    rw [hlater.layout s hs] at hnative
    exact h.native hnative

end StoredAs

variable {writes : ObjectId → String → Bool}

/-- The fields of an object that nobody is expected to write, with their values and in their
order. -/
def unwritten (writes : ObjectId → String → Bool) (w : World σ) (o : ObjectId) :
    List (String × Value) :=
  (w.object o).fields.entries.filter fun e => !writes o e.1

/-- **Types of objects are kept**, and of the fields of objects at most those are written that may
be. -/
structure KeepsTypes (writes : ObjectId → String → Bool) (w w' : World σ) : Prop where
  later : w.Later w'
  grounded : w.Grounded → w'.Grounded
  type : ∀ o, o.index < w.objects.size → (w'.object o).type = (w.object o).type
  unwritten : ∀ o, o.index < w.objects.size → w'.unwritten writes o = w.unwritten writes o

/-- **Storage is kept.** The types that objects have are stored like those that they had. -/
structure KeepsStorage (writes : ObjectId → String → Bool) (w w' : World σ) : Prop where
  later : w.Later w'
  grounded : w'.Grounded
  stored : ∀ o, o.index < w.objects.size → w'.StoredAs (w'.object o).type (w.object o).type
  unwritten : ∀ o, o.index < w.objects.size → w'.unwritten writes o = w.unwritten writes o

namespace KeepsStorage

variable {w w' w'' : World σ}

theorem refl (hw : w.Grounded) : w.KeepsStorage writes w where
  later := .refl w
  grounded := hw
  stored _ _ := .refl w _
  unwritten _ _ := rfl

/-- **Hop by hop.** Each hop compares with the type that an object has at the time, and layouts stay
what they are. -/
theorem trans (h : w.KeepsStorage writes w') (hw : w.Grounded) (h' : w'.KeepsStorage writes w'') :
    w.KeepsStorage writes w'' where
  later := h.later.trans h'.later
  grounded := h'.grounded
  stored o ho := by
    have ho' := Nat.lt_of_lt_of_le ho h.later.objects
    -- the first step relates two types that are both still there
    have hfirst : w''.StoredAs (w'.object o).type (w.object o).type :=
      (h.stored o ho).later h'.later (h.grounded.types o ho')
        (Nat.lt_of_lt_of_le (hw.types o ho) h.later.types)
    exact (h'.stored o ho').trans hfirst
  unwritten o ho :=
    (h'.unwritten o (Nat.lt_of_lt_of_le ho h.later.objects)).trans (h.unwritten o ho)

end KeepsStorage

namespace KeepsTypes

variable {w w' : World σ}

/-- A step that keeps types of objects keeps storage. -/
theorem keepsStorage (h : w.KeepsTypes writes w') (hw : w.Grounded) :
    w.KeepsStorage writes w' where
  later := h.later
  grounded := h.grounded hw
  stored o ho := by
    rw [h.type o ho]
    exact .refl w' _
  unwritten := h.unwritten

/-- A step that writes neither objects nor callables has to care about what it exports. -/
theorem of_later (hlater : w.Later w') (hcallables : w'.callables = w.callables)
    (hobjects : w'.objects = w.objects) (hexports : ∀ u x v, w'.export? u x = some v →
      w.export? u x = some v ∨ w.isBacked v = true) : w.KeepsTypes writes w' where
  later := hlater
  grounded hw := by
    refine ⟨fun o ho => ?_, fun u x v hv => hlater.isBacked ?_, fun o x v hv => hlater.isBacked ?_,
      fun c => hlater.backs ?_⟩
    · rw [object, hobjects]
      exact Nat.lt_of_lt_of_le (hw.types o (hobjects ▸ ho)) hlater.types
    · -- an export is an old one, or exists for another reason
      exact (hexports u x v hv).elim (hw.exports u x v) id
    · rw [field?, object, hobjects] at hv
      exact hw.fields o x v hv
    · rw [callable, hcallables]
      exact hw.bodies c
  type _ _ := by rw [object, object, hobjects]
  unwritten _ _ := by rw [World.unwritten, World.unwritten, object, object, hobjects]

/-- Heaps, registries, guards, pins and the host have nothing to do with storage. -/
theorem of_stores (hunits : w'.units = w.units) (hcallables : w'.callables = w.callables)
    (htypes : w'.types = w.types) (hobjects : w'.objects = w.objects) : w.KeepsTypes writes w' :=
  of_later (later_of_stores hunits hcallables htypes (Nat.le_of_eq (congrArg _ hobjects.symm)))
    hcallables hobjects fun u x v hv => .inl (by rwa [export?, World.exports, unit, hunits] at hv)

end KeepsTypes

/-! ### Operations of the object model -/

/-- New ancestors have no part in layouts. -/
theorem keepsTypes_setAncestors (w : World σ) (s : TypeId) (new : List TypeId) :
    w.KeepsTypes writes (w.setAncestors s new) := by
  have hlater := w.later_setAncestors s new
  obtain ⟨types, heq⟩ := w.setAncestors_eq s new
  rw [heq] at hlater ⊢
  exact .of_later hlater rfl rfl fun _ _ _ => .inl

/-- A new type has no objects yet. -/
theorem keepsTypes_declareType (w : World σ) (cell : TypeDecl) (ancestors : List TypeId) :
    w.KeepsTypes writes (w.declareType cell ancestors).2 := by
  have hlater := w.later_declareType cell ancestors
  obtain ⟨types, heq⟩ := setAncestors_eq (w.newType { cell with ancestors := [], subtypes := [] }).2
    ⟨w.types.size⟩ ancestors
  have hworld : (w.declareType cell ancestors).2 = { w with types := types } := heq
  rw [hworld] at hlater ⊢
  exact .of_later hlater rfl rfl fun _ _ _ => .inl

/-- Members have no part in layouts either. -/
theorem keepsTypes_setMember (w : World σ) (t : TypeId) (name : String) (m : Member) :
    w.KeepsTypes writes (w.setMember t name m) := by
  have hform : w.SameForm (w.setMember t name m) := w.sameForm_putType t _ rfl rfl rfl
  have hlater : w.Later (w.setMember t name m) :=
    hform.later (Nat.le_refl _) (Nat.le_refl _) (w.types.size_le_size_set _ _) (Nat.le_refl _)
  exact .of_later hlater rfl rfl fun _ _ _ => .inl

/-- A table may be put in place of another if its values exist. -/
theorem keepsTypes_replaceExports {w : World σ} {u : UnitId} {table : Table Value}
    (htable : ∀ x v, table.get? x = some v → w.export? u x = some v ∨ w.isBacked v = true) :
    w.KeepsTypes writes (w.replaceExports u table) := by
  refine .of_later (w.later_replaceExports u table) rfl rfl fun h x v hv => ?_
  rw [export?, exports_replaceExports] at hv
  split at hv
  · next heq =>
    rw [heq]
    exact htable x v hv
  · exact .inl hv

/-- One export may change, if the new value exists. -/
theorem keepsTypes_setExport {w : World σ} (u : UnitId) (x : String) {v : Value}
    (hv : w.isBacked v = true) : w.KeepsTypes writes (w.setExport u x v) := by
  refine keepsTypes_replaceExports fun y a ha => ?_
  rw [Table.get?_insert] at ha
  split at ha
  · exact .inr (Option.some.inj ha ▸ hv)
  · exact .inl ha

/-- A recompiled table may be installed if its values exist. -/
theorem keepsTypes_install {w : World σ} (mode : InstallMode) (u : UnitId) {table : Table Value}
    (htable : ∀ x v, table.get? x = some v → w.isBacked v = true) :
    w.KeepsTypes writes (w.install mode u table) := by
  cases mode with
  | merge =>
    refine keepsTypes_replaceExports fun x v hv => ?_
    rw [Table.get?_merge] at hv
    exact (Option.or_eq_some_iff.mp hv).elim (fun h => .inr (htable x v h)) fun h => .inl h.2
  | replace => exact keepsTypes_replaceExports fun x v hv => .inr (htable x v hv)

/-- A step that writes objects only, and in them what exists. -/
theorem Grounded.of_objects {w w' : World σ} (hw : w.Grounded) (hlater : w.Later w')
    (hunits : w'.units = w.units) (hcallables : w'.callables = w.callables)
    (htypes : ∀ o, o.index < w'.objects.size → (w'.object o).type.index < w.types.size)
    (hfields : ∀ o x v, w'.field? o x = some v → w.field? o x = some v ∨ w.isBacked v = true) :
    w'.Grounded where
  types o ho := Nat.lt_of_lt_of_le (htypes o ho) hlater.types
  -- exports and bodies are as before, so only types and fields had to be shown
  exports u x v hv := by
    rw [export?, World.exports, unit, hunits] at hv
    exact hlater.isBacked (hw.exports u x v hv)
  fields o x v hv := hlater.isBacked ((hfields o x v hv).elim (hw.fields o x v) id)
  bodies c := by
    rw [callable, hcallables]
    exact hlater.backs (hw.bodies c)

/-- A new object takes the next place, with the given type and no fields. -/
theorem object_newObject (w : World σ) (t : TypeId) (o : ObjectId) :
    (w.newObject t).2.object o = if o = (w.newObject t).1 then ⟨t, .empty⟩ else w.object o := by
  obtain ⟨i⟩ := o
  simp only [newObject, ObjectId.mk.injEq]
  exact w.objects.get_alloc _ i

theorem lt_size_objects_newObject (w : World σ) (t : TypeId) :
    (w.newObject t).1.index < (w.newObject t).2.objects.size := by
  rw [newObject, Store.size_alloc]
  exact Nat.lt_succ_self _

/-- Objects that are there are not changed by it. -/
theorem object_newObject_of_lt {w : World σ} {o : ObjectId} (t : TypeId)
    (ho : o.index < w.objects.size) : (w.newObject t).2.object o = w.object o :=
  w.objects.get_alloc_of_lt _ ho

/-- The other objects do not notice a new one. -/
theorem keepsTypes_newObject {w : World σ} {t : TypeId} (ht : t.index < w.types.size) :
    w.KeepsTypes writes (w.newObject t).2 := by
  have hlater : w.Later (w.newObject t).2 :=
    later_of_stores rfl rfl rfl (Nat.le_of_lt (w.lt_size_objects_newObject t))
  refine ⟨hlater, fun hw => hw.of_objects hlater rfl rfl (fun o ho => ?_) fun o x v hv => ?_,
    fun o ho => by rw [object_newObject_of_lt t ho],
    fun o ho => by rw [unwritten, object_newObject_of_lt t ho, unwritten]⟩
  · rw [object_newObject]
    split
    · exact ht
    · -- this object has been there before
      next hne =>
      rw [newObject, Store.size_alloc] at ho
      have hold : o.index < w.objects.size :=
        (Nat.lt_succ_iff_lt_or_eq.mp ho).resolve_right fun h => hne (congrArg ObjectId.mk h)
      exact hw.types o hold
  · rw [field?, object_newObject] at hv
    split at hv
    · cases hv
    · exact .inl hv

/-- A field is written where that is expected. -/
theorem keepsTypes_setField {w : World σ} {o : ObjectId} {x : String}
    (ho : o.index < w.objects.size) (hwrites : writes o x = true) {v : Value}
    (hv : w.isBacked v = true) : w.KeepsTypes writes (w.setField o x v) := by
  have hobject : ∀ p, (w.setField o x v).object p =
      if p = o then ⟨(w.object o).type, (w.object o).fields.insert x v⟩ else w.object p :=
    fun p => object_putObject w o p _
  have hsize : (w.setField o x v).objects.size = w.objects.size := w.objects.size_set_of_lt ho _
  have hlater : w.Later (w.setField o x v) := later_of_stores rfl rfl rfl (Nat.le_of_eq hsize.symm)
  -- a write of a field leaves every type as it is
  have htype : ∀ p, ((w.setField o x v).object p).type = (w.object p).type := by
    intro p
    rw [hobject]
    split
    · next h => rw [h]
    · rfl
  refine ⟨hlater, fun hw => hw.of_objects hlater rfl rfl (fun p hp => ?_) fun p y a ha => ?_,
    fun p _ => htype p, fun p _ => ?_⟩
  · rw [htype]
    exact hw.types p (hsize ▸ hp)
  · rw [field?, hobject] at ha
    split at ha
    · next h =>
      rw [Table.get?_insert] at ha
      split at ha
      · -- the field that is written has the new value
        exact .inr (Option.some.inj ha ▸ hv)
      · exact .inl (h ▸ ha)
    · exact .inl ha
  · rw [unwritten, unwritten, hobject]
    split
    · next h =>
      rw [h]
      -- the fields that must not be written are filtered, and this is not one of them
      exact Table.filter_entries_insert _ v fun _ => by rw [hwrites]; rfl
    · rfl

/-! ### Retargeting -/

/-- The world after an object has been told to take on another type, whether it has or not. -/
def retargeted (w : World σ) (o : ObjectId) (t : TypeId) : World σ :=
  match w.retarget o t with
  | .ok w' => w'
  | .error _ => w

/-- **A move that nothing stands in the way of keeps storage.** -/
theorem keepsStorage_setTypeOf {w : World σ} (hw : w.Grounded) {o : ObjectId} {t : TypeId}
    (ht : t.index < w.types.size) (hfree : w.retypeError? (w.object o).type t = none) :
    w.KeepsStorage writes (w.setTypeOf o t) := by
  have hlater : w.Later (w.setTypeOf o t) :=
    later_of_stores rfl rfl rfl (w.objects.size_le_size_set _ _)
  have htype : ∀ p, ((w.setTypeOf o t).object p).type =
      if p = o then t else (w.object p).type := by
    intro p
    rw [setTypeOf, object_putObject]
    split <;> rfl
  refine ⟨hlater, hw.of_objects hlater rfl rfl (fun p _ => ?_) (fun p x v hv => .inl ?_),
    fun p _ => ?_, fun p _ => ?_⟩
  · rw [htype]
    split
    · exact ht
    · by_cases hp : p.index < w.objects.size
      · exact hw.types p hp
      · -- a cell that is not there reads as an object of the first type
        have hdefault : w.object p = default := w.objects.get_of_size_le (Nat.le_of_not_lt hp)
        rw [hdefault]
        exact Nat.lt_of_le_of_lt (Nat.zero_le _) ht
  · rwa [field?, fields_setTypeOf] at hv
  · rw [htype]
    split
    · next h =>
      rw [h]
      exact .of_retypeError? hfree
    · exact .refl _ _
  · rw [unwritten, unwritten, fields_setTypeOf]

/-- To ask for another type keeps storage: the type is refused, or it agrees on the layout. -/
theorem keepsStorage_retargeted {w : World σ} (hw : w.Grounded) (o : ObjectId) {t : TypeId}
    (ht : t.index < w.types.size) : w.KeepsStorage writes (w.retargeted o t) := by
  unfold retargeted retarget
  cases hfree : w.retypeError? (w.object o).type t with
  | none => exact keepsStorage_setTypeOf hw ht hfree
  | some e => exact .refl hw

/-! ### Registration -/

/-- A registration changes a heap and nothing else. -/
theorem keepsTypes_registerAtHome [Host σ] (w : World σ) (t : TypeId) (o : ObjectId) :
    w.KeepsTypes writes (w.registerAtHome t o) := by
  unfold registerAtHome
  split
  · next u _ =>
    unfold register
    split <;> exact .of_stores rfl rfl rfl rfl
  · exact .of_stores rfl rfl rfl rfl

end World

end HotReload
