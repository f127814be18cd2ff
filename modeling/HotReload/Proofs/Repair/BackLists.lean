import HotReload.Proofs.Repair.Propagation
import HotReload.Proofs.World.Operations
import HotReload.Proofs.World.Reachability
import HotReload.Proofs.Reload.Recompilers
import Mathlib.Logic.Relation

/-!
# Back-lists

A repair finds the types whose ancestors it has to rewrite through back-lists, and it rewrites
back-lists while it goes through them. That it misses none rests on one property: the two sides of
the ancestor relation **mirror** each other (`World.Mirrored`). A type is in exactly the back-lists
of its ancestors, however often it lists them, and it is there once.

No step that a program can take breaks the mirror. New types and new ancestor lists write both
sides, whatever the lists are: with repetitions, with the type itself, or with a cycle. A repair
writes ancestor lists in no other way. All other steps, deaths among them, leave both sides alone
(`World.TypeStep`).
-/

namespace HotReload

variable {σ : Type}

namespace World

/-- **Mirrored.** Back-lists list those types that list them, once each. -/
structure Mirrored (w : World σ) : Prop where
  mem_iff : ∀ s t, s ∈ (w.type t).subtypes ↔ t ∈ w.ancestors s
  nodup : ∀ t, (w.type t).subtypes.Nodup

/-- The worlds agree in all ancestor lists and in all back-lists. -/
structure SameLists (w w' : World σ) : Prop where
  ancestors : ∀ t, w'.ancestors t = w.ancestors t
  subtypes : ∀ t, (w'.type t).subtypes = (w.type t).subtypes

namespace SameLists

variable {w w' w'' : World σ}

theorem refl (w : World σ) : w.SameLists w := ⟨fun _ => rfl, fun _ => rfl⟩

theorem trans (h : w.SameLists w') (h' : w'.SameLists w'') : w.SameLists w'' where
  ancestors t := (h'.ancestors t).trans (h.ancestors t)
  subtypes t := (h'.subtypes t).trans (h.subtypes t)

/-- Types that are not written keep both lists. -/
theorem of_types (h : w'.types = w.types) : w.SameLists w' where
  ancestors t := by rw [World.ancestors, World.ancestors, type, type, h]
  subtypes t := by rw [type, type, h]

end SameLists

/-- Whether lists mirror each other depends on the lists alone. -/
theorem Mirrored.of_sameLists {w w' : World σ} (hw : w.Mirrored) (h : w.SameLists w') :
    w'.Mirrored where
  mem_iff s t := by
    rw [h.subtypes, h.ancestors]
    exact hw.mem_iff s t
  nodup t := by
    rw [h.subtypes]
    exact hw.nodup t

/-- Without types there is nothing to mirror. -/
theorem mirrored_initial (host : σ) : (initial host).Mirrored := by
  -- there is no type, and what is not there has empty lists
  have hdefault : ∀ t, (initial host).type t = default :=
    fun t => Store.get_of_size_le _ (Nat.zero_le _)
  refine ⟨fun s t => ?_, fun t => ?_⟩
  · rw [ancestors, hdefault, hdefault]
    exact ⟨fun h => (List.not_mem_nil h).elim, fun h => (List.not_mem_nil h).elim⟩
  · rw [hdefault]
    exact List.nodup_nil

/-! ### New ancestors -/

/-- A subtype is entered only if it is not there. -/
theorem nodup_subtypes_addSubtype {w : World σ} (hw : ∀ r, (w.type r).subtypes.Nodup)
    (t s r : TypeId) : ((w.addSubtype t s).type r).subtypes.Nodup := by
  unfold addSubtype
  split
  · exact hw r
  · next h =>
    rw [List.contains_iff_mem] at h
    rw [type_putType]
    split
    · exact List.nodup_append.mpr ⟨hw t, List.nodup_singleton s, fun a ha b hb hab =>
        h (List.mem_singleton.mp hb ▸ hab ▸ ha)⟩
    · exact hw r

/-- To drop a subtype repeats none. -/
theorem nodup_subtypes_dropSubtype {w : World σ} (hw : ∀ r, (w.type r).subtypes.Nodup)
    (t s r : TypeId) : ((w.dropSubtype t s).type r).subtypes.Nodup := by
  unfold dropSubtype
  rw [type_putType]
  split
  · exact (hw t).filter _
  · exact hw r

/-- Several such steps repeat none either. -/
theorem nodup_subtypes_foldl {f : World σ → TypeId → World σ}
    (hf : ∀ w t, (∀ r, (w.type r).subtypes.Nodup) → ∀ r, ((f w t).type r).subtypes.Nodup)
    (ts : List TypeId) {w : World σ} (hw : ∀ r, (w.type r).subtypes.Nodup) (r : TypeId) :
    ((ts.foldl f w).type r).subtypes.Nodup := by
  induction ts generalizing w with
  | nil => exact hw r
  | cons t ts ih => exact ih (hf w t hw)

/-- **New ancestors keep the mirror**, whatever they are. -/
theorem mirrored_setAncestors {w : World σ} (hw : w.Mirrored) (s : TypeId) (new : List TypeId) :
    (w.setAncestors s new).Mirrored where
  mem_iff r t := by
    rw [mem_subtypes_setAncestors w s new (hw.mem_iff s), ancestors_setAncestors]
    split
    · rfl
    · exact hw.mem_iff r t
  nodup r := by
    -- the ancestors themselves are written first, and no list of subtypes
    have hput : ∀ t, ((w.putType s { w.type s with ancestors := new }).type t).subtypes.Nodup := by
      intro t
      rw [type_putType]
      split
      · exact hw.nodup s
      · exact hw.nodup t
    unfold setAncestors
    exact nodup_subtypes_foldl (fun w t h => nodup_subtypes_addSubtype h t s) _
      (nodup_subtypes_foldl (fun w t h => nodup_subtypes_dropSubtype h t s) _ hput) r

/-- A new type starts without relations, and nothing has been related to it before. -/
theorem sameLists_newType (w : World σ) (cell : TypeDecl) :
    w.SameLists (w.newType { cell with ancestors := [], subtypes := [] }).2 := by
  -- a type that is not there has no ancestors and no subtypes
  have hnew : w.type ⟨w.types.size⟩ = default := w.types.get_of_size_le (Nat.le_refl _)
  refine ⟨fun t => ?_, fun t => ?_⟩
  · rw [ancestors, ancestors, type_newType]
    split
    · next h =>
      rw [h, hnew]
      rfl
    · rfl
  · rw [type_newType]
    split
    · next h =>
      rw [h, hnew]
      rfl
    · rfl

/-- A declaration is a new type followed by new ancestors. -/
theorem mirrored_declareType {w : World σ} (hw : w.Mirrored) (cell : TypeDecl)
    (ancestors : List TypeId) : (w.declareType cell ancestors).2.Mirrored :=
  mirrored_setAncestors (hw.of_sameLists (w.sameLists_newType cell)) _ ancestors

/-! ### Repairs -/

/-- A slot is no list of types. -/
theorem sameLists_repoint (w : World σ) (t : ExternalBinding × Definition) :
    w.SameLists (w.repoint t).1 := by
  by_cases hacts : w.Acts t
  · rw [repoint_of_acts hacts]
    exact .of_types rfl
  · rw [repoint_of_not_acts hacts]
    exact .refl w

/-- Nor is the type of an object. -/
theorem sameLists_retargetObject (new : TypeId) (w : World σ) (o : ObjectId) :
    w.SameLists (retargetObject new w o).1 := by
  rw [retargetObject_fst]
  split
  · exact .of_types rfl
  · exact .refl w

/-- New ancestors keep the mirror, whatever they are put in place of. -/
theorem mirrored_repointAncestors {w : World σ} (hw : w.Mirrored) (new s : TypeId) :
    (repointAncestors new w s).1.Mirrored := by
  unfold repointAncestors
  split
  · exact mirrored_setAncestors hw s _
  · exact hw

variable [Host σ]

/-- The repair for one type rewrites ancestors and then objects. -/
theorem mirrored_repairType {w : World σ} (hw : w.Mirrored) (s : Session) (types : List TypeId)
    (old : TypeId) : (repairType s types w old).1.Mirrored := by
  obtain ⟨-, h⟩ | ⟨-, h⟩ | ⟨new, -, -, h⟩ := repairType_cases s types w old <;> rw [h]
  · exact hw
  · exact hw
  · have hsubtypes : (w.repointSubtypes old new).1.Mirrored :=
      repairEach_preserves hw fun r _ v hv => mirrored_repointAncestors hv new r
    exact hsubtypes.of_sameLists (repairEach_related SameLists.refl SameLists.trans _ _
      fun o _ v => v.sameLists_retargetObject new o)

omit [Host σ] in
/-- The bindings of a repair touch no list of types. -/
theorem sameLists_withBindings (w : World σ) (s : Session) (u : UnitId) :
    w.SameLists (w.withBindings s u).1 :=
  (SameLists.of_types rfl : w.SameLists (w.pin (w.keptFor u))).trans
    (repairEach_related SameLists.refl SameLists.trans (s.repointings w u) (w.pin (w.keptFor u))
      fun t _ v => v.sameLists_repoint t)

theorem mirrored_repair {w : World σ} (hw : w.Mirrored) (s : Session) (u : UnitId) :
    (w.repair s u).1.Mirrored := by
  have htypes : (repairTypes s (w.unit u).name (typesAmong (w.ownExports u))
      (w.withBindings s u).1).1.Mirrored :=
    repairEach_preserves (hw.of_sameLists (w.sameLists_withBindings s u))
      fun old _ v hv => mirrored_repairType hv s _ old
  rw [repair_eq]
  exact htypes.of_sameLists (.of_types rfl)

/-- **A propagation keeps the mirror**, whatever its session has recorded. -/
theorem mirrored_propagate {w : World σ} (hw : w.Mirrored) (s : Session) (us : List UnitId) :
    (s.propagate us w).2.2.Mirrored := by
  rw [(s.propagate_eq_repairEach us w).2]
  exact repairEach_preserves hw fun u _ v hv => mirrored_repair hv s u

/-! ### Runs -/

/-- **A step of a program**, by what it does to types. -/
inductive TypeStep : World σ → World σ → Prop where
  | declare (w : World σ) (cell : TypeDecl) (ancestors : List TypeId) :
    TypeStep w (w.declareType cell ancestors).2
  | rewrite (w : World σ) (s : TypeId) (new : List TypeId) : TypeStep w (w.setAncestors s new)
  | propagate (w : World σ) (s : Session) (us : List UnitId) : TypeStep w (s.propagate us w).2.2
  /-- Something else: units, objects, exports, pins or the host change, and types come to life or
  die by that. -/
  | elsewhere {w w' : World σ} (h : w.SameLists w') : TypeStep w w'

theorem TypeStep.mirrored {w w' : World σ} (h : w.TypeStep w') (hw : w.Mirrored) :
    w'.Mirrored := by
  cases h with
  | declare cell ancestors => exact mirrored_declareType hw cell ancestors
  | rewrite s new => exact mirrored_setAncestors hw s new
  | propagate s us => exact mirrored_propagate hw s us
  | elsewhere h => exact hw.of_sameLists h

/-- **Every world that has come about mirrors its lists**, by induction on how it has. -/
theorem mirrored_of_run {host : σ} {w : World σ}
    (h : Relation.ReflTransGen TypeStep (initial host) w) : w.Mirrored := by
  induction h with
  | refl => exact mirrored_initial host
  | tail _ hstep ih => exact hstep.mirrored ih

/-- **Subtypes are the other side of ancestors** in every world that a program gets to: a type reads
as its subtypes the living types that list it, each of them once. -/
theorem mem_subtypes_of_run {host : σ} {w : World σ}
    (h : Relation.ReflTransGen TypeStep (initial host) w) (t : TypeId) :
    (∀ s, s ∈ w.subtypes t ↔ w.Reaches (.type s) ∧ t ∈ w.ancestors s) ∧ (w.subtypes t).Nodup := by
  have hw := mirrored_of_run h
  refine ⟨fun s => ?_, (hw.nodup t).filter _⟩
  rw [mem_subtypes, hw.mem_iff, and_comm]

end World

/-! ### A tangled hierarchy -/

namespace Scenario.TwoUnits

/-- A type `C` that lists itself, exported by `b`, and a type `D` that lists `C` twice, exported by
`a`. -/
def tangled : World Fixture :=
  let (c, w) := bare.declareType ⟨"b", "C", ⟨0⟩, .dynamic, [], [], .empty⟩ []
  let (d, w) := w.declareType ⟨"a", "D", ⟨1⟩, .dynamic, [], [], .empty⟩ [c, c]
  ((w.setAncestors c [c]).setExport ⟨0⟩ "C" (.type c)).setExport ⟨1⟩ "D" (.type d)

/-- A session opened on `b` in the tangled world. -/
def tangledSession : Session :=
  match (Session.start tangled [⟨0⟩] ⟨0⟩ (.heapOf ⟨0⟩) .standard).1 with
  | .ok s => s
  | .error _ => default

/-- The tangled world with a new `C` that derives from `D`. -/
def retangled : World Fixture :=
  let (c, w) := tangled.declareType ⟨"b", "C", ⟨0⟩, .dynamic, [], [], .empty⟩ [⟨1⟩]
  w.setExport ⟨0⟩ "C" (.type c)

/-- The repair makes a cycle of the two types, and the old `C`, which lists the new one by now,
dies. -/
theorem mem_subtypes_of_run_tangled :
    let w := (tangledSession.propagate [⟨0⟩] retangled).2.2
    Relation.ReflTransGen World.TypeStep (World.initial default) w ∧
      (∀ s, s ∈ w.subtypes ⟨2⟩ ↔ w.Reaches (.type s) ∧ ⟨2⟩ ∈ w.ancestors s) ∧
      w.subtypes ⟨2⟩ = [⟨1⟩] ∧ (w.type ⟨2⟩).subtypes = [⟨1⟩, ⟨0⟩] ∧
      w.ancestors ⟨1⟩ = [⟨2⟩, ⟨2⟩] ∧ w.ancestors ⟨2⟩ = [⟨1⟩] := by
  have hbare : World.TypeStep (World.initial default) bare := .elsewhere (.of_types rfl)
  -- construction with a repetition, then a list with the type itself
  have hdeclared := ((Relation.ReflTransGen.single hbare).tail
    (.declare bare ⟨"b", "C", ⟨0⟩, .dynamic, [], [], .empty⟩ [])).tail
    (.declare _ ⟨"a", "D", ⟨1⟩, .dynamic, [], [], .empty⟩ [⟨0⟩, ⟨0⟩])
  have htangled : Relation.ReflTransGen World.TypeStep (World.initial default) tangled :=
    (hdeclared.tail (.rewrite _ ⟨0⟩ [⟨0⟩])).tail (.elsewhere (.of_types rfl))
  have hretangled : Relation.ReflTransGen World.TypeStep (World.initial default) retangled :=
    (htangled.tail (.declare tangled ⟨"b", "C", ⟨0⟩, .dynamic, [], [], .empty⟩ [⟨1⟩])).tail
      (.elsewhere (.of_types rfl))
  refine ⟨hretangled.tail (.propagate _ _ _),
    (World.mem_subtypes_of_run (hretangled.tail (.propagate _ _ _)) ⟨2⟩).1, ?_, ?_, ?_, ?_⟩
  all_goals decide +kernel

end Scenario.TwoUnits

end HotReload
