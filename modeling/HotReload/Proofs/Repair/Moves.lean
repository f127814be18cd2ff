import HotReload.Proofs.Repair.Propagation

/-!
# Objects under propagation

A *move* is an object together with the type that it shall have. It is refused if the storage of the
two types does not agree, and then the object keeps its type. A list of moves that names no object
with two different types (`World.OneTarget`) can be carried out in one pass, and the outcome can be
told object by object from the world in which the pass starts:

* an object ends up with the type meant for it unless the move is refused (`World.type_moveEach`);
* an object without a move keeps its type (`World.object_moveEach_of_notMem`);
* there is a rejection among the deeds for each move that is refused
  (`World.mem_deeds_moveEach`).

As far as objects go, a propagation is such a pass (`Session.propagate_moves`): types and exports
are written beside it, and neither has a part in what becomes of an object.
-/

namespace HotReload

variable {σ : Type}

/-- True of the events of a pass over objects. -/
def Event.concernsObject : Event → Bool
  | objectRetargeted _ | retypeRejected _ _ => true
  | _ => false

namespace World

/-! ### One move -/

/-- Gives an object the type that it is paired with. -/
def move (w : World σ) (m : ObjectId × TypeId) : World σ × List Deed := retargetObject m.2 w m.1

/-- What stands in the way of a move. -/
def refusal? (w : World σ) (m : ObjectId × TypeId) : Option RetypeError :=
  w.retypeError? (w.object m.1).type m.2

/-- No object is to be given two different types. -/
def OneTarget (ms : List (ObjectId × TypeId)) : Prop := ∀ m ∈ ms, ∀ m' ∈ ms, m.1 = m'.1 → m = m'

theorem sameForm_move (w : World σ) (m : ObjectId × TypeId) : w.SameForm (w.move m).1 :=
  w.sameForm_retargetObject m.2 m.1

/-- **Types of one storage.** Both keep fields in the same way, and not in storage of the host. -/
def SharesStorage (w : World σ) (t t' : TypeId) : Prop :=
  (w.type t).layout = (w.type t').layout ∧ (w.type t).layout ≠ .native ∧
    (w.type t').layout ≠ .native

instance (w : World σ) (t t' : TypeId) : Decidable (w.SharesStorage t t') :=
  inferInstanceAs (Decidable (_ ∧ _))

theorem retypeError?_self (w : World σ) (t : TypeId) : w.retypeError? t t = none := if_pos rfl

/-- Nothing stands between types of one storage, nor between a type and itself. -/
theorem retypeError?_eq_none_iff {w : World σ} {t t' : TypeId} :
    w.retypeError? t t' = none ↔ t = t' ∨ w.SharesStorage t t' := by
  unfold retypeError? SharesStorage
  by_cases heq : t = t'
  · simp [heq]
  · cases (w.type t).layout <;> cases (w.type t').layout <;> simp [heq, Layout.agrees]

/-- No object is refused the type that it has. -/
theorem refusal?_of_type {w : World σ} {m : ObjectId × TypeId} (h : (w.object m.1).type = m.2) :
    w.refusal? m = none := by
  rw [refusal?, h, retypeError?_self]

/-- A move gives its object the new type unless it is refused. -/
theorem type_move_self (w : World σ) (m : ObjectId × TypeId) :
    ((w.move m).1.object m.1).type =
      if w.refusal? m = none then m.2 else (w.object m.1).type := by
  have hset : ((w.setTypeOf m.1 m.2).object m.1).type = m.2 := by
    rw [setTypeOf, object_putObject, if_pos rfl]
  rw [move, retargetObject_fst]
  -- an object that has the type already is left alone, and nothing stands in its way
  by_cases h : (w.object m.1).type = m.2
  · rw [if_neg fun hc => hc.1 h, refusal?_of_type h, if_pos rfl, h]
  · by_cases hfree : w.retypeError? (w.object m.1).type m.2 = none
    · rw [if_pos ⟨h, hfree⟩, refusal?, if_pos hfree, hset]
    · rw [if_neg fun hc => hfree hc.2, refusal?, if_neg hfree]

/-- A move concerns one object. -/
theorem object_move_of_ne (w : World σ) {m : ObjectId × TypeId} {o : ObjectId} (h : m.1 ≠ o) :
    (w.move m).1.object o = w.object o := by
  rw [move, retargetObject_fst]
  split
  · rw [setTypeOf, object_putObject, if_neg (Ne.symm h)]
  · rfl

/-- An object keeps its fields, whether it moves or not. -/
theorem fields_move (w : World σ) (m : ObjectId × TypeId) (o : ObjectId) :
    ((w.move m).1.object o).fields = (w.object o).fields := by
  rw [move, retargetObject_fst]
  split
  · exact w.fields_setTypeOf m.1 o m.2
  · rfl

/-- A move that has been made, or has been refused, is made or refused in the same way again. -/
theorem refusal?_move_self (w : World σ) (m : ObjectId × TypeId) :
    (w.move m).1.refusal? m = w.refusal? m := by
  rw [refusal?, (w.sameForm_move m).retypeError?, type_move_self]
  split
  · next h => rw [retypeError?_self, h]
  · rfl

/-- Whether a move is refused does not depend on moves of other objects. -/
theorem refusal?_move_of_ne (w : World σ) {m m' : ObjectId × TypeId} (h : m'.1 ≠ m.1) :
    (w.move m').1.refusal? m = w.refusal? m := by
  rw [refusal?, (w.sameForm_move m').retypeError?, w.object_move_of_ne h, refusal?]

/-- What a move shows concerns an object. -/
theorem concernsObject_move (w : World σ) (m : ObjectId × TypeId) :
    ∀ d ∈ (w.move m).2, d.event.concernsObject = true := by
  intro d hd
  unfold move retargetObject at hd
  split at hd
  · cases hd
  · split at hd <;> rw [List.mem_singleton.mp hd] <;> rfl

/-- The rejections that a move tells of. -/
theorem mem_deeds_move {w : World σ} {m : ObjectId × TypeId} {name reason : String} :
    .retypeRejected name reason ∈ (w.move m).2.map Deed.event ↔
      ∃ e, w.refusal? m = some e ∧ name = (w.typeName m.2).text ∧ reason = e.message := by
  unfold move retargetObject
  split
  · next h =>
    -- an object that has the type is not asked
    rw [refusal?_of_type h]
    simp
  · unfold retarget refusal?
    cases w.retypeError? (w.object m.1).type m.2 with
    | none => simp
    | some e => simp

/-! ### A pass of moves -/

/-- A pass over moves. -/
def moveEach (ms : List (ObjectId × TypeId)) (w : World σ) : World σ × List Deed :=
  repairEach move ms w

theorem moveEach_cons (m : ObjectId × TypeId) (ms : List (ObjectId × TypeId)) (w : World σ) :
    moveEach (m :: ms) w =
      ((moveEach ms (w.move m).1).1, (w.move m).2 ++ (moveEach ms (w.move m).1).2) :=
  rfl

theorem moveEach_append (ms ms' : List (ObjectId × TypeId)) (w : World σ) :
    moveEach (ms ++ ms') w =
      ((moveEach ms' (moveEach ms w).1).1,
        (moveEach ms w).2 ++ (moveEach ms' (moveEach ms w).1).2) :=
  repairEach_append move ms ms' w

/-- Some of the moves have one target for each object if all of them do. -/
theorem OneTarget.subset {as ms : List (ObjectId × TypeId)} (h : OneTarget ms)
    (hsub : ∀ m ∈ as, m ∈ ms) : OneTarget as :=
  fun a ha b hb => h a (hsub a ha) b (hsub b hb)

/-- In a list that names no object with two types, a move is not affected by another one. -/
theorem OneTarget.refusal?_move {m m' : ObjectId × TypeId} {ms : List (ObjectId × TypeId)}
    (hone : OneTarget ms) (hm : m ∈ ms) (hm' : m' ∈ ms) (w : World σ) :
    (w.move m').1.refusal? m = w.refusal? m := by
  by_cases h : m'.1 = m.1
  · rw [hone m' hm' m hm h, refusal?_move_self]
  · exact w.refusal?_move_of_ne h

theorem sameForm_moveEach (ms : List (ObjectId × TypeId)) (w : World σ) :
    w.SameForm (moveEach ms w).1 :=
  repairEach_related SameForm.refl SameForm.trans ms w fun m _ v => v.sameForm_move m

/-- An object without a move in the pass stays as it is. -/
theorem object_moveEach_of_notMem {ms : List (ObjectId × TypeId)} {o : ObjectId}
    (h : ∀ m ∈ ms, m.1 ≠ o) (w : World σ) : (moveEach ms w).1.object o = w.object o := by
  induction ms generalizing w with
  | nil => rfl
  | cons m ms ih =>
    rw [List.forall_mem_cons] at h
    rw [moveEach_cons, ih h.2, w.object_move_of_ne h.1]

/-- No pass touches fields. -/
theorem fields_moveEach (ms : List (ObjectId × TypeId)) (w : World σ) (o : ObjectId) :
    ((moveEach ms w).1.object o).fields = (w.object o).fields :=
  repairEach_related (R := fun v v' => (v'.object o).fields = (v.object o).fields) (fun _ => rfl)
    (fun h h' => h'.trans h) ms w fun m _ v => v.fields_move m o

/-- A move is refused after other moves of the pass exactly if it was before. -/
theorem refusal?_moveEach {ms as : List (ObjectId × TypeId)} (hone : OneTarget ms)
    {m : ObjectId × TypeId} (hm : m ∈ ms) (has : ∀ a ∈ as, a ∈ ms) (w : World σ) :
    (moveEach as w).1.refusal? m = w.refusal? m :=
  repairEach_preserves (P := fun v => v.refusal? m = w.refusal? m) rfl
    fun a ha v hv => (hone.refusal?_move hm (has a ha) v).trans hv

/-- **An object is moved** unless the move is refused. -/
theorem type_moveEach {ms : List (ObjectId × TypeId)} (hone : OneTarget ms) (w : World σ)
    {m : ObjectId × TypeId} (hm : m ∈ ms) :
    ((moveEach ms w).1.object m.1).type =
      if w.refusal? m = none then m.2 else (w.object m.1).type := by
  induction ms generalizing w with
  | nil => cases hm
  | cons a ms ih =>
    have hrefusal := hone.refusal?_move hm List.mem_cons_self w
    rw [moveEach_cons]
    by_cases hmem : m ∈ ms
    · rw [ih (hone.subset fun b hb => List.mem_cons_of_mem a hb) _ hmem, hrefusal]
      by_cases h : a.1 = m.1
      · -- named again: what the first move did is not undone
        obtain rfl := hone a List.mem_cons_self m hm h
        rw [type_move_self]
        split <;> rfl
      · rw [w.object_move_of_ne h]
    · -- named here for the last time
      obtain rfl := (List.mem_cons.mp hm).resolve_right hmem
      have hother : ∀ b ∈ ms, b.1 ≠ m.1 := by
        intro b hb hc
        obtain rfl := hone b (List.mem_cons_of_mem m hb) m hm hc
        exact hmem hb
      rw [object_moveEach_of_notMem hother, type_move_self]

theorem concernsObject_moveEach (ms : List (ObjectId × TypeId)) (w : World σ) :
    ∀ d ∈ (moveEach ms w).2, d.event.concernsObject = true :=
  forall_deeds_repairEach fun m _ v => v.concernsObject_move m

/-- **Rejections** are of moves that are refused where the pass starts. -/
theorem mem_deeds_moveEach {ms : List (ObjectId × TypeId)} (hone : OneTarget ms) {w : World σ}
    {name reason : String} :
    .retypeRejected name reason ∈ (moveEach ms w).2.map Deed.event ↔
      ∃ m ∈ ms, ∃ e, w.refusal? m = some e ∧ name = (w.typeName m.2).text ∧ reason = e.message := by
  -- no move of the list changes what stands in the way of another one
  refine mem_deeds_repairEach_iff
    (P := fun v => w.SameForm v ∧ ∀ m ∈ ms, v.refusal? m = w.refusal? m) ⟨.refl w, fun _ _ => rfl⟩
    (fun a ha v hv => ⟨hv.1.trans (v.sameForm_move a), fun m hm => ?_⟩) fun m hm v hv => ?_
  · exact (hone.refusal?_move hm ha v).trans (hv.2 m hm)
  · rw [mem_deeds_move, hv.2 m hm, hv.1.typeName]

/-! ### Moves in different worlds -/

/-- A move sees nothing of a world but its objects and what cells keep. -/
theorem move_congr {w v : World σ} (hobjects : v.objects = w.objects) (hform : w.SameForm v)
    (m : ObjectId × TypeId) :
    (v.move m).1.objects = (w.move m).1.objects ∧ (v.move m).2 = (w.move m).2 := by
  have hobject : v.object m.1 = w.object m.1 := by rw [object, object, hobjects]
  unfold move retargetObject
  rw [hobject]
  split
  · exact ⟨hobjects, rfl⟩
  · -- the test reads names and layouts, which are the same in both worlds
    unfold retarget
    rw [hobject, hform.retypeError?, hform.typeName]
    cases w.retypeError? (w.object m.1).type m.2 with
    | none =>
      refine ⟨?_, rfl⟩
      change v.objects.set _ { v.object m.1 with type := m.2 } = w.objects.set _ _
      rw [hobjects, hobject]
    | some e => exact ⟨hobjects, rfl⟩

/-- A pass of moves depends on the objects and on the form of the world only. -/
theorem moveEach_congr {w v : World σ} (hobjects : v.objects = w.objects) (hform : w.SameForm v)
    (ms : List (ObjectId × TypeId)) :
    (moveEach ms v).1.objects = (moveEach ms w).1.objects ∧
      (moveEach ms v).2 = (moveEach ms w).2 := by
  induction ms generalizing w v with
  | nil => exact ⟨hobjects, rfl⟩
  | cons m ms ih =>
    obtain ⟨hnext, hdeeds⟩ := move_congr hobjects hform m
    -- each world has kept its form, so the two still have the same
    have hform' : (w.move m).1.SameForm (v.move m).1 :=
      ((w.sameForm_move m).symm.trans hform).trans (v.sameForm_move m)
    obtain ⟨hrest, hdeeds'⟩ := ih hnext hform'
    rw [moveEach_cons, moveEach_cons, hdeeds, hdeeds']
    exact ⟨hrest, rfl⟩

end World

/-! ### The moves of a repair -/

namespace Snapshot

/-- The types that a unit owned are told by name. -/
theorem ownTypes_of_sameForm {w v : World σ} (h : w.SameForm v) (s : Snapshot) (unit : String) :
    s.ownTypes v unit = s.ownTypes w unit := by
  unfold ownTypes
  cases s.exports? unit with
  | none => rfl
  | some table => simp only [h.ownDefinitions]

/-- What a unit owned it owns still. -/
theorem owner_of_mem_ownTypes {w : World σ} {s : Snapshot} {unit : String} {t : TypeId}
    (h : t ∈ s.ownTypes w unit) : (w.type t).owner = unit := by
  cases htable : s.exports? unit with
  | none =>
    rw [ownTypes, htable] at h
    cases h
  | some table => exact ((mem_ownTypes htable).mp h).2

end Snapshot

namespace Session

/-- The moves that a repair makes for an old type, if `types` are the current ones of its unit. -/
def movesOf (s : Session) (types : List TypeId) (w : World σ) (old : TypeId) :
    List (ObjectId × TypeId) :=
  match w.successor? types old with
  | none => []
  | some new => if old = new then [] else (s.objectsOf old).map (·, new)

/-- The moves that a repair of `u` makes in a world. -/
def moves (s : Session) (w : World σ) (u : UnitId) : List (ObjectId × TypeId) :=
  (s.snapshot.ownTypes w (w.unit u).name).flatMap (s.movesOf (typesAmong (w.ownExports u)) w)

/-- The objects of a type move if it has been replaced by another one. -/
theorem mem_movesOf {s : Session} {types : List TypeId} {w : World σ} {old new : TypeId}
    {o : ObjectId} :
    (o, new) ∈ s.movesOf types w old ↔
      w.successor? types old = some new ∧ old ≠ new ∧ o ∈ s.objectsOf old := by
  unfold movesOf
  cases w.successor? types old with
  | none => simp
  | some t =>
    change (o, new) ∈ (if old = t then [] else (s.objectsOf old).map (·, t)) ↔ _
    rw [Option.some.injEq]
    -- a type that is its own successor has no moves
    by_cases h : old = t
    · rw [if_pos h]
      refine iff_of_false List.not_mem_nil ?_
      rintro ⟨rfl, hne, -⟩
      exact hne h
    · rw [if_neg h, List.mem_map]
      constructor
      · rintro ⟨o', ho, heq⟩
        obtain ⟨rfl, rfl⟩ := Prod.mk.inj heq
        exact ⟨rfl, h, ho⟩
      · rintro ⟨rfl, -, ho⟩
        exact ⟨o, ho, rfl⟩

/-- The moves of a repair, for all types of the unit. -/
theorem mem_moves {s : Session} {w : World σ} {u : UnitId} {o : ObjectId} {new : TypeId} :
    (o, new) ∈ s.moves w u ↔ ∃ old ∈ s.snapshot.ownTypes w (w.unit u).name,
      w.successor? (typesAmong (w.ownExports u)) old = some new ∧ old ≠ new ∧
        o ∈ s.objectsOf old := by
  simp only [moves, List.mem_flatMap, mem_movesOf]

/-- What objects are moved to are types that the unit owns and exports. -/
theorem mem_ownExports_of_mem_moves {s : Session} {w : World σ} {u : UnitId}
    {m : ObjectId × TypeId} (h : m ∈ s.moves w u) : ∃ x, (x, .type m.2) ∈ w.ownExports u := by
  obtain ⟨old, -, hsucc, -⟩ := mem_moves.mp h
  exact Snapshot.mem_typesAmong.mp (List.mem_of_find?_eq_some hsucc)

/-- Objects move only to types of the unit that is repaired. -/
theorem owner_of_mem_moves {s : Session} {w : World σ} {u : UnitId} {m : ObjectId × TypeId}
    (h : m ∈ s.moves w u) : (w.type m.2).owner = (w.unit u).name := by
  obtain ⟨x, hx⟩ := mem_ownExports_of_mem_moves h
  exact (w.mem_ownExports.mp hx).2

@[simp] theorem moves_note (s : Session) (unit : String) (deeds : List Deed) :
    ((s.note unit deeds).moves : World σ → _) = s.moves := rfl

/-- Which objects move is told by names, and by what the session has recorded. -/
theorem movesOf_congr {w v : World σ} (h : w.SameForm v) (s : Session) (types : List TypeId) :
    s.movesOf types v = s.movesOf types w := by
  funext old
  rw [movesOf, movesOf, h.successor?]

theorem moves_congr {s : Session} {w v : World σ} (h : w.SameForm v) {u : UnitId}
    (hown : v.ownExports u = w.ownExports u) : s.moves v u = s.moves w u := by
  rw [moves, moves, Snapshot.ownTypes_of_sameForm h, h.unitName, hown, movesOf_congr h]

end Session

namespace World

/-- A slot may change without any object. -/
theorem objects_repoint (w : World σ) (t : ExternalBinding × Definition) :
    (w.repoint t).1.objects = w.objects := by
  by_cases hacts : w.Acts t
  · rw [repoint_of_acts hacts]
    rfl
  · rw [repoint_of_not_acts hacts]

/-- So all bindings of a unit are repaired without any object. -/
theorem objects_withBindings (w : World σ) (s : Session) (u : UnitId) :
    (w.withBindings s u).1.objects = w.objects :=
  repairEach_related (R := fun v v' => v'.objects = v.objects) (fun _ => rfl)
    (fun h h' => h'.trans h) _ _ fun t _ v => v.objects_repoint t

/-- The ancestors of a type may change without any object, too. -/
theorem objects_repointAncestors (new : TypeId) (w : World σ) (s : TypeId) :
    (repointAncestors new w s).1.objects = w.objects := by
  unfold repointAncestors
  split
  · obtain ⟨types, heq⟩ := w.setAncestors_eq s
      ((w.ancestors s).map fun t => if w.isPredecessor new t then new else t)
    rw [heq]
  · rfl

/-- A new ancestor shows nothing of objects. -/
theorem concernsObject_repointAncestors (new : TypeId) (w : World σ) (s : TypeId) :
    ∀ d ∈ (repointAncestors new w s).2, d.event.concernsObject = false := by
  intro d hd
  unfold repointAncestors at hd
  split at hd
  · rw [List.mem_singleton.mp hd]
    rfl
  · cases hd

variable [Host σ]

/-- As far as objects go, the repair for an old type is a pass of moves. -/
theorem repairType_moves (s : Session) (types : List TypeId) (w : World σ) (old : TypeId) :
    (repairType s types w old).1.objects = (moveEach (s.movesOf types w old) w).1.objects ∧
      (repairType s types w old).2.filter (·.event.concernsObject) =
        (moveEach (s.movesOf types w old) w).2 := by
  unfold Session.movesOf
  obtain ⟨hsucc, h⟩ | ⟨hsucc, h⟩ | ⟨new, hne, hsucc, h⟩ := repairType_cases s types w old <;>
    rw [h, hsucc]
  · exact ⟨rfl, rfl⟩
  · simp [moveEach]
  · -- the pass over subtypes writes types only, and its deeds concern types only
    have hobjects : (w.repointSubtypes old new).1.objects = w.objects :=
      repairEach_related (R := fun w w' => w'.objects = w.objects) (fun _ => rfl)
        (fun h h' => h'.trans h) _ w fun t _ v => v.objects_repointAncestors new t
    have hform : w.SameForm (w.repointSubtypes old new).1 :=
      repairEach_related SameForm.refl SameForm.trans _ w
        fun t _ v => v.sameForm_repointAncestors new t
    have hnone : (w.repointSubtypes old new).2.filter (·.event.concernsObject) = [] := by
      rw [List.filter_eq_nil_iff]
      intro d hd
      rw [forall_deeds_repairEach (fun t _ v => v.concernsObject_repointAncestors new t) d hd]
      exact Bool.false_ne_true
    -- the second pass is a pass of moves, all of them to the successor
    have hpass : retargetObjects s old new (w.repointSubtypes old new).1 =
        moveEach ((s.objectsOf old).map (·, new)) (w.repointSubtypes old new).1 :=
      (repairEach_map move (·, new) (s.objectsOf old) _).symm
    obtain ⟨hmoved, hdeeds⟩ := moveEach_congr hobjects hform ((s.objectsOf old).map (·, new))
    simp only [if_neg hne, List.filter_append, hnone, List.nil_append, hpass, hmoved, hdeeds]
    exact ⟨trivial, List.filter_eq_self.mpr (concernsObject_moveEach _ w)⟩

/-- For several types the moves are made one type after the other. -/
theorem repairTypes_moves (s : Session) (types olds : List TypeId) (w : World σ) :
    (repairEach (repairType s types) olds w).1.objects =
        (moveEach (olds.flatMap (s.movesOf types w)) w).1.objects ∧
      (repairEach (repairType s types) olds w).2.filter (·.event.concernsObject) =
        (moveEach (olds.flatMap (s.movesOf types w)) w).2 := by
  induction olds generalizing w with
  | nil => exact ⟨rfl, rfl⟩
  | cons old olds ih =>
    have hform := (w.typeFrame_repairType s types old).form
    obtain ⟨hhead, hdeeds⟩ := w.repairType_moves s types old
    obtain ⟨hrest, hdeeds'⟩ := ih (repairType s types w old).1
    rw [Session.movesOf_congr hform] at hrest hdeeds'
    -- the rest of the pass sees the objects that the moves for the first type leave
    have hform' : (moveEach (s.movesOf types w old) w).1.SameForm (repairType s types w old).1 :=
      (w.sameForm_moveEach _).symm.trans hform
    obtain ⟨hmoved, hdeeds''⟩ :=
      moveEach_congr hhead hform' (olds.flatMap (s.movesOf types w))
    rw [repairEach_cons, List.flatMap_cons, moveEach_append]
    refine ⟨hrest.trans hmoved, ?_⟩
    rw [List.filter_append, hdeeds, hdeeds', hdeeds'']

/-- **As far as objects go**, a repair is a pass of moves. -/
theorem repair_moves (s : Session) (u : UnitId) (w : World σ) :
    (w.repair s u).1.objects = (moveEach (s.moves w u) w).1.objects ∧
      (w.repair s u).2.filter (·.event.concernsObject) = (moveEach (s.moves w u) w).2 := by
  -- bindings are repaired before types, and that does not touch objects
  have hobjects := w.objects_withBindings s u
  have hform := w.sameForm_withBindings s u
  obtain ⟨hpass, hdeeds⟩ := repairTypes_moves s (typesAmong (w.ownExports u))
    (s.snapshot.ownTypes w (w.unit u).name) (w.withBindings s u).1
  obtain ⟨hmoved, hdeeds'⟩ := moveEach_congr hobjects hform (s.moves w u)
  rw [Session.movesOf_congr hform] at hpass hdeeds
  have htypes : repairTypes s (w.unit u).name (typesAmong (w.ownExports u))
      (w.withBindings s u).1 = repairEach (repairType s (typesAmong (w.ownExports u)))
        (s.snapshot.ownTypes w (w.unit u).name) (w.withBindings s u).1 := by
    rw [repairTypes, Snapshot.ownTypes_of_sameForm hform]
  -- neither bindings nor removals show anything of objects
  have hbindings : (w.withBindings s u).2.filter (·.event.concernsObject) = [] := by
    rw [List.filter_eq_nil_iff]
    exact forall_deeds_repointEach (fun _ _ _ => Bool.false_ne_true) _ _
  have hremovals : (w.removals s u).filter (·.event.concernsObject) = [] := by
    rw [List.filter_eq_nil_iff]
    exact forall_deeds_removals fun _ _ => Bool.false_ne_true
  rw [repair_eq, htypes]
  refine ⟨hpass.trans hmoved, ?_⟩
  rw [List.filter_append, List.filter_append, hbindings, hremovals, hdeeds]
  exact hdeeds'

end World

namespace Session

/-- An object was recorded with one type, so it is to be given one other at most. -/
theorem Opened.oneTarget_moves {s : Session} {w w₁ : World σ} {targets us : List UnitId}
    {r : RegistryId} (hopened : s.Opened w targets r)
    (hnames : (us.map fun u => (w₁.unit u).name).Nodup) :
    World.OneTarget (us.flatMap (s.moves w₁)) := by
  have hrecorded : ∀ {o old}, o ∈ s.objectsOf old → (w.object o).type = old := by
    intro o old ho
    exact (hopened.typed _ (mem_objectsOf.mp ho)).1.symm
  rintro ⟨o, new⟩ hm ⟨o', new'⟩ hm' heq
  obtain rfl : o = o' := heq
  obtain ⟨u, hu, hm⟩ := List.mem_flatMap.mp hm
  obtain ⟨u', hu', hm'⟩ := List.mem_flatMap.mp hm'
  obtain ⟨old, hold, hsucc, -, ho⟩ := mem_moves.mp hm
  obtain ⟨old', hold', hsucc', -, ho'⟩ := mem_moves.mp hm'
  -- the type belongs to one unit, and it has one successor there
  obtain rfl : old = old' := (hrecorded ho).symm.trans (hrecorded ho')
  obtain rfl : u = u' := List.inj_on_of_nodup_map hnames hu hu'
    ((Snapshot.owner_of_mem_ownTypes hold).symm.trans (Snapshot.owner_of_mem_ownTypes hold'))
  rw [Option.some.inj (hsucc.symm.trans hsucc')]

variable [Host σ]

/-- **Repairs of several units are one pass of moves**, as far as objects go, and the pass can be read
off the world in which the first of them starts. -/
theorem repairs_moves {s : Session} {w : World σ} (hfits : s.Fits w) (us : List UnitId) :
    (World.repairEach (fun w u => w.repair s u) us w).1.objects =
        (World.moveEach (us.flatMap (s.moves w)) w).1.objects ∧
      (World.repairEach (fun w u => w.repair s u) us w).2.filter (·.event.concernsObject) =
        (World.moveEach (us.flatMap (s.moves w)) w).2 := by
  induction us generalizing w with
  | nil => exact ⟨rfl, rfl⟩
  | cons u us ih =>
    have hform := (w.frame_repair s u).form
    obtain ⟨hrest, hdeeds⟩ := ih (hfits.of_sameForm hform)
    -- what the rest of the pass consists of is not affected by its beginning
    have hms : us.flatMap (s.moves (w.repair s u).1) = us.flatMap (s.moves w) :=
      List.flatMap_congr fun v _ => moves_congr hform (World.ownExports_repair hfits u v)
    have hform' : (World.moveEach (s.moves w u) w).1.SameForm (w.repair s u).1 :=
      (w.sameForm_moveEach _).symm.trans hform
    obtain ⟨hhead, hdeeds'⟩ := w.repair_moves s u
    obtain ⟨hmoved, hdeeds''⟩ := World.moveEach_congr hhead hform' (us.flatMap (s.moves w))
    rw [hms] at hrest hdeeds
    rw [World.repairEach_cons, List.flatMap_cons, World.moveEach_append]
    refine ⟨hrest.trans hmoved, ?_⟩
    rw [List.filter_append, hdeeds', hdeeds, hdeeds'']

/-- **A propagation is one pass of moves**, as far as objects go. -/
theorem propagate_moves {s : Session} {w : World σ} (hfits : s.Fits w) (us : List UnitId) :
    (s.propagate us w).2.2.objects = (World.moveEach (us.flatMap (s.moves w)) w).1.objects := by
  rw [(s.propagate_eq_repairEach us w).2]
  exact (repairs_moves hfits us).1

end Session

end HotReload
