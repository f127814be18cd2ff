import HotReload.Proofs.Repair.Lineage
import HotReload.Proofs.Repair.Notes
import HotReload.Proofs.Repair.Stillness

/-!
# What a repair leaves

Some deeds of a repair say what it has done, and the others what it could not do: a name or a type
that has no successor, and an object that does not take on its new type. These are its *leftovers*.
They can be told from the world in which the repair starts, and an earlier repair of the same
propagation does not change them (`Session.leftovers_congr`).

A unit is **settled** (`World.Settled`) if its repair has nothing to do: each slot, each ancestor
list and each object has been given what is meant for it, or refuses it. The repair of a settled
unit leaves the world as it is and reports leftovers only (`World.repair_of_settled`).

So a propagation to settled units does nothing (`Session.propagate_of_settled`).
-/

namespace HotReload

variable {σ : Type}

/-- True of the events that say what a repair could not do. -/
def Event.isLeftover : Event → Bool
  | symbolRemoved _ _ | typeRemoved _ | retypeRejected _ _ => true
  | _ => false

namespace World

/-! ### Passes -/

section Passes

variable {α : Type} {step : World σ → α → World σ × List Deed}

/-- The deeds of one kind in a pass, where it can be told in advance which of them each step
has. -/
theorem filter_deeds_repairEach {P : World σ → Prop} {p : Deed → Bool} {g : α → List Deed}
    {as : List α} {w : World σ} (hw : P w) (hkeep : ∀ a ∈ as, ∀ v, P v → P (step v a).1)
    (hstep : ∀ a ∈ as, ∀ v, P v → (step v a).2.filter p = g a) :
    (repairEach step as w).2.filter p = as.flatMap g := by
  induction as generalizing w with
  | nil => rfl
  | cons a as ih =>
    rw [List.forall_mem_cons] at hkeep hstep
    rw [repairEach_cons, List.filter_append, List.flatMap_cons, hstep.1 w hw,
      ih (hkeep.1 w hw) hkeep.2 hstep.2]

/-- A pass whose steps leave the world in which it starts as it is. -/
theorem repairEach_of_still {as : List α} {w : World σ} (h : ∀ a ∈ as, (step w a).1 = w) :
    repairEach step as w = (w, as.flatMap fun a => (step w a).2) := by
  induction as with
  | nil => rfl
  | cons a as ih =>
    rw [List.forall_mem_cons] at h
    rw [repairEach_cons, h.1, ih h.2, List.flatMap_cons]

end Passes

/-! ### The leftovers of a repair -/

/-- The deed that reports that a move is refused, if it is. -/
def rejection? (w : World σ) (m : ObjectId × TypeId) : Option Deed :=
  (w.refusal? m).map fun e =>
    ⟨{ Stats.zero with objectsRejected := 1 }, .retypeRejected (w.typeName m.2).text e.message⟩

/-- A refusal reads the same in worlds of the same form. -/
theorem rejection?_congr {w v : World σ} (h : w.SameForm v) {m : ObjectId × TypeId}
    (hm : v.refusal? m = w.refusal? m) : v.rejection? m = w.rejection? m := by
  rw [rejection?, rejection?, hm, h.typeName]

/-- What a move leaves over is its refusal. -/
theorem filter_deeds_move (w : World σ) (m : ObjectId × TypeId) :
    (w.move m).2.filter (·.event.isLeftover) = (w.rejection? m).toList := by
  unfold move retargetObject rejection?
  split
  · next h =>
    rw [refusal?_of_type h]
    rfl
  · unfold retarget refusal?
    cases w.retypeError? (w.object m.1).type m.2 <;> rfl

/-- What a pass of moves leaves over can be read off the world before it. -/
theorem filter_deeds_moveEach {ms : List (ObjectId × TypeId)} (hone : OneTarget ms)
    (w : World σ) :
    (moveEach ms w).2.filter (·.event.isLeftover) = ms.flatMap fun m => (w.rejection? m).toList := by
  -- no move of the list changes what stands in the way of another one
  refine filter_deeds_repairEach
    (P := fun v => w.SameForm v ∧ ∀ m ∈ ms, v.refusal? m = w.refusal? m) ⟨.refl w, fun _ _ => rfl⟩
    (fun a ha v hv => ⟨hv.1.trans (v.sameForm_move a), fun m hm => ?_⟩) fun m hm v hv => ?_
  · exact (hone.refusal?_move hm ha v).trans (hv.2 m hm)
  · rw [filter_deeds_move, rejection?_congr hv.1 (hv.2 m hm)]

end World

namespace Session

/-- The leftovers of the repair for an old type, if `types` are the current ones of its unit. -/
def leftoversOf (s : Session) (types : List TypeId) (w : World σ) (old : TypeId) : List Deed :=
  match w.successor? types old with
  | none => [⟨{ Stats.zero with removedTypes := 1 }, .typeRemoved (w.typeName old).text⟩]
  | some _ => (s.movesOf types w old).flatMap fun m => (w.rejection? m).toList

/-- **The leftovers** of the repair of `u`. -/
def leftovers (s : Session) (w : World σ) (u : UnitId) : List Deed :=
  w.removals s u ++
    (s.snapshot.ownTypes w (w.unit u).name).flatMap
      (s.leftoversOf (typesAmong (w.ownExports u)) w)

/-- Leftovers depend on the form of the world and on refusals. -/
theorem leftoversOf_congr {s : Session} {types : List TypeId} {w v : World σ} (h : w.SameForm v)
    {old : TypeId} (hms : ∀ m ∈ s.movesOf types w old, v.refusal? m = w.refusal? m) :
    s.leftoversOf types v old = s.leftoversOf types w old := by
  rw [leftoversOf, leftoversOf, h.successor?, h.typeName, movesOf_congr h]
  cases w.successor? types old with
  | none => rfl
  | some new => exact List.flatMap_congr fun m hm => by rw [World.rejection?_congr h (hms m hm)]

/-- The moves for one type are among all moves. -/
theorem movesOf_subset_moves {s : Session} {w : World σ} {u : UnitId} {old : TypeId}
    (hold : old ∈ s.snapshot.ownTypes w (w.unit u).name) :
    ∀ m ∈ s.movesOf (typesAmong (w.ownExports u)) w old, m ∈ s.moves w u :=
  fun _ hm => List.mem_flatMap.mpr ⟨old, hold, hm⟩

/-- **Leftovers stay** what they are as long as names, own exports and refusals do. -/
theorem leftovers_congr {s : Session} {w v : World σ} (h : w.SameForm v) {u : UnitId}
    (hown : v.ownExports u = w.ownExports u)
    (hms : ∀ m ∈ s.moves w u, v.refusal? m = w.refusal? m) :
    s.leftovers v u = s.leftovers w u := by
  have hremovals : v.removals s u = w.removals s u := by
    rw [World.removals, World.removals, unclaimed_congr h hown]
  rw [leftovers, leftovers, hremovals, Snapshot.ownTypes_of_sameForm h, h.unitName, hown]
  refine congrArg _ (List.flatMap_congr fun old hold => ?_)
  exact leftoversOf_congr h fun m hm => hms m (movesOf_subset_moves hold m hm)

end Session

namespace World

variable [Host σ]

/-- What the repair for one type leaves over. -/
theorem filter_deeds_repairType {s : Session} {types : List TypeId} {w : World σ} {old : TypeId}
    (hone : OneTarget (s.movesOf types w old)) :
    (repairType s types w old).2.filter (·.event.isLeftover) = s.leftoversOf types w old := by
  have hmoves := (repairType_moves s types w old).2
  unfold Session.leftoversOf
  obtain ⟨hsucc, h⟩ | ⟨hsucc, h⟩ | ⟨new, hne, hsucc, h⟩ := repairType_cases s types w old <;>
    simp only [hsucc]
  · rw [h]
    rfl
  · rw [h] at hmoves ⊢
    rw [← filter_deeds_moveEach hone, ← hmoves]
    rfl
  · -- leftovers concern objects here, since the pass over subtypes leaves nothing
    rw [← filter_deeds_moveEach hone, ← hmoves, List.filter_filter]
    refine List.filter_congr fun d hd => ?_
    rw [h] at hd
    rcases List.mem_append.mp hd with hd | hd
    · have hnot := forall_deeds_repairEach (P := fun d => d.event.concernsObject = false)
        (fun t _ v => v.concernsObject_repointAncestors new t) d hd
      have hcount : d.event.isLeftover = false := by
        refine forall_deeds_repairEach (P := fun d => d.event.isLeftover = false)
          (fun t _ v d hd => ?_) d hd
        unfold repointAncestors at hd
        split at hd
        · rw [List.mem_singleton.mp hd]
          rfl
        · cases hd
      rw [hnot, hcount]
      rfl
    · have hconcerns := forall_deeds_repairEach (P := fun d => d.event.concernsObject = true)
        (fun o _ v => v.concernsObject_move (o, new)) d hd
      rw [hconcerns, Bool.and_true]

/-- The repair for one type does not change what another move would meet. -/
theorem refusal?_repairType {s : Session} {types : List TypeId} {w : World σ} {old : TypeId}
    {ms : List (ObjectId × TypeId)} (hone : OneTarget ms)
    (hold : ∀ m ∈ s.movesOf types w old, m ∈ ms) {m : ObjectId × TypeId} (hm : m ∈ ms) :
    (repairType s types w old).1.refusal? m = w.refusal? m := by
  have hform : (moveEach (s.movesOf types w old) w).1.SameForm (repairType s types w old).1 :=
    (w.sameForm_moveEach _).symm.trans (w.typeFrame_repairType s types old).form
  have hobject : (repairType s types w old).1.object m.1 =
      (moveEach (s.movesOf types w old) w).1.object m.1 := by
    rw [object, (repairType_moves s types w old).1]
    rfl
  calc (repairType s types w old).1.refusal? m
      = (moveEach (s.movesOf types w old) w).1.refusal? m := by
        rw [refusal?, refusal?, hobject, hform.retypeError?]
    _ = w.refusal? m := refusal?_moveEach hone hm hold w

/-- **The leftovers of a repair** are those of the world in which it starts. -/
theorem filter_deeds_repair {s : Session} {u : UnitId} {w : World σ}
    (hone : OneTarget (s.moves w u)) :
    (w.repair s u).2.filter (·.event.isLeftover) = s.leftovers w u := by
  have hform := w.sameForm_withBindings s u
  have hbindings : (w.withBindings s u).2.filter (·.event.isLeftover) = [] := by
    rw [List.filter_eq_nil_iff]
    exact forall_deeds_repointEach (fun _ _ _ => Bool.false_ne_true) _ _
  -- each removal is a leftover
  have hremovals : (w.removals s u).filter (·.event.isLeftover) = w.removals s u := by
    rw [List.filter_eq_self]
    exact forall_deeds_removals fun _ _ => rfl
  have hobjects := w.objects_withBindings s u
  have htypes : (repairTypes s (w.unit u).name (typesAmong (w.ownExports u))
      (w.withBindings s u).1).2.filter (·.event.isLeftover) =
        (s.snapshot.ownTypes w (w.unit u).name).flatMap
          (s.leftoversOf (typesAmong (w.ownExports u)) w) := by
    rw [repairTypes, Snapshot.ownTypes_of_sameForm hform]
    refine filter_deeds_repairEach
      (P := fun v => w.SameForm v ∧ ∀ m ∈ s.moves w u, v.refusal? m = w.refusal? m)
      ⟨hform, fun m _ => ?_⟩ (fun old hold v hv => ⟨?_, fun m hm => ?_⟩) fun old hold v hv => ?_
    · rw [refusal?, refusal?, hform.retypeError?, object, hobjects]
      rfl
    · exact hv.1.trans (v.typeFrame_repairType s _ old).form
    · -- a repair of types changes no refusal, so the moves of all types can be told from the world
      -- before
      rw [← hv.2 m hm]
      refine refusal?_repairType hone (fun a ha => ?_) hm
      rw [Session.movesOf_congr hv.1] at ha
      exact Session.movesOf_subset_moves hold a ha
    · have hsub := Session.movesOf_subset_moves (s := s) hold
      have hone' : OneTarget (s.movesOf (typesAmong (w.ownExports u)) v old) := by
        rw [Session.movesOf_congr hv.1]
        exact hone.subset hsub
      rw [filter_deeds_repairType hone']
      exact Session.leftoversOf_congr hv.1 fun m hm => hv.2 m (hsub m hm)
  rw [repair_eq]
  simp only [List.filter_append, hbindings, hremovals, htypes]
  rfl

end World

namespace Session

variable [Host σ]

/-- **The leftovers of a propagation** are those of its units, in the world in which it starts. -/
theorem filter_deeds_propagate {s : Session} {us : List UnitId} {w : World σ} (hfits : s.Fits w)
    (hone : World.OneTarget (us.flatMap (s.moves w))) :
    (World.repairEach (fun w u => w.repair s u) us w).2.filter (·.event.isLeftover) =
      us.flatMap (s.leftovers w) := by
  refine World.filter_deeds_repairEach (P := s.Stage us w) (.refl s us w)
    (fun u hu v hv => hv.repair hfits hone hu) fun u hu v hv => ?_
  have hsub : ∀ m ∈ s.moves w u, m ∈ us.flatMap (s.moves w) :=
    fun m hm => List.mem_flatMap.mpr ⟨u, hu, hm⟩
  -- the moves are the ones that were planned in the first world
  have hone' : World.OneTarget (s.moves v u) := by
    rw [moves_congr hv.form (hv.own u)]
    exact hone.subset hsub
  rw [World.filter_deeds_repair hone']
  exact leftovers_congr hv.form (hv.own u) fun m hm => hv.refusal m (hsub m hm)

end Session

/-! ### Units with nothing to do -/

namespace World

variable [Host σ]

/-- **Settled.** A repair of `u` finds no slot, no ancestor list and no object that it could give
anything. -/
structure Settled (s : Session) (u : UnitId) (w : World σ) : Prop where
  bindings : ∀ t ∈ s.repointings w u, ¬ w.Acts t
  subtypes : ∀ p ∈ s.successions w u, (w.pin (w.keptFor u)).subtypes p.1 = []
  objects : ∀ m ∈ s.moves w u, (w.object m.1).type = m.2 ∨ w.refusal? m ≠ none

omit [Host σ] in
/-- A move that has been made, or is refused, does nothing and leaves its refusal at most. -/
theorem move_of_settled {w : World σ} {m : ObjectId × TypeId}
    (h : (w.object m.1).type = m.2 ∨ w.refusal? m ≠ none) :
    (w.move m).1 = w ∧ ∀ d ∈ (w.move m).2, d.event.isLeftover = true := by
  unfold move retargetObject
  -- the object has the type, or it is refused
  rcases h with h | h
  · rw [if_pos h]
    exact ⟨rfl, nofun⟩
  · unfold refusal? at h
    unfold retarget
    split
    · exact ⟨rfl, nofun⟩
    · cases hr : w.retypeError? (w.object m.1).type m.2 with
      | none => exact absurd hr h
      | some e =>
        refine ⟨rfl, fun d hd => ?_⟩
        rw [List.mem_singleton.mp hd]
        rfl

/-- For a settled unit the repair of a type leaves the world alone. -/
theorem repairType_of_settled {s : Session} {u : UnitId} {w : World σ} (h : w.Settled s u)
    {old : TypeId} (hold : old ∈ s.snapshot.ownTypes w (w.unit u).name) :
    (repairType s (typesAmong (w.ownExports u)) (w.pin (w.keptFor u)) old).1 =
        w.pin (w.keptFor u) ∧
      ∀ d ∈ (repairType s (typesAmong (w.ownExports u)) (w.pin (w.keptFor u)) old).2,
        d.event.isLeftover = true := by
  obtain ⟨-, heq⟩ | ⟨-, heq⟩ | ⟨new, hne, hsucc, heq⟩ := repairType_cases s
    (typesAmong (w.ownExports u)) (w.pin (w.keptFor u)) old <;> rw [heq]
  · refine ⟨rfl, fun d hd => ?_⟩
    rw [List.mem_singleton.mp hd]
    rfl
  · exact ⟨rfl, nofun⟩
  · have hnone := h.subtypes (old, new) (Session.mem_successions.mpr ⟨hold, hsucc, hne⟩)
    have hsubtypes : (w.pin (w.keptFor u)).repointSubtypes old new = (w.pin (w.keptFor u), []) := by
      rw [repointSubtypes, hnone]
      rfl
    -- each object that the session knows is to be moved, and refuses or has been moved already
    have hmove : ∀ o ∈ s.objectsOf old,
        (retargetObject new (w.pin (w.keptFor u)) o).1 = w.pin (w.keptFor u) ∧
          ∀ d ∈ (retargetObject new (w.pin (w.keptFor u)) o).2, d.event.isLeftover = true := by
      intro o ho
      have hm := Session.mem_moves.mpr ⟨old, hold, hsucc, hne, ho⟩
      exact move_of_settled (w := w.pin (w.keptFor u)) (m := (o, new)) (h.objects _ hm)
    rw [hsubtypes, List.nil_append, retargetObjects,
      repairEach_of_still fun o ho => (hmove o ho).1]
    refine ⟨rfl, fun d hd => ?_⟩
    obtain ⟨o, ho, hd⟩ := List.mem_flatMap.mp hd
    exact (hmove o ho).2 d hd

/-- **The repair of a settled unit** leaves the world as it is and reports leftovers only. -/
theorem repair_of_settled {s : Session} {u : UnitId} {w : World σ} (h : w.Settled s u) :
    (w.repair s u).1 = w ∧ ∀ d ∈ (w.repair s u).2, d.event.isLeftover = true := by
  -- no binding is left to repoint
  have hdeeds : (w.withBindings s u).2 = [] := deeds_repointEach_eq_nil_iff.mpr h.bindings
  have hbindings : (w.withBindings s u).1 = w.pin (w.keptFor u) :=
    quiet_repoint.repairEach _ _ hdeeds
  have hform : w.SameForm (w.pin (w.keptFor u)) := w.sameForm_pins _
  have htypes : repairTypes s (w.unit u).name (typesAmong (w.ownExports u))
      (w.pin (w.keptFor u)) = (w.pin (w.keptFor u),
        (s.snapshot.ownTypes w (w.unit u).name).flatMap fun old =>
          (repairType s (typesAmong (w.ownExports u)) (w.pin (w.keptFor u)) old).2) := by
    rw [repairTypes, Snapshot.ownTypes_of_sameForm hform]
    exact repairEach_of_still fun old hold => (repairType_of_settled h hold).1
  rw [repair_eq, hbindings, hdeeds, htypes, List.nil_append]
  refine ⟨rfl, fun d hd => ?_⟩
  rcases List.mem_append.mp hd with hd | hd
  · -- removals are leftovers, and so is what the types leave
    obtain ⟨q, -, rfl⟩ := List.mem_map.mp hd
    rfl
  · obtain ⟨old, hold, hd⟩ := List.mem_flatMap.mp hd
    exact (repairType_of_settled h hold).2 d hd

end World

namespace Session

variable [Host σ]

/-- **A propagation to settled units** leaves the world as it is, and its deeds are leftovers. -/
theorem propagate_of_settled {s : Session} {us : List UnitId} {w : World σ}
    (h : ∀ u ∈ us, w.Settled s u) :
    (s.propagate us w).2.2 = w ∧
      ∀ d ∈ (World.repairEach (fun w u => w.repair s u) us w).2, d.event.isLeftover = true := by
  have hpass : World.repairEach (fun w u => w.repair s u) us w =
      (w, us.flatMap fun u => (w.repair s u).2) :=
    World.repairEach_of_still fun u hu => (World.repair_of_settled (h u hu)).1
  rw [(s.propagate_eq_repairEach us w).2, hpass]
  refine ⟨rfl, fun d hd => ?_⟩
  obtain ⟨u, hu, hd⟩ := List.mem_flatMap.mp hd
  exact (World.repair_of_settled (h u hu)).2 d hd

end Session

end HotReload
