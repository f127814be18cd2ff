import HotReload.Proofs.Repair.Propagation

/-!
# Repairs that do nothing

Each deed of a repair is counted, and a repair without deeds leaves the world as it is
(`World.quiet_repair`). So the counts of a propagation are all zero exactly if none of its repairs
has a deed in the world in which the propagation starts (`Session.propagate_still_iff`), and then
nothing has changed.

When a repair has no deed is said part by part: no binding is to be given another definition, no
name is without a definition, and no old type has another successor while a type derives from it or
an object has it (`World.deeds_repair_eq_nil_iff`, `World.deeds_repairType_eq_nil_iff`).
-/

namespace HotReload

variable {σ : Type}

/-! ### Counts that are zero -/

namespace Stats

/-- Counts add up to nothing only if there is nothing in either. -/
theorem add_eq_zero {a b : Stats} : a + b = zero ↔ a = zero ∧ b = zero := by
  -- a sum of natural numbers is zero only if both are
  obtain ⟨a₁, a₂, a₃, a₄, a₅, a₆⟩ := a
  obtain ⟨b₁, b₂, b₃, b₄, b₅, b₆⟩ := b
  simp only [add_def, zero, Stats.mk.injEq]
  omega

/-- A tally is zero if no deed counts anything. -/
theorem tally_eq_zero_iff {ds : List Deed} :
    tally ds = zero ↔ ∀ d ∈ ds, d.counts = zero := by
  induction ds with
  | nil => simp [tally]
  | cons d ds ih => rw [tally, add_eq_zero, ih, List.forall_mem_cons]

end Stats

namespace World

/-! ### Parts of a repair -/

/-- A pass of repointings is silent if none of them acts. -/
theorem deeds_repointEach_eq_nil_iff {ts : List (ExternalBinding × Definition)} {w : World σ} :
    (repointEach ts w).2 = [] ↔ ∀ t ∈ ts, ¬ w.Acts t := by
  rw [repointEach, quiet_repoint.deeds_eq_nil_iff]
  refine forall₂_congr fun t _ => ?_
  by_cases hacts : w.Acts t
  · rw [repoint_of_acts hacts]
    simp [hacts]
  · rw [repoint_of_not_acts hacts]
    simp [hacts]

/-- A succession is silent if the list has no predecessor. -/
theorem deeds_repointAncestors_eq_nil_iff {new s : TypeId} {w : World σ} :
    (repointAncestors new w s).2 = [] ↔ ∀ t ∈ w.ancestors s, w.isPredecessor new t = false := by
  unfold repointAncestors
  by_cases h : (w.ancestors s).any (w.isPredecessor new) = true
  · obtain ⟨t, ht, hpred⟩ := List.any_eq_true.mp h
    rw [if_pos h]
    refine iff_of_false (List.cons_ne_nil _ _) fun hnone => ?_
    rw [hnone t ht] at hpred
    cases hpred
  · rw [if_neg h]
    refine iff_of_true rfl fun t ht => ?_
    rw [Bool.not_eq_true, List.any_eq_false] at h
    exact Bool.not_eq_true _ ▸ h t ht

/-- A move is silent if the object has the type already. A refusal is not silent. -/
theorem deeds_retargetObject_eq_nil_iff {new : TypeId} {w : World σ} {o : ObjectId} :
    (retargetObject new w o).2 = [] ↔ (w.object o).type = new := by
  unfold retargetObject
  by_cases h : (w.object o).type = new
  · simp [h]
  · rw [if_neg h]
    cases hr : w.retarget o new with
    | ok w' => simp [h]
    | error e => simp [h]

variable [Host σ]

/-- The repair for one type shows what it does. -/
theorem quiet_repairType (s : Session) (types : List TypeId) :
    Quiet (repairType s types : World σ → TypeId → World σ × List Deed) := by
  intro w old h
  obtain ⟨-, heq⟩ | ⟨-, heq⟩ | ⟨new, -, -, heq⟩ := repairType_cases s types w old <;>
    rw [heq] at h ⊢
  rw [List.append_eq_nil_iff] at h
  have hsubtypes := (quiet_repointAncestors new).repairEach _ w h.1
  have hobjects := (quiet_retargetObject new).repairEach _ _ h.2
  change (retargetObjects s old new (w.repointSubtypes old new).1).1 = _ at hobjects
  exact hobjects.trans hsubtypes

/-- An old type that has a successor is left alone exactly if it is the successor itself, or if
neither a type nor an object that was recorded would have to move. -/
theorem deeds_repairType_eq_nil_iff {s : Session} {types : List TypeId} {w : World σ}
    {old new : TypeId} (hsucc : w.successor? types old = some new)
    (hmirror : ∀ s, s ∈ (w.type old).subtypes → old ∈ w.ancestors s)
    (hname : w.typeName old = w.typeName new) :
    (repairType s types w old).2 = [] ↔
      old = new ∨ (w.subtypes old = [] ∧ ∀ o ∈ s.objectsOf old, (w.object o).type = new) := by
  by_cases hnew : old = new
  · rw [repairType_self (hnew ▸ hsucc)]
    exact iff_of_true rfl (.inl hnew)
  · have hsubtypes : (w.repointSubtypes old new).2 = [] ↔ w.subtypes old = [] := by
      rw [repointSubtypes, (quiet_repointAncestors new).deeds_eq_nil_iff]
      refine ⟨fun h => List.eq_nil_iff_forall_not_mem.mpr fun t ht => ?_, fun h t ht => ?_⟩
      · -- a subtype lists the old type, which goes by the name of the new one
        have hback : t ∈ (w.type old).subtypes := (List.mem_filter.mp ht).1
        have hfree := deeds_repointAncestors_eq_nil_iff.mp (h t ht) old (hmirror t hback)
        rw [isPredecessor, hname] at hfree
        simp [hnew] at hfree
      · rw [h] at ht
        cases ht
    rw [repairType_of_succeeded hsucc hnew, List.append_eq_nil_iff, hsubtypes, or_iff_right hnew]
    refine and_congr_right fun hnone => ?_
    -- without a subtype to repair, objects are repaired in the world as it was
    have hworld : (w.repointSubtypes old new).1 = w :=
      (quiet_repointAncestors new).repairEach _ w (hsubtypes.mpr hnone)
    rw [hworld, retargetObjects, (quiet_retargetObject new).deeds_eq_nil_iff]
    exact forall₂_congr fun o _ => deeds_retargetObject_eq_nil_iff

/-! ### Whole repairs -/

/-- **When a repair is without deeds.** -/
theorem deeds_repair_eq_nil_iff (s : Session) (u : UnitId) (w : World σ) :
    (w.repair s u).2 = [] ↔
      (∀ t ∈ s.repointings w u, ¬ w.Acts t) ∧ s.unclaimed w u = [] ∧
        ∀ old ∈ s.snapshot.ownTypes w (w.unit u).name,
          (repairType s (typesAmong (w.ownExports u)) (w.pin (w.keptFor u)) old).2 = [] := by
  have hbindings : (w.withBindings s u).2 = [] ↔ ∀ t ∈ s.repointings w u, ¬ w.Acts t :=
    deeds_repointEach_eq_nil_iff
  have hremovals : w.removals s u = [] ↔ s.unclaimed w u = [] := List.map_eq_nil_iff
  rw [repair_eq, List.append_eq_nil_iff, List.append_eq_nil_iff, hbindings, hremovals, and_assoc]
  refine and_congr_right fun hacts => and_congr_right fun _ => ?_
  -- without a binding to repair, types are repaired in the world as it was
  have hworld : (w.withBindings s u).1 = w.pin (w.keptFor u) :=
    quiet_repoint.repairEach _ _ (hbindings.mpr hacts)
  rw [hworld, repairTypes, (quiet_repairType s _).deeds_eq_nil_iff]
  exact Iff.rfl

/-- **A repair that shows nothing does nothing.** -/
theorem quiet_repair (s : Session) :
    Quiet (fun w u => w.repair s u : World σ → UnitId → World σ × List Deed) := by
  intro w u h
  change (w.repair s u).2 = [] at h
  rw [repair_eq, List.append_eq_nil_iff, List.append_eq_nil_iff] at h
  obtain ⟨⟨hrepointed, -⟩, hrepaired⟩ := h
  have hbindings : (w.withBindings s u).1 = w.pin (w.keptFor u) :=
    quiet_repoint.repairEach _ _ hrepointed
  have htypes := (quiet_repairType s (typesAmong (w.ownExports u))).repairEach _ _ hrepaired
  change (repairTypes s (w.unit u).name (typesAmong (w.ownExports u)) (w.withBindings s u).1).1 = _
    at htypes
  rw [hbindings] at htypes
  simp only [repair_eq, hbindings, htypes]
  rfl

end World

namespace Session

variable [Host σ]

/-- **Propagations that do nothing.** The counts of a propagation are zero exactly if no repair of a
unit has a deed where the propagation starts; and then the world is what it was. -/
theorem propagate_still_iff (s : Session) (us : List UnitId) (w : World σ) :
    ((s.propagate us w).2.1 = .zero ↔ ∀ u ∈ us, (w.repair s u).2 = []) ∧
      ((s.propagate us w).2.1 = .zero → (s.propagate us w).2.2 = w) := by
  obtain ⟨hstats, hworld⟩ := s.propagate_eq_repairEach us w
  have hzero : (s.propagate us w).2.1 = .zero ↔
      (World.repairEach (fun w u => w.repair s u) us w).2 = [] := by
    rw [hstats, Stats.tally_eq_zero_iff, List.eq_nil_iff_forall_not_mem]
    refine forall_congr' fun d => ⟨fun h hd => ?_, fun h hd => absurd hd h⟩
    -- a deed that counts for nothing would not be true to its event
    exact (World.isTrue_repairs s us w d hd).2 (h hd)
  refine ⟨hzero.trans ((World.quiet_repair s).deeds_eq_nil_iff us w), fun h => ?_⟩
  rw [hworld]
  exact (World.quiet_repair s).repairEach us w (hzero.mp h)

end Session

end HotReload
