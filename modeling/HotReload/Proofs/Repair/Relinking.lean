import HotReload.Proofs.Repair.Fading
import HotReload.Proofs.Repair.Stillness

/-!
# Repairs that spare types

A repair without an event for a type writes slots and nothing else: it *relinks* the world
(`World.Relinked`). A slot is freed of a definition that the session holds on to, and gets one that
a living unit exports, so the same nodes are alive as before. Whether a repair finds a type to be
dealt with depends on types, objects and what is alive. So it can be told from the world in which a
propagation starts whether any of its repairs does, however many bindings are repaired meanwhile
(`Session.propagate_spares_iff`).
-/

namespace HotReload

variable {σ : Type}

namespace World

/-! ### Relinking -/

/-- **Relinked.** Slots have been pointed at other definitions: types and objects are the same, each
unit owns the same, and the same nodes are alive. -/
structure Relinked [Host σ] (w w' : World σ) : Prop where
  frame : w.Frame w'
  types : w'.types = w.types
  objects : w'.objects = w.objects
  own : ∀ u, w'.ownExports u = w.ownExports u
  knows : w'.knows = w.knows
  reaches : ∀ n, w'.Reaches n ↔ w.Reaches n

namespace Relinked

variable [Host σ] {w w' w'' : World σ}

theorem refl (w : World σ) : w.Relinked w :=
  ⟨.refl w, rfl, rfl, fun _ => rfl, rfl, fun _ => .rfl⟩

theorem trans (h : w.Relinked w') (h' : w'.Relinked w'') : w.Relinked w'' where
  frame := h.frame.trans h'.frame
  types := h'.types.trans h.types
  objects := h'.objects.trans h.objects
  own u := (h'.own u).trans (h.own u)
  knows := h'.knows.trans h.knows
  reaches n := (h'.reaches n).trans (h.reaches n)

end Relinked

variable [Host σ]

/-- **A repointing relinks** if what it frees the slot of is pinned and what it puts there is
alive. -/
theorem relinked_repoint {w : World σ} {t : ExternalBinding × Definition}
    (hown : ∀ u, (w.repoint t).1.ownExports u = w.ownExports u)
    (hstale : ∀ n ∈ (Value.definition t.1.stale).nodes, w.pins.contains n = true)
    (hnew : ∀ n ∈ (Value.definition t.2).nodes, w.knows n = true → w.Reaches n) :
    w.Relinked (w.repoint t).1 := by
  by_cases hacts : w.Acts t
  · have hframe := w.frame_repoint t
    rw [repoint_of_acts hacts] at hown hframe ⊢
    have hslot := fun u x => w.export?_setExport t.1.holder u t.1.localName x (.definition t.2)
    have hsize : (w.setExport t.1.holder t.1.localName (.definition t.2)).units.size =
        w.units.size :=
      w.units.size_set_of_lt (index_lt_of_export? hacts.1) _
    have hknows : (w.setExport t.1.holder t.1.localName (.definition t.2)).knows = w.knows := by
      funext n
      cases n <;> simp only [World.knows, hsize] <;> rfl
    refine ⟨hframe, rfl, rfl, hown, hknows, fun n => ⟨?_, ?_⟩⟩
    · -- only the slot that is written refers to anything new, and that is alive
      refine Reaches.of_edges w (w.setExport t.1.holder t.1.localName (.definition t.2))
        (fun m hm hk => .root hm (hknows ▸ hk)) fun m k hm hk hknown => ?_
      rw [hknows] at hknown
      cases m with
      | unit u =>
        obtain ⟨x, v, hv, hkv⟩ := mem_successors_unit.mp hk
        rw [hslot] at hv
        split at hv
        · rw [Option.some.injEq] at hv
          exact hnew k (hv ▸ hkv) hknown
        · exact reaches_of_export hm hv hkv hknown
      | _ => exact .step hm hk hknown
    · -- and only the slot that is written loses a reference, to something that is pinned
      refine Reaches.of_edges (w.setExport t.1.holder t.1.localName (.definition t.2)) w
        (fun m hm hk => .root hm (hknows ▸ hk)) fun m k hm hk hknown => ?_
      rw [← hknows] at hknown
      cases m with
      | unit u =>
        obtain ⟨x, v, hv, hkv⟩ := mem_successors_unit.mp hk
        by_cases hwritten : u = t.1.holder ∧ x = t.1.localName
        · obtain ⟨rfl, rfl⟩ := hwritten
          rw [hacts.1, Option.some.injEq] at hv
          exact .of_pinned (hstale k (hv ▸ hkv)) hknown
        · have hkept := (hslot u x).trans (if_neg hwritten)
          exact reaches_of_export hm (hkept.trans hv) hkv hknown
      | _ => exact .step hm hk hknown
  · rw [repoint_of_not_acts hacts]
    exact .refl w

/-- A pass of repointings relinks. -/
theorem relinked_repointEach {s : Session} {w : World σ} (hfits : s.Fits w)
    (hpins : ∀ b ∈ s.references.bindings, ∀ n ∈ (Value.definition b.stale).nodes,
      w.pins.contains n = true)
    {ts : List (ExternalBinding × Definition)}
    (hts : ∀ t ∈ ts, t.1 ∈ s.references.bindings ∧ w.nameOf t.2 = t.1.key ∧
      ∀ n ∈ (Value.definition t.2).nodes, w.knows n = true → w.Reaches n) :
    w.Relinked (repointEach ts w).1 := by
  refine repairEach_preserves (P := w.Relinked) (.refl w) fun t ht v hv => hv.trans ?_
  obtain ⟨hb, hname, hnew⟩ := hts t ht
  have hfits' : s.Fits v := hfits.of_sameForm hv.frame.form
  -- a world that has been relinked so far has the same pins, and the same is alive in it
  refine relinked_repoint (fun u => ?_) (fun n hn => ?_) fun n hn hknown => ?_
  · exact Session.ownExports_repoint hfits' hb ((hv.frame.form.nameOf t.2).trans hname) u
  · rw [hv.frame.pins]
    exact hpins t.1 hb n hn
  · rw [hv.knows] at hknown
    exact (hv.reaches n).mpr (hnew n hn hknown)

omit [Host σ] in
/-- Pins have no part in repointings. -/
theorem repointEach_pins (pins : NumberedSet Node) (ts : List (ExternalBinding × Definition))
    (w : World σ) :
    (repointEach ts { w with pins := pins }).1 = { (repointEach ts w).1 with pins := pins } := by
  induction ts generalizing w with
  | nil => rfl
  | cons t ts ih =>
    -- whether a slot is written is read from the slot alone
    have hhead : ({ w with pins := pins } : World σ).repoint t =
        ({ (w.repoint t).1 with pins := pins }, (w.repoint t).2) := by
      by_cases hacts : w.Acts t
      · have hacts' : ({ w with pins := pins } : World σ).Acts t := hacts
        rw [repoint_of_acts hacts, repoint_of_acts hacts']
        rfl
      · have hacts' : ¬ ({ w with pins := pins } : World σ).Acts t := hacts
        rw [repoint_of_not_acts hacts, repoint_of_not_acts hacts']
    rw [repointEach_cons, repointEach_cons, hhead, ih]

/-! ### Types that are spared -/

/-- Whether there is anything to be done for an old type depends on types, objects and what is
alive. -/
theorem deeds_repairType_congr (v v' : World σ) (htypes : v'.types = v.types)
    (hobjects : v'.objects = v.objects) (hreaches : ∀ n, v'.Reaches n ↔ v.Reaches n) (s : Session)
    (types : List TypeId) (old : TypeId) :
    (repairType s types v' old).2 = [] ↔ (repairType s types v old).2 = [] := by
  have htype : ∀ t, v'.type t = v.type t := by
    intro t
    rw [type, type, htypes]
  have hobject : ∀ o, v'.object o = v.object o := by
    intro o
    rw [object, object, hobjects]
  have hsuccessor : v'.successor? types old = v.successor? types old := by
    simp only [successor?, htype]
  obtain ⟨hsucc, heq⟩ | ⟨hsucc, heq⟩ | ⟨new, hne, hsucc, heq⟩ := repairType_cases s types v old
  · rw [repairType_of_removed hsucc, repairType_of_removed (hsuccessor.trans hsucc)]
    exact iff_of_false (List.cons_ne_nil _ _) (List.cons_ne_nil _ _)
  · rw [repairType_self hsucc, repairType_self (hsuccessor.trans hsucc)]
  · -- which subtypes there are depends on what is alive, and that is the same
    have hsubtypes : (v'.repointSubtypes old new).2 = [] ↔ (v.repointSubtypes old new).2 = [] := by
      rw [repointSubtypes, repointSubtypes, (quiet_repointAncestors new).deeds_eq_nil_iff,
        (quiet_repointAncestors new).deeds_eq_nil_iff]
      refine forall_congr' fun t => ?_
      rw [mem_subtypes, mem_subtypes, hreaches, htype, deeds_repointAncestors_eq_nil_iff,
        deeds_repointAncestors_eq_nil_iff]
      simp only [ancestors, isPredecessor, typeName, htype]
    rw [repairType_of_succeeded hsucc hne, repairType_of_succeeded (hsuccessor.trans hsucc) hne,
      List.append_eq_nil_iff, List.append_eq_nil_iff, hsubtypes]
    refine and_congr_right fun hnone => ?_
    -- without a subtype to repair, objects are repaired in the worlds as they are
    rw [show (v.repointSubtypes old new).1 = v from
        (quiet_repointAncestors new).repairEach _ v hnone,
      show (v'.repointSubtypes old new).1 = v' from
        (quiet_repointAncestors new).repairEach _ v' (hsubtypes.mpr hnone),
      retargetObjects, retargetObjects, (quiet_retargetObject new).deeds_eq_nil_iff,
      (quiet_retargetObject new).deeds_eq_nil_iff]
    refine forall₂_congr fun o _ => ?_
    rw [deeds_retargetObject_eq_nil_iff, deeds_retargetObject_eq_nil_iff, hobject]

/-- **Spared types.** There is nothing to be done for the old types of `u`. -/
def SparesTypes (w : World σ) (s : Session) (u : UnitId) : Prop :=
  ∀ old ∈ s.snapshot.ownTypes w (w.unit u).name,
    (repairType s (typesAmong (w.ownExports u)) (w.pin (w.keptFor u)) old).2 = []

/-- What a living unit keeps for its repair is alive. -/
theorem reaches_pin_keptFor_iff {w : World σ} {u : UnitId} (hu : w.Reaches (.unit u)) (n : Node) :
    (w.pin (w.keptFor u)).Reaches n ↔ w.Reaches n :=
  reaches_pin_iff (fun _ hm hknows => reaches_of_mem_keptFor hu hm hknows) n

theorem sparesTypes_congr {w v : World σ} (h : w.Relinked v) (s : Session) {u : UnitId}
    (hu : w.Reaches (.unit u)) : v.SparesTypes s u ↔ w.SparesTypes s u := by
  have hreaches : ∀ n, (v.pin (v.keptFor u)).Reaches n ↔ (w.pin (w.keptFor u)).Reaches n := by
    intro n
    rw [reaches_pin_keptFor_iff hu, reaches_pin_keptFor_iff ((h.reaches _).mpr hu), h.reaches]
  rw [SparesTypes, SparesTypes, h.frame.form.unitName, Snapshot.ownTypes_of_sameForm h.frame.form,
    h.own]
  exact forall₂_congr fun old _ =>
    deeds_repairType_congr (w.pin (w.keptFor u)) (v.pin (v.keptFor u)) h.types h.objects hreaches
      s _ old

section Repair

variable {s : Session} {w : World σ} {u : UnitId} (hfits : s.Fits w)
  (hpins : ∀ b ∈ s.references.bindings, ∀ n ∈ (Value.definition b.stale).nodes,
    w.pins.contains n = true)
  (hu : w.Reaches (.unit u))

include hu in
theorem mem_repointings_of_reaches {t : ExternalBinding × Definition}
    (ht : t ∈ s.repointings w u) : t.1 ∈ s.references.bindings ∧ w.nameOf t.2 = t.1.key ∧
      ∀ n ∈ (Value.definition t.2).nodes, w.knows n = true → w.Reaches n := by
  obtain ⟨hb, hclaim⟩ := Session.mem_repointings.mp ht
  obtain ⟨hname, -, x, hx⟩ := w.claimant?_spec hclaim
  exact ⟨hb, hname, fun n hn hknown => reaches_of_export hu hx hn hknown⟩

include hfits hpins hu

/-- A repair has no deed that concerns a type exactly if it spares the types of its unit. -/
theorem concernsType_repair_iff :
    (∀ d ∈ (w.repair s u).2, d.event.concernsType = false) ↔ w.SparesTypes s u := by
  -- types are repaired last, in a world whose slots have been relinked
  have hrelinked : (w.pin (w.keptFor u)).Relinked (w.withBindings s u).1 := by
    have hfits' : s.Fits (w.pin (w.keptFor u)) := ⟨hfits.key, hfits.foreign⟩
    refine relinked_repointEach hfits' (fun b hb n hn => ?_) fun t ht => ?_
    · exact (w.contains_pins_pin _ _).mpr (.inr (hpins b hb n hn))
    · obtain ⟨hb, hname, hnew⟩ := mem_repointings_of_reaches hu ht
      exact ⟨hb, hname, fun n hn hknown => (reaches_pin_keptFor_iff hu n).mpr (hnew n hn hknown)⟩
  have hbindings : ∀ d ∈ (w.withBindings s u).2, d.event.concernsType = false :=
    forall_deeds_repointEach (fun _ _ _ => rfl) _ _
  have hremovals : ∀ d ∈ w.removals s u, d.event.concernsType = false :=
    forall_deeds_removals fun _ _ => rfl
  -- all that the repair of types reports is about types
  have htypes : (∀ d ∈ (repairTypes s (w.unit u).name (typesAmong (w.ownExports u))
      (w.withBindings s u).1).2, d.event.concernsType = false) ↔
        (repairTypes s (w.unit u).name (typesAmong (w.ownExports u))
          (w.withBindings s u).1).2 = [] := by
    refine ⟨fun h => List.eq_nil_iff_forall_not_mem.mpr fun d hd => ?_, fun h d hd => ?_⟩
    · exact Bool.false_ne_true ((h d hd).symm.trans (concernsType_repairTypes s _ _ _ d hd))
    · rw [h] at hd
      cases hd
  simp only [repair_eq, List.forall_mem_append]
  rw [htypes, repairTypes, (quiet_repairType s _).deeds_eq_nil_iff,
    Snapshot.ownTypes_of_sameForm (w.sameForm_withBindings s u)]
  rw [and_iff_right ⟨hbindings, hremovals⟩]
  exact forall₂_congr fun old _ =>
    deeds_repairType_congr _ _ hrelinked.types hrelinked.objects hrelinked.reaches s _ old

/-- A repair that spares types relinks. -/
theorem relinked_repair (hspares : w.SparesTypes s u) : w.Relinked (w.repair s u).1 := by
  have hpass : w.Relinked (repointEach (s.repointings w u) w).1 :=
    relinked_repointEach hfits hpins fun t ht => mem_repointings_of_reaches hu ht
  have hdeeds := (concernsType_repair_iff hfits hpins hu).mpr hspares
  simp only [repair_eq, List.forall_mem_append] at hdeeds
  have hnone : (repairTypes s (w.unit u).name (typesAmong (w.ownExports u))
      (w.withBindings s u).1).2 = [] := by
    refine List.eq_nil_iff_forall_not_mem.mpr fun d hd => ?_
    exact Bool.false_ne_true
      ((hdeeds.2 d hd).symm.trans (concernsType_repairTypes s _ _ _ d hd))
  have htypes : (repairTypes s (w.unit u).name (typesAmong (w.ownExports u))
      (w.withBindings s u).1).1 = (w.withBindings s u).1 :=
    (quiet_repairType s _).repairEach _ _ hnone
  -- what is left of the repair is its pass over bindings, with the pins set back
  have hworld : (w.repair s u).1 = (repointEach (s.repointings w u) w).1 := by
    have hbindings : (w.withBindings s u).1 = { (repointEach (s.repointings w u) w).1 with
        pins := (w.pin (w.keptFor u)).pins } := repointEach_pins _ _ w
    rw [repair_eq, htypes, hbindings]
    show { (repointEach (s.repointings w u) w).1 with pins := w.pins } = _
    rw [← hpass.frame.pins]
  rw [hworld]
  exact hpass

end Repair

end World

namespace Session

variable [Host σ]

/-- **Propagations that spare types.** A propagation for living units has no deed that concerns
a type exactly if each repair spares the types of its unit where the propagation starts, and then it
relinks. -/
theorem propagate_spares_iff {s : Session} {w : World σ} (hfits : s.Fits w)
    (hpins : ∀ b ∈ s.references.bindings, ∀ n ∈ (Value.definition b.stale).nodes,
      w.pins.contains n = true)
    {us : List UnitId} (hus : ∀ u ∈ us, w.Reaches (.unit u)) :
    ((∀ d ∈ (World.repairEach (fun w u => w.repair s u) us w).2, d.event.concernsType = false) ↔
        ∀ u ∈ us, w.SparesTypes s u) ∧
      ((∀ u ∈ us, w.SparesTypes s u) → w.Relinked (s.propagate us w).2.2) := by
  rw [(s.propagate_eq_repairEach us w).2]
  induction us generalizing w with
  | nil => simp [World.repairEach, World.Relinked.refl]
  | cons u us ih =>
    rw [List.forall_mem_cons] at hus
    have hhead := World.concernsType_repair_iff hfits hpins hus.1
    -- if the first unit is spared, the others find the world as good as it was
    have hrest : w.SparesTypes s u →
        ((∀ d ∈ (World.repairEach (fun w u => w.repair s u) us (w.repair s u).1).2,
          d.event.concernsType = false) ↔ ∀ v ∈ us, w.SparesTypes s v) ∧
        ((∀ v ∈ us, w.SparesTypes s v) →
          w.Relinked (World.repairEach (fun w u => w.repair s u) us (w.repair s u).1).1) := by
      intro hspares
      have hrelinked := World.relinked_repair hfits hpins hus.1 hspares
      obtain ⟨hdeeds, hworld⟩ := ih (hfits.of_sameForm hrelinked.frame.form)
        (fun b hb n hn => hrelinked.frame.pins ▸ hpins b hb n hn)
        fun v hv => (hrelinked.reaches _).mpr (hus.2 v hv)
      have hcongr : (∀ v ∈ us, (w.repair s u).1.SparesTypes s v) ↔ ∀ v ∈ us, w.SparesTypes s v :=
        forall₂_congr fun v hv => World.sparesTypes_congr hrelinked s (hus.2 v hv)
      exact ⟨hdeeds.trans hcongr, fun h => hrelinked.trans (hworld (hcongr.mpr h))⟩
    rw [World.repairEach_cons, List.forall_mem_cons]
    simp only [List.forall_mem_append, hhead]
    exact ⟨and_congr_right fun h => (hrest h).1, fun h => (hrest h.1).2 h.2⟩

end Session

namespace Stats

/-- **Types spared.** Nothing but bindings and symbols is counted. -/
def SparesTypes (s : Stats) : Prop :=
  s.subtypesRepointed = 0 ∧ s.removedTypes = 0 ∧ s.objectsRetargeted = 0 ∧ s.objectsRejected = 0

end Stats

end HotReload
