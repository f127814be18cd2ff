import HotReload.Proofs.Repair.Opening
import HotReload.Proofs.Repair.Passes
import Mathlib.Data.Set.Card

/-!
# Slots under repointing

A *repointing* is a binding together with the definition that its slot shall be given. A list of
repointings that names no slot with two different ones (`World.OnePerSlot`) can be carried out in
one pass, and the outcome can be told slot by slot:

* a slot that holds what its binding remembers is given the new definition
  (`World.export?_repointEach`);
* every other slot keeps its value (`World.export?_repointEach_of_not_pending`);
* there is one deed for each slot that has changed (`World.length_deeds_repointEach`).

A slot that has been given the new definition is never written again, also where it is named twice.
That is why changed slots can be counted step by step.
-/

namespace HotReload.World

variable {σ : Type}

/-- A pass over repointings. -/
def repointEach (ts : List (ExternalBinding × Definition)) (w : World σ) : World σ × List Deed :=
  repairEach repoint ts w

/-- No slot is to be given two different definitions. -/
def OnePerSlot (ts : List (ExternalBinding × Definition)) : Prop :=
  ∀ t ∈ ts, ∀ t' ∈ ts, t.1.holder = t'.1.holder → t.1.localName = t'.1.localName → t = t'

/-- Fewer repointings still meet each slot once. -/
theorem OnePerSlot.tail {t : ExternalBinding × Definition}
    {ts : List (ExternalBinding × Definition)} (h : OnePerSlot (t :: ts)) : OnePerSlot ts :=
  fun a ha b hb => h a (List.mem_cons_of_mem t ha) b (List.mem_cons_of_mem t hb)

/-! ### One repointing -/

/-- A repointing acts if its slot holds what the binding remembers and is to hold something else. -/
def Acts (w : World σ) (t : ExternalBinding × Definition) : Prop :=
  w.export? t.1.holder t.1.localName = some (.definition t.1.stale) ∧ t.1.stale ≠ t.2

instance (w : World σ) (t : ExternalBinding × Definition) : Decidable (w.Acts t) :=
  inferInstanceAs (Decidable (_ ∧ _))

/-- A repointing that acts writes its slot and shows it. -/
theorem repoint_of_acts {w : World σ} {t : ExternalBinding × Definition} (h : w.Acts t) :
    w.repoint t = (w.setExport t.1.holder t.1.localName (.definition t.2),
      [⟨{ Stats.zero with bindingsRepointed := 1 },
        .bindingRepointed (w.unit t.1.holder).name t.1.localName t.1.key.text⟩]) := by
  unfold repoint repointBinding
  rw [h.1]
  exact if_pos ⟨rfl, h.2⟩

/-- Otherwise it does nothing. -/
theorem repoint_of_not_acts {w : World σ} {t : ExternalBinding × Definition} (h : ¬ w.Acts t) :
    w.repoint t = (w, []) := by
  unfold repoint repointBinding
  split
  · next held hheld =>
    -- the slot holds something else, or what it should get
    refine if_neg ?_
    rintro ⟨rfl, hne⟩
    exact h ⟨hheld, hne⟩
  · rfl

/-- A repointing gives its slot the new definition if the slot holds what the binding remembers,
and leaves it alone if not. -/
theorem export?_repoint_self (w : World σ) (t : ExternalBinding × Definition) :
    (w.repoint t).1.export? t.1.holder t.1.localName =
      if w.export? t.1.holder t.1.localName = some (.definition t.1.stale) then
        some (.definition t.2)
      else w.export? t.1.holder t.1.localName := by
  by_cases h : w.Acts t
  · rw [repoint_of_acts h, export?_setExport, if_pos ⟨rfl, rfl⟩, if_pos h.1]
  · rw [repoint_of_not_acts h]
    split
    · next hheld =>
      -- it does not act on a slot that holds the new definition already
      have heq : t.1.stale = t.2 := by
        by_contra hne
        exact h ⟨hheld, hne⟩
      rw [hheld, heq]
    · rfl

/-- A repointing leaves other slots alone. -/
theorem export?_repoint_of_ne (w : World σ) (t : ExternalBinding × Definition) {h : UnitId}
    {x : String} (hne : ¬ (t.1.holder = h ∧ t.1.localName = x)) :
    (w.repoint t).1.export? h x = w.export? h x := by
  by_cases hacts : w.Acts t
  · rw [repoint_of_acts hacts, export?_setExport, if_neg]
    rintro ⟨rfl, rfl⟩
    exact hne ⟨rfl, rfl⟩
  · rw [repoint_of_not_acts hacts]

/-- A repointing keeps the names of every table, in their order. -/
theorem names_repoint (w : World σ) (t : ExternalBinding × Definition) (h : UnitId) :
    ((w.repoint t).1.exports h).names = (w.exports h).names := by
  by_cases hacts : w.Acts t
  · rw [repoint_of_acts hacts, setExport, exports_replaceExports]
    split
    · next hh =>
      -- the name is there already, since the slot holds something
      have hmem : t.1.localName ∈ (w.exports t.1.holder).names :=
        Table.mem_names_of_get? hacts.1
      rw [Table.names_insert, if_pos hmem, hh]
    · rfl
  · rw [repoint_of_not_acts hacts]

/-! ### A pass of repointings -/

/-- Repointings are made one after the other. -/
theorem repointEach_cons (t : ExternalBinding × Definition)
    (ts : List (ExternalBinding × Definition)) (w : World σ) :
    repointEach (t :: ts) w =
      ((repointEach ts (w.repoint t).1).1, (w.repoint t).2 ++ (repointEach ts (w.repoint t).1).2) :=
  rfl

/-- A pass of repointings shows one repointed binding after the other, and nothing else. -/
theorem forall_deeds_repointEach {P : Deed → Prop}
    (hP : ∀ unit name key, P ⟨{ Stats.zero with bindingsRepointed := 1 },
      .bindingRepointed unit name key⟩)
    (ts : List (ExternalBinding × Definition)) (w : World σ) :
    ∀ d ∈ (repointEach ts w).2, P d := by
  refine forall_deeds_repairEach fun t _ v d hd => ?_
  by_cases hacts : v.Acts t
  · rw [repoint_of_acts hacts] at hd
    exact List.mem_singleton.mp hd ▸ hP _ _ _
  · rw [repoint_of_not_acts hacts] at hd
    cases hd

/-- No pass of repointings changes names or layouts. -/
theorem sameForm_repointEach (ts : List (ExternalBinding × Definition)) (w : World σ) :
    w.SameForm (repointEach ts w).1 :=
  repairEach_related SameForm.refl SameForm.trans ts w fun t _ v => v.sameForm_repoint t

/-- Nor the names that a unit exports. -/
theorem names_repointEach (ts : List (ExternalBinding × Definition)) (w : World σ) (h : UnitId) :
    ((repointEach ts w).1.exports h).names = (w.exports h).names :=
  repairEach_related (R := fun w w' => (w'.exports h).names = (w.exports h).names)
    (fun _ => rfl) (fun h h' => h'.trans h) ts w fun t _ v => v.names_repoint t h

/-- A slot that no repointing is waiting for keeps its value. -/
theorem export?_repointEach_of_not_pending (ts : List (ExternalBinding × Definition)) (w : World σ)
    {h : UnitId} {x : String}
    (hidle : ∀ t ∈ ts, t.1.holder = h → t.1.localName = x →
      w.export? h x ≠ some (.definition t.1.stale)) :
    (repointEach ts w).1.export? h x = w.export? h x := by
  induction ts generalizing w with
  | nil => rfl
  | cons t ts ih =>
    rw [List.forall_mem_cons] at hidle
    have hhead : (w.repoint t).1.export? h x = w.export? h x := by
      -- the head names another slot, or it waits for something else to be in this one
      by_cases hslot : t.1.holder = h ∧ t.1.localName = x
      · obtain ⟨rfl, rfl⟩ := hslot
        rw [export?_repoint_self, if_neg (hidle.1 rfl rfl)]
      · exact w.export?_repoint_of_ne t hslot
    rw [repointEach_cons, ← hhead]
    refine ih _ fun u hu hh hx => ?_
    rw [hhead]
    exact hidle.2 u hu hh hx

/-- A slot that has the definition meant for it keeps it. -/
theorem export?_repointEach_of_done (ts : List (ExternalBinding × Definition)) (w : World σ)
    {t : ExternalBinding × Definition}
    (hone : ∀ t' ∈ ts, t'.1.holder = t.1.holder → t'.1.localName = t.1.localName → t' = t)
    (hdone : w.export? t.1.holder t.1.localName = some (.definition t.2)) :
    (repointEach ts w).1.export? t.1.holder t.1.localName = some (.definition t.2) := by
  induction ts generalizing w with
  | nil => exact hdone
  | cons t' ts ih =>
    rw [List.forall_mem_cons] at hone
    rw [repointEach_cons]
    refine ih (w.repoint t').1 hone.2 ?_
    -- a repointing of this slot is `t` again, which has nothing to do any more
    by_cases hslot : t'.1.holder = t.1.holder ∧ t'.1.localName = t.1.localName
    · rw [hone.1 hslot.1 hslot.2, export?_repoint_self, hdone]
      exact ite_self _
    · rw [export?_repoint_of_ne w t' hslot, hdone]

/-- **A slot is repaired** if it holds what its binding remembers. -/
theorem export?_repointEach {ts : List (ExternalBinding × Definition)} (hone : OnePerSlot ts)
    (w : World σ) {t : ExternalBinding × Definition} (ht : t ∈ ts)
    (hheld : w.export? t.1.holder t.1.localName = some (.definition t.1.stale)) :
    (repointEach ts w).1.export? t.1.holder t.1.localName = some (.definition t.2) := by
  induction ts generalizing w with
  | nil => cases ht
  | cons t' ts ih =>
    rw [repointEach_cons]
    by_cases hslot : t'.1.holder = t.1.holder ∧ t'.1.localName = t.1.localName
    · -- this is the repointing of the slot, and what comes later leaves the slot alone
      obtain rfl := hone t' List.mem_cons_self t ht hslot.1 hslot.2
      refine export?_repointEach_of_done ts _ ?_ ?_
      · exact fun u hu hh hx => hone u (List.mem_cons_of_mem t' hu) t' List.mem_cons_self hh hx
      · rw [export?_repoint_self, if_pos hheld]
    · have hmem : t ∈ ts := by
        rcases List.mem_cons.mp ht with rfl | hmem
        · exact absurd ⟨rfl, rfl⟩ hslot
        · exact hmem
      exact ih hone.tail _ hmem (by rw [export?_repoint_of_ne w t' hslot, hheld])

/-! ### Counting changes -/

/-- The slots that hold different things in two worlds. -/
def changedSlots (w w' : World σ) : Set (UnitId × String) :=
  {p | w'.export? p.1 p.2 ≠ w.export? p.1 p.2}

/-- Nothing differs between a world and itself. -/
theorem changedSlots_self (w : World σ) : w.changedSlots w = ∅ := by
  ext p
  simp [changedSlots]

/-- Only slots named by a repointing change. -/
theorem changedSlots_repointEach_subset (ts : List (ExternalBinding × Definition)) (w : World σ) :
    w.changedSlots (repointEach ts w).1 ⊆
      {p | p ∈ ts.map fun t => (t.1.holder, t.1.localName)} := by
  intro p hp
  by_contra hnot
  refine hp (export?_repointEach_of_not_pending ts w ?_)
  intro t ht hh hx
  exact absurd (List.mem_map.mpr ⟨t, ht, by rw [hh, hx]⟩) hnot

/-- A pass changes finitely many slots. -/
theorem finite_changedSlots_repointEach (ts : List (ExternalBinding × Definition)) (w : World σ) :
    (w.changedSlots (repointEach ts w).1).Finite :=
  (List.finite_toSet _).subset (w.changedSlots_repointEach_subset ts)

/-- One repointing changes one slot at most, namely its own if it acts. -/
theorem changedSlots_repoint (w : World σ) (t : ExternalBinding × Definition) :
    w.changedSlots (w.repoint t).1 = {p | p = (t.1.holder, t.1.localName) ∧ w.Acts t} := by
  ext p
  simp only [changedSlots, Set.mem_ofPred_eq]
  by_cases hp : p = (t.1.holder, t.1.localName)
  · subst hp
    rw [export?_repoint_self]
    -- the slot is written only if it holds the stale definition
    by_cases hheld : w.export? t.1.holder t.1.localName = some (.definition t.1.stale)
    · rw [if_pos hheld, hheld]
      simp [Acts, hheld, eq_comm]
    · rw [if_neg hheld]
      simp [Acts, hheld]
  · have hne : ¬ (t.1.holder = p.1 ∧ t.1.localName = p.2) := by
      rintro ⟨hh, hx⟩
      exact hp (Prod.ext hh.symm hx.symm)
    rw [export?_repoint_of_ne w t hne]
    simp [hp]

/-- It has a deed for the slot that it changes. -/
theorem length_deeds_repoint (w : World σ) (t : ExternalBinding × Definition) :
    (w.repoint t).2.length = (w.changedSlots (w.repoint t).1).ncard := by
  rw [changedSlots_repoint]
  by_cases h : w.Acts t
  · rw [repoint_of_acts h]
    simp [h]
  · rw [repoint_of_not_acts h]
    simp [h]

/-- **One deed for each changed slot.** -/
theorem length_deeds_repointEach {ts : List (ExternalBinding × Definition)} (hone : OnePerSlot ts)
    (w : World σ) : (repointEach ts w).2.length = (w.changedSlots (repointEach ts w).1).ncard := by
  induction ts generalizing w with
  | nil => simp [repointEach, changedSlots_self]
  | cons t ts ih =>
    rw [repointEach_cons, List.length_append, length_deeds_repoint, ih hone.tail]
    -- what the head has changed stays as it is
    have hstay : ∀ p ∈ w.changedSlots (w.repoint t).1,
        (repointEach ts (w.repoint t).1).1.export? p.1 p.2 = (w.repoint t).1.export? p.1 p.2 := by
      intro p hp
      rw [changedSlots_repoint] at hp
      obtain ⟨rfl, hacts⟩ := hp
      have hdone : (w.repoint t).1.export? t.1.holder t.1.localName = some (.definition t.2) := by
        rw [export?_repoint_self, if_pos hacts.1]
      rw [hdone]
      refine export?_repointEach_of_done ts _ ?_ hdone
      exact fun u hu hh hx => hone u (List.mem_cons_of_mem t hu) t List.mem_cons_self hh hx
    have hunion : w.changedSlots (repointEach ts (w.repoint t).1).1 =
        w.changedSlots (w.repoint t).1 ∪
          (w.repoint t).1.changedSlots (repointEach ts (w.repoint t).1).1 := by
      ext p
      by_cases hp : p ∈ w.changedSlots (w.repoint t).1
      · -- changed by the head, and left at that by the rest
        refine iff_of_true ?_ (.inl hp)
        rw [changedSlots, Set.mem_ofPred_eq, hstay p hp]
        exact hp
      · have hsame : (w.repoint t).1.export? p.1 p.2 = w.export? p.1 p.2 := by
          by_contra hc
          exact hp hc
        rw [Set.mem_union, or_iff_right hp]
        simp only [changedSlots, Set.mem_ofPred_eq, hsame]
    have hdisjoint : Disjoint (w.changedSlots (w.repoint t).1)
        ((w.repoint t).1.changedSlots (repointEach ts (w.repoint t).1).1) := by
      rw [Set.disjoint_left]
      intro p hp hp'
      exact hp' (hstay p hp)
    -- the head changes one slot at most
    rw [hunion, Set.ncard_union_eq hdisjoint ?_ (finite_changedSlots_repointEach ts _)]
    rw [changedSlots_repoint]
    exact (Set.finite_singleton (t.1.holder, t.1.localName)).subset fun p hp => hp.1

/-! ### Passes in different worlds -/

/-- A repointing sees nothing of a world but its exports. -/
theorem repoint_congr {w v : World σ} (h : w.exports = v.exports)
    (t : ExternalBinding × Definition) :
    (w.repoint t).1.exports = (v.repoint t).1.exports ∧
      (w.repoint t).2.length = (v.repoint t).2.length := by
  have hslot : ∀ u x, w.export? u x = v.export? u x := by
    intro u x
    rw [export?, export?, h]
  -- whether it acts can be read off the slot
  by_cases hacts : w.Acts t
  · have hacts' : v.Acts t := ⟨hslot _ _ ▸ hacts.1, hacts.2⟩
    rw [repoint_of_acts hacts, repoint_of_acts hacts']
    refine ⟨funext fun u => ?_, rfl⟩
    simp only [setExport, exports_replaceExports, h]
  · have hacts' : ¬ v.Acts t := fun hc => hacts ⟨(hslot _ _).trans hc.1, hc.2⟩
    rw [repoint_of_not_acts hacts, repoint_of_not_acts hacts']
    exact ⟨h, rfl⟩

/-- A pass depends on slots alone, as to slots and as to the number of deeds. -/
theorem repointEach_congr {w v : World σ} (h : w.exports = v.exports)
    (ts : List (ExternalBinding × Definition)) :
    (repointEach ts w).1.exports = (repointEach ts v).1.exports ∧
      (repointEach ts w).2.length = (repointEach ts v).2.length := by
  induction ts generalizing w v with
  | nil => exact ⟨h, rfl⟩
  | cons t ts ih =>
    obtain ⟨hexports, hdeeds⟩ := repoint_congr h t
    obtain ⟨hexports', hdeeds'⟩ := ih hexports
    rw [repointEach_cons, repointEach_cons]
    refine ⟨hexports', ?_⟩
    rw [List.length_append, List.length_append, hdeeds, hdeeds']

end HotReload.World
