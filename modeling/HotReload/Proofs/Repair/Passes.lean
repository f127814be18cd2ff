import HotReload.Proofs.World.Form
import HotReload.Reload.Repair

/-!
# Passes

A repair is made of *passes*: a step that is run once for each element of a list and tells its deeds.
A pass inside a pass is one pass over a longer list (`World.repairEach_flatMap`), a pass keeps what
each of its steps keeps (`World.repairEach_preserves`), and its deeds are those of its steps
(`World.forall_deeds_repairEach`).

A step is **quiet** if without a deed it leaves the world as it was (`World.Quiet`). All steps of a
repair are, so a repair without deeds changes nothing, and it has no deeds exactly if none of its
steps has one in the world at its start (`Quiet.deeds_eq_nil_iff`).
-/

namespace HotReload

/-- What an event stands for among the counts. -/
def Stats.ofEvent : Event → Stats
  | .bindingRepointed _ _ _ => { zero with bindingsRepointed := 1 }
  | .symbolRemoved _ _ => { zero with removedSymbols := 1 }
  | .ancestorRepointed _ _ => { zero with subtypesRepointed := 1 }
  | .typeRemoved _ => { zero with removedTypes := 1 }
  | .objectRetargeted _ => { zero with objectsRetargeted := 1 }
  | .retypeRejected _ _ => { zero with objectsRejected := 1 }
  | _ => zero

/-- A deed is **true to its event** if it counts as what the event stands for, and for something. -/
def Deed.IsTrue (d : Deed) : Prop := d.counts = Stats.ofEvent d.event ∧ d.counts ≠ .zero

namespace World

variable {σ α β : Type}

@[simp] theorem repairEach_nil (step : World σ → α → World σ × List Deed) (w : World σ) :
    repairEach step [] w = (w, []) := rfl

/-- A pass begins with its first step. -/
theorem repairEach_cons (step : World σ → α → World σ × List Deed) (a : α) (as : List α)
    (w : World σ) :
    repairEach step (a :: as) w =
      ((repairEach step as (step w a).1).1, (step w a).2 ++ (repairEach step as (step w a).1).2) :=
  rfl

/-- Two passes in a row are one. -/
theorem repairEach_append (step : World σ → α → World σ × List Deed) (as bs : List α)
    (w : World σ) :
    repairEach step (as ++ bs) w =
      ((repairEach step bs (repairEach step as w).1).1,
        (repairEach step as w).2 ++ (repairEach step bs (repairEach step as w).1).2) := by
  induction as generalizing w with
  | nil => rfl
  | cons a as ih => rw [List.cons_append, repairEach_cons, repairEach_cons, ih, List.append_assoc]

/-- **A pass of passes** is one pass. -/
theorem repairEach_flatMap (step : World σ → β → World σ × List Deed) (f : α → List β)
    (as : List α) (w : World σ) :
    repairEach step (as.flatMap f) w = repairEach (fun w a => repairEach step (f a) w) as w := by
  induction as generalizing w with
  | nil => rfl
  | cons a as ih => rw [List.flatMap_cons, repairEach_append, repairEach_cons, ih]

/-- A pass over images is one over the things themselves. -/
theorem repairEach_map (step : World σ → β → World σ × List Deed) (f : α → β) (as : List α)
    (w : World σ) :
    repairEach step (as.map f) w = repairEach (fun w a => step w (f a)) as w := by
  induction as generalizing w with
  | nil => rfl
  | cons a as ih => rw [List.map_cons, repairEach_cons, repairEach_cons, ih]

/-- A pass keeps what each of its steps keeps. -/
theorem repairEach_preserves {P : World σ → Prop} {step : World σ → α → World σ × List Deed}
    {as : List α} {w : World σ} (hw : P w)
    (hstep : ∀ a ∈ as, ∀ w, P w → P (step w a).1) : P (repairEach step as w).1 := by
  induction as generalizing w with
  | nil => exact hw
  | cons a as ih =>
    rw [repairEach_cons]
    apply ih (hstep a List.mem_cons_self w hw)
    intro b hb
    exact hstep b (List.mem_cons_of_mem a hb)

/-- What the step for one element brings about, and no other step undoes, holds after a pass. -/
theorem repairEach_establishes {P Q : World σ → Prop} {step : World σ → α → World σ × List Deed}
    {as : List α} {a : α} (ha : a ∈ as) {w : World σ} (hw : P w)
    (hkeep : ∀ b ∈ as, ∀ v, P v → P (step v b).1) (hdone : ∀ v, P v → Q (step v a).1)
    (hstay : ∀ b ∈ as, ∀ v, P v → Q v → Q (step v b).1) : Q (repairEach step as w).1 := by
  induction as generalizing w with
  | nil => cases ha
  | cons b as ih =>
    have hnext := hkeep b List.mem_cons_self w hw
    have hkeep' : ∀ c ∈ as, ∀ v, P v → P (step v c).1 :=
      fun c hc => hkeep c (List.mem_cons_of_mem b hc)
    have hstay' : ∀ c ∈ as, ∀ v, P v → Q v → Q (step v c).1 :=
      fun c hc => hstay c (List.mem_cons_of_mem b hc)
    rw [repairEach_cons]
    rcases List.mem_cons.mp ha with rfl | hmem
    · -- the step in question is the first, and the rest of the pass keeps what it brings about
      have hboth := repairEach_preserves (P := fun v => P v ∧ Q v) ⟨hnext, hdone w hw⟩
        fun c hc v hv => ⟨hkeep' c hc v hv.1, hstay' c hc v hv.1 hv.2⟩
      exact hboth.2
    · exact ih hmem hnext hkeep' hstay'

/-- A pass relates the worlds at its two ends as its steps do. -/
theorem repairEach_related {R : World σ → World σ → Prop} (hrefl : ∀ w, R w w)
    (htrans : ∀ {w w' w''}, R w w' → R w' w'' → R w w'')
    {step : World σ → α → World σ × List Deed} (as : List α) (w : World σ)
    (hstep : ∀ a ∈ as, ∀ w, R w (step w a).1) : R w (repairEach step as w).1 :=
  repairEach_preserves (hrefl w) fun a ha v hv => htrans hv (hstep a ha v)

/-- What holds of the deeds of each step holds of the deeds of a pass. -/
theorem forall_deeds_repairEach {P : Deed → Prop} {step : World σ → α → World σ × List Deed}
    {as : List α} {w : World σ} (hstep : ∀ a ∈ as, ∀ w, ∀ e ∈ (step w a).2, P e) :
    ∀ e ∈ (repairEach step as w).2, P e := by
  induction as generalizing w with
  | nil =>
    intro e he
    cases he
  | cons a as ih =>
    intro e he
    rw [repairEach_cons] at he
    -- a deed comes from the first step or from the others
    rcases List.mem_append.mp he with he | he
    · exact hstep a List.mem_cons_self w e he
    · exact ih (fun b hb => hstep b (List.mem_cons_of_mem a hb)) e he

/-- A pass has a deed of some kind if one of its steps has, where it can be told in advance which
steps have one: in all worlds that the pass goes through, they are the same. -/
theorem mem_deeds_repairEach_iff {P : World σ → Prop} {step : World σ → α → World σ × List Deed}
    {E : α → Prop} {e : Event} {as : List α} {w : World σ} (hw : P w)
    (hkeep : ∀ a ∈ as, ∀ v, P v → P (step v a).1)
    (hstep : ∀ a ∈ as, ∀ v, P v → (e ∈ (step v a).2.map Deed.event ↔ E a)) :
    e ∈ (repairEach step as w).2.map Deed.event ↔ ∃ a ∈ as, E a := by
  induction as generalizing w with
  | nil => simp
  | cons a as ih =>
    -- the condition holds in the world of the next step as well
    have hnext := hkeep a List.mem_cons_self w hw
    have hrest := ih hnext (fun b hb => hkeep b (List.mem_cons_of_mem a hb))
      fun b hb => hstep b (List.mem_cons_of_mem a hb)
    rw [repairEach_cons, List.map_append, List.mem_append, hstep a List.mem_cons_self w hw, hrest]
    simp only [List.mem_cons, exists_eq_or_imp]

/-- A pass whose steps agree on the list is the same pass. -/
theorem repairEach_congr {step step' : World σ → α → World σ × List Deed} {as : List α}
    {w : World σ} (h : ∀ a ∈ as, ∀ w, step w a = step' w a) :
    repairEach step as w = repairEach step' as w := by
  induction as generalizing w with
  | nil => rfl
  | cons a as ih =>
    rw [repairEach_cons, repairEach_cons, h a List.mem_cons_self,
      ih fun b hb => h b (List.mem_cons_of_mem a hb)]

/-! ### Quiet steps -/

/-- A step is **quiet** if it changes nothing without a deed. -/
def Quiet (step : World σ → α → World σ × List Deed) : Prop :=
  ∀ w a, (step w a).2 = [] → (step w a).1 = w

namespace Quiet

variable {step : World σ → α → World σ × List Deed}

/-- A pass of quiet steps is without deeds exactly if no step has one where the pass starts. -/
theorem deeds_eq_nil_iff (hq : Quiet step) (as : List α) (w : World σ) :
    (repairEach step as w).2 = [] ↔ ∀ a ∈ as, (step w a).2 = [] := by
  induction as with
  | nil => simp
  | cons a as ih =>
    rw [repairEach_cons, List.append_eq_nil_iff, List.forall_mem_cons]
    -- either way the first step is without deeds, so the others start where the pass does
    constructor
    · rintro ⟨ha, has⟩
      rw [hq w a ha, ih] at has
      exact ⟨ha, has⟩
    · rintro ⟨ha, has⟩
      rw [hq w a ha, ih]
      exact ⟨ha, has⟩

/-- A pass of quiet steps is a quiet step. -/
theorem repairEach (hq : Quiet step) (as : List α) (w : World σ)
    (h : (World.repairEach step as w).2 = []) : (World.repairEach step as w).1 = w := by
  induction as with
  | nil => rfl
  | cons a as ih =>
    rw [repairEach_cons, List.append_eq_nil_iff] at h
    rw [repairEach_cons]
    obtain ⟨ha, has⟩ := h
    rw [hq w a ha] at has ⊢
    exact ih has

end Quiet

/-! ### The steps of a repair -/

/-- Points a binding at the definition that it is paired with. -/
def repoint (w : World σ) (t : ExternalBinding × Definition) : World σ × List Deed :=
  w.repointBinding t.1 t.2

/-- No step of a repair changes names or layouts. -/
theorem sameForm_repoint (w : World σ) (t : ExternalBinding × Definition) :
    w.SameForm (w.repoint t).1 := by
  unfold repoint repointBinding
  split
  · split
    · exact w.sameForm_replaceExports _ _
    · exact .refl w
  · exact .refl w

theorem sameForm_repointAncestors (new : TypeId) (w : World σ) (s : TypeId) :
    w.SameForm (repointAncestors new w s).1 := by
  unfold repointAncestors
  split
  · exact w.sameForm_setAncestors _ _
  · exact .refl w

/-- What retargeting an object does: it gets the new type if that is another one and fits. -/
theorem retargetObject_fst (new : TypeId) (w : World σ) (o : ObjectId) :
    (retargetObject new w o).1 =
      if (w.object o).type ≠ new ∧ w.retypeError? (w.object o).type new = none then
        w.setTypeOf o new
      else w := by
  unfold retargetObject
  split
  · next h => rw [if_neg fun hc => hc.1 h]
  · next h =>
    unfold retarget
    cases hr : w.retypeError? (w.object o).type new with
    | none => rw [if_pos ⟨h, rfl⟩]
    -- the type is refused, and the object stays
    | some e => rw [if_neg fun hc => by simp at hc]

theorem sameForm_retargetObject (new : TypeId) (w : World σ) (o : ObjectId) :
    w.SameForm (retargetObject new w o).1 := by
  rw [retargetObject_fst]
  split
  · exact w.sameForm_setTypeOf o new
  · exact .refl w

/-- What a repointing does it shows. -/
theorem quiet_repoint :
    Quiet (repoint : World σ → ExternalBinding × Definition → World σ × List Deed) := by
  intro w t h
  unfold repoint repointBinding at h ⊢
  split
  · next held hheld =>
    rw [hheld] at h
    split
    · next hc =>
      simp only [if_pos hc] at h
      cases h
    · rfl
  · rfl

/-- So does a new ancestor. -/
theorem quiet_repointAncestors (new : TypeId) :
    Quiet (repointAncestors new : World σ → TypeId → World σ × List Deed) := by
  intro w s h
  unfold repointAncestors at h ⊢
  split
  · next hc =>
    rw [if_pos hc] at h
    cases h
  · rfl

/-- So does a move. A refusal is shown as well, although nothing is done. -/
theorem quiet_retargetObject (new : TypeId) :
    Quiet (retargetObject new : World σ → ObjectId → World σ × List Deed) := by
  intro w o h
  unfold retargetObject at h ⊢
  split
  · rfl
  · next hne =>
    rw [if_neg hne] at h
    split <;> simp_all

/-! ### Counts and events -/

/-- A repointed binding is counted as one. -/
theorem isTrue_repoint (w : World σ) (t : ExternalBinding × Definition) :
    ∀ d ∈ (w.repoint t).2, d.IsTrue := by
  intro d hd
  unfold repoint repointBinding at hd
  split at hd
  · split at hd
    · rw [List.mem_singleton.mp hd]
      exact ⟨rfl, by simp [Stats.zero]⟩
    · cases hd
  · cases hd

/-- So is a repaired list of ancestors. -/
theorem isTrue_repointAncestors (new : TypeId) (w : World σ) (s : TypeId) :
    ∀ d ∈ (repointAncestors new w s).2, d.IsTrue := by
  intro d hd
  unfold repointAncestors at hd
  split at hd
  · rw [List.mem_singleton.mp hd]
    exact ⟨rfl, by simp [Stats.zero]⟩
  · cases hd

/-- An object is counted as moved or as rejected, and the event says the same of it. -/
theorem isTrue_retargetObject (new : TypeId) (w : World σ) (o : ObjectId) :
    ∀ d ∈ (retargetObject new w o).2, d.IsTrue := by
  intro d hd
  unfold retargetObject at hd
  split at hd
  · cases hd
  · split at hd
    all_goals
      rw [List.mem_singleton.mp hd]
      exact ⟨rfl, by simp [Stats.zero]⟩

end World

end HotReload
