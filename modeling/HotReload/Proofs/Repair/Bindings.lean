import HotReload.Proofs.Repair.Slots
import Mathlib.Data.List.Sort

/-!
# Bindings under propagation

As far as exports go, a propagation is one pass of repointings, and all of them can be read off the
world in which it starts (`Session.propagate_bindings`). The reason is that own definitions stay as
they are: a repair writes copies of one unit's definitions into slots of other units, in the place
of older copies, so what a unit itself owns and exports is the same at every step, and so are the
names that it claims (`Session.ownExports_repointEach`).

What a session has recorded fits a world as long as names are what they were
(`Session.Fits`); names are given once and for all, so every later world is of that kind.
-/

namespace HotReload

variable {σ : Type}

/-! ### Counts -/

namespace Stats

/-- A count of a tally is the sum of this count over the deeds. -/
theorem count_tally (f : Stats → Nat) (hzero : f zero = 0) (hadd : ∀ a b, f (a + b) = f a + f b)
    (ds : List Deed) : f (tally ds) = (ds.map fun d => f d.counts).sum := by
  induction ds with
  | nil => exact hzero
  | cons d ds ih => rw [tally, hadd, ih, List.map_cons, List.sum_cons]

/-- What no deed counts is not counted at all. -/
theorem count_tally_eq_zero (f : Stats → Nat) (hzero : f zero = 0)
    (hadd : ∀ a b, f (a + b) = f a + f b) {ds : List Deed} (h : ∀ d ∈ ds, f d.counts = 0) :
    f (tally ds) = 0 := by
  rw [count_tally f hzero hadd, List.sum_eq_zero]
  intro n hn
  obtain ⟨d, hd, rfl⟩ := List.mem_map.mp hn
  exact h d hd

/-- What every deed counts once is counted as often as there are deeds. -/
theorem count_tally_eq_length (f : Stats → Nat) (hzero : f zero = 0)
    (hadd : ∀ a b, f (a + b) = f a + f b) {ds : List Deed} (h : ∀ d ∈ ds, f d.counts = 1) :
    f (tally ds) = ds.length := by
  rw [count_tally f hzero hadd, List.map_congr_left h, List.map_const', List.sum_replicate_nat,
    Nat.mul_one]

end Stats

/-! ### Names in order -/

namespace QualifiedName

/-- Erasing duplicates leaves none. -/
theorem nodup_eraseDups (qs : List QualifiedName) : qs.eraseDups.Nodup := by
  -- erasing takes every later copy of the first name away, so the induction is on the length
  induction hn : qs.length using Nat.strong_induction_on generalizing qs with
  | _ n ih =>
    cases qs with
    | nil => exact List.nodup_nil
    | cons q qs =>
      rw [List.eraseDups_cons, List.nodup_cons, List.mem_eraseDups, List.mem_filter]
      refine ⟨by simp, ih _ ?_ _ rfl⟩
      rw [← hn, List.length_cons, Nat.lt_succ_iff]
      exact List.length_filter_le _ _

instance : Std.TransCmp cmp :=
  inferInstanceAs (Std.TransCmp (compareLex (compareOn fun q : QualifiedName => q.unit)
    (compareOn fun q : QualifiedName => q.path)))

instance : Std.LawfulEqCmp cmp where
  eq_of_compare {p q} h := by
    obtain ⟨hunit, hpath⟩ := Ordering.then_eq_eq.mp h
    cases p
    cases q
    exact (mk.injEq ..).mpr ⟨Std.LawfulEqCmp.eq_of_compare hunit,
      Std.LawfulEqCmp.eq_of_compare hpath⟩

instance : IsTrans QualifiedName fun p q => p.le q = true :=
  ⟨fun _ _ _ => Std.TransCmp.isLE_trans⟩

instance : Std.Total fun p q : QualifiedName => p.le q = true where
  total p q := by
    have hswap : q.cmp p = (p.cmp q).swap := Std.OrientedCmp.eq_swap
    rw [le, le, hswap, Ordering.isLE_swap]
    cases p.cmp q <;> simp

/-- Ordering names is sorting them by insertion. -/
theorem ordered_eq_insertionSort (qs : List QualifiedName) :
    ordered qs = qs.insertionSort fun p q => p.le q = true := by
  -- the two ways to insert are the same
  have hinsert : ∀ (q : QualifiedName) (ps : List QualifiedName),
      insertOrdered q ps = ps.orderedInsert (fun p q => p.le q = true) q := by
    intro q ps
    induction ps with
    | nil => rfl
    | cons p ps ih => rw [insertOrdered, List.orderedInsert_cons, ih]
  induction qs with
  | nil => rfl
  | cons q qs ih =>
    rw [List.insertionSort_cons, ← ih, ← hinsert]
    rfl

/-- Ordering loses no name and adds none. -/
theorem perm_ordered (qs : List QualifiedName) : (ordered qs).Perm qs := by
  rw [ordered_eq_insertionSort]
  exact List.perm_insertionSort _ qs

/-- An ordered set repeats no name. -/
theorem nodup_orderedSet (qs : List QualifiedName) : (orderedSet qs).Nodup :=
  (perm_ordered _).nodup_iff.mpr (nodup_eraseDups qs)

/-- **In order, without repetitions.** -/
theorem pairwise_orderedSet (qs : List QualifiedName) :
    (orderedSet qs).Pairwise fun p q => p.cmp q = .lt := by
  have hle : (orderedSet qs).Pairwise fun p q => p.le q = true := by
    rw [orderedSet, ordered_eq_insertionSort]
    exact List.pairwise_insertionSort _ _
  refine (hle.and (nodup_orderedSet qs)).imp fun {p q} h => ?_
  -- names in order that differ are in strict order
  have hne : p.cmp q ≠ .eq := fun heq => h.2 (Std.LawfulEqCmp.eq_of_compare heq)
  have hisLE : (p.cmp q).isLE = true := h.1
  cases hcmp : p.cmp q with
  | lt => rfl
  | eq => exact absurd hcmp hne
  | gt => rw [hcmp] at hisLE; cases hisLE

/-- It has the names that are there. -/
@[simp] theorem mem_orderedSet {q : QualifiedName} {qs : List QualifiedName} :
    q ∈ orderedSet qs ↔ q ∈ qs := by
  rw [orderedSet, mem_ordered, List.mem_eraseDups]

end QualifiedName

namespace References

/-- The keys of a unit are recorded under its name. -/
theorem mem_keysOwnedBy {r : References} {unit : String} {q : QualifiedName} :
    q ∈ r.keysOwnedBy unit ↔ (∃ b ∈ r.bindings, b.key = q) ∧ q.unit = unit := by
  rw [keysOwnedBy, QualifiedName.mem_orderedSet, List.mem_filter, List.mem_map,
    QualifiedName.isIn, beq_iff_eq]

/-- The holders of a name are the bindings under that key. -/
theorem mem_holders {r : References} {q : QualifiedName} {b : ExternalBinding} :
    b ∈ r.holders q ↔ b ∈ r.bindings ∧ b.key = q := by
  rw [holders, List.mem_filter, beq_iff_eq]

end References

namespace Session

/-- What a session has recorded **fits** a world in which the definitions have the names that they
were recorded under and the holders are still other units than the owners. -/
structure Fits (s : Session) (w : World σ) : Prop where
  key : ∀ b ∈ s.references.bindings, w.nameOf b.stale = b.key
  foreign : ∀ b ∈ s.references.bindings, b.key.unit ≠ (w.unit b.holder).name

/-- A session fits every world of the same form. -/
theorem Fits.of_sameForm {s : Session} {w w' : World σ} (h : s.Fits w) (hf : w.SameForm w') :
    s.Fits w' where
  key b hb := by rw [hf.nameOf, h.key b hb]
  foreign b hb := by
    rw [hf.unitName]
    exact h.foreign b hb

/-- The journal has no part in it. -/
theorem Fits.note {s : Session} {w : World σ} {unit : String} {deeds : List Deed}
    (h : s.Fits w) : (s.note unit deeds).Fits w :=
  ⟨h.key, h.foreign⟩

/-- The repointings that a repair of `u` makes in a world. -/
def repointings (s : Session) (w : World σ) (u : UnitId) : List (ExternalBinding × Definition) :=
  (w.claims (w.ownExports u)).flatMap fun c => (s.references.holders c.1).map (·, c.2)

/-- A binding is repointed to what claims its key. -/
theorem mem_repointings {s : Session} {w : World σ} {u : UnitId} {b : ExternalBinding}
    {d : Definition} :
    (b, d) ∈ s.repointings w u ↔ b ∈ s.references.bindings ∧ w.claimant? u b.key = some d := by
  simp only [repointings, List.mem_flatMap, List.mem_map, Prod.mk.injEq, Prod.exists,
    References.mem_holders, w.mem_claims_ownExports]
  constructor
  · rintro ⟨q, d', hclaim, b', ⟨hb, rfl⟩, rfl, rfl⟩
    exact ⟨hb, hclaim⟩
  · rintro ⟨hb, hclaim⟩
    exact ⟨b.key, d, hclaim, b, ⟨hb, rfl⟩, rfl, rfl⟩

/-- The names of definitions of `u` that bindings go by and that `u` does not claim. -/
def unclaimed (s : Session) (w : World σ) (u : UnitId) : List QualifiedName :=
  (s.references.keysOwnedBy (w.unit u).name).filter fun q => (w.claimant? u q).isNone

/-- A key is unclaimed if nothing with its name is exported by the unit that owns it. -/
theorem mem_unclaimed {s : Session} {w : World σ} {u : UnitId} {q : QualifiedName} :
    q ∈ s.unclaimed w u ↔
      (∃ b ∈ s.references.bindings, b.key = q) ∧ q.unit = (w.unit u).name ∧
        w.claimant? u q = none := by
  rw [unclaimed, List.mem_filter, References.mem_keysOwnedBy, Option.isNone_iff_eq_none, and_assoc]

/-! ### Own definitions stay -/

/-- A repointing that fits leaves what every unit owns. -/
theorem ownExports_repoint {s : Session} {w : World σ} (hfits : s.Fits w)
    {t : ExternalBinding × Definition} (hb : t.1 ∈ s.references.bindings)
    (hname : w.nameOf t.2 = t.1.key) (v : UnitId) :
    (w.repoint t).1.ownExports v = w.ownExports v := by
  have hform := w.sameForm_repoint t
  rw [World.ownExports, hform.ownDefinitions, hform.unitName, World.ownExports]
  by_cases hacts : w.Acts t
  · rw [World.repoint_of_acts hacts, World.setExport, World.exports_replaceExports]
    split
    · next hv =>
      -- a copy gives way to a copy, and neither belongs to the holder
      have hforeign := hfits.foreign t.1 hb
      rw [hv]
      apply w.ownDefinitions_insert hacts.1
      · rw [w.owns_eq_false_iff, hfits.key t.1 hb]
        exact hforeign
      · rw [w.owns_eq_false_iff, hname]
        exact hforeign
    · rfl
  · rw [World.repoint_of_not_acts hacts]

/-- No number of repointings changes what units export of their own. -/
theorem ownExports_repointEach {s : Session} {ts : List (ExternalBinding × Definition)}
    {w : World σ} (hfits : s.Fits w)
    (hts : ∀ t ∈ ts, t.1 ∈ s.references.bindings ∧ w.nameOf t.2 = t.1.key) (v : UnitId) :
    (World.repointEach ts w).1.ownExports v = w.ownExports v := by
  induction ts generalizing w with
  | nil => rfl
  | cons t ts ih =>
    rw [List.forall_mem_cons] at hts
    have hform := w.sameForm_repoint t
    -- names are still what they were, so the rest of the pass finds the same
    rw [World.repointEach_cons, ih (hfits.of_sameForm hform),
      ownExports_repoint hfits hts.1.1 hts.1.2]
    intro u hu
    rw [hform.nameOf]
    exact hts.2 u hu

/-- What `u` claims in a world depends on names and on the own definitions of `u`. -/
theorem claimant?_congr {w w' : World σ} (hform : w.SameForm w') {u : UnitId}
    (hown : w'.ownExports u = w.ownExports u) (q : QualifiedName) :
    w'.claimant? u q = w.claimant? u q := by
  simp only [World.claimant?, hown, hform.nameOf]

/-- Repointings depend on names and on the own exports. -/
theorem repointings_congr {s : Session} {w w' : World σ} (hform : w.SameForm w') {u : UnitId}
    (hown : w'.ownExports u = w.ownExports u) : s.repointings w' u = s.repointings w u := by
  rw [repointings, repointings, hown, hform.claims]

theorem unclaimed_congr {s : Session} {w w' : World σ} (hform : w.SameForm w') {u : UnitId}
    (hown : w'.ownExports u = w.ownExports u) : s.unclaimed w' u = s.unclaimed w u := by
  simp only [unclaimed, hform.unitName, claimant?_congr hform hown]

end Session

end HotReload
