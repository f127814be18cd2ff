import HotReload.Proofs.World.Reachability
import HotReload.Proofs.World.Soundness
import Mathlib.Data.Set.Card
import Mathlib.Logic.Relation

/-!
# The type hierarchy

A hierarchy is **acyclic** if no living type derives from itself (`World.Acyclic`). The test for
subtypes relies on this: it follows ancestors without a record of where it has been, so on a cycle
it may run forever. `World.isSubtype` has a bound in place of that, and what the bound replaces is
the recursion that is cut off at some depth (`World.search?`). In a sound, acyclic hierarchy the
recursion ends by itself and finds what `World.isSubtype` finds (`World.Acyclic.search?_eq_some`).
On a cycle from which the type in question is not reached no depth is enough
(`World.search?_eq_none_of_cycle`).
-/

namespace HotReload

/-! ### Disjunctions that may stay open -/

section Disjunctions

variable {α : Type} {p : α → Option Bool}

/-- A disjunction whose parts are decided is decided as they are. -/
theorem any_eq_of_anyM {f : α → Bool} (hf : ∀ a b, p a = some b → f a = b) {as : List α} {b : Bool}
    (h : as.anyM p = some b) : as.any f = b := by
  induction as with
  | nil => exact Option.some.inj h
  | cons a as ih =>
    rw [List.anyM_cons] at h
    obtain ⟨b', ha, hrest⟩ := Option.bind_eq_some_iff.mp h
    rw [List.any_cons, hf a b' ha]
    cases b' with
    | true => exact Option.some.inj hrest
    | false => exact ih hrest

theorem isSome_anyM {as : List α} (h : ∀ a ∈ as, (p a).isSome = true) :
    (as.anyM p).isSome = true := by
  induction as with
  | nil => rfl
  | cons a as ih =>
    rw [List.forall_mem_cons] at h
    obtain ⟨b, hb⟩ := Option.isSome_iff_exists.mp h.1
    rw [List.anyM_cons, hb]
    cases b with
    | true => rfl
    | false => exact ih h.2

/-- A disjunction in which one part is open and none is true is open. -/
theorem anyM_eq_none {as : List α} (hfalse : ∀ a ∈ as, p a ≠ some true)
    (hopen : ∃ a ∈ as, p a = none) : as.anyM p = none := by
  induction as with
  | nil =>
    obtain ⟨a, ha, -⟩ := hopen
    cases ha
  | cons a as ih =>
    rw [List.forall_mem_cons] at hfalse
    rw [List.exists_mem_cons_iff] at hopen
    rw [List.anyM_cons]
    -- the first one that is open leaves it open; before it there are only refusals
    match ha : p a with
    | none => rfl
    | some true => exact absurd ha hfalse.1
    | some false =>
      refine ih hfalse.2 (hopen.resolve_left ?_)
      rw [ha]
      exact Option.some_ne_none false

end Disjunctions

namespace World

variable {σ : Type}

/-! ### Cycles -/

/-- True if `s` has `t` in its ancestor list. -/
def Lists (w : World σ) (s t : TypeId) : Prop := t ∈ w.ancestors s

/-- **Acyclic.** No living type is its own ancestor, at whatever distance. -/
def Acyclic [Host σ] (w : World σ) : Prop :=
  ∀ t, w.Reaches (.type t) → ¬ Relation.TransGen w.Lists t t

/-- Types that only list lower types form no cycle. -/
theorem not_cycle_of_height {w : World σ} (height : TypeId → Nat)
    (h : ∀ i < w.types.size, ∀ t ∈ w.ancestors ⟨i⟩, height t < height ⟨i⟩) (t : TypeId) :
    ¬ Relation.TransGen w.Lists t t := by
  have hstep : ∀ s t, w.Lists s t → height t < height s := by
    intro s t hst
    exact h s.index (index_lt_of_mem_ancestors hst) t hst
  intro hcycle
  -- each step goes down, so a cycle would end below its start
  have hless : ∀ r, Relation.TransGen w.Lists t r → height r < height t := by
    intro r hr
    induction hr with
    | single hr => exact hstep _ _ hr
    | tail _ hr ih => exact Nat.lt_trans (hstep _ _ hr) ih
  exact Nat.lt_irrefl _ (hless t hcycle)

theorem acyclic_of_height [Host σ] {w : World σ} (height : TypeId → Nat)
    (h : ∀ i < w.types.size, ∀ t ∈ w.ancestors ⟨i⟩, height t < height ⟨i⟩) : w.Acyclic :=
  fun t _ => not_cycle_of_height height h t

section Living

variable [Host σ] {w : World σ}

/-- The ancestors of a living type are alive. -/
theorem Sound.reaches_of_lists (hw : w.Sound) {s t : TypeId} (hs : w.Reaches (.type s))
    (h : w.Lists s t) : w.Reaches (.type t) :=
  .step hs (List.mem_map_of_mem h) (decide_eq_true (hw.ancestors s t h))

theorem Sound.reaches_of_path (hw : w.Sound) {s t : TypeId} (hs : w.Reaches (.type s))
    (h : Relation.ReflTransGen w.Lists s t) : w.Reaches (.type t) := by
  induction h with
  | refl => exact hs
  | tail _ hstep ih => exact hw.reaches_of_lists ih hstep

end Living

/-! ### The recursion without a bound -/

/-- **The search for an ancestor**, cut off at a depth: the answer, if no path has to be followed
further down. -/
def search? (w : World σ) (t : TypeId) : Nat → TypeId → Option Bool
  | 0, _ => none
  | depth + 1, s => if s = t then some true else (w.ancestors s).anyM (w.search? t depth)

section Search

variable {w : World σ} {t : TypeId}

/-- What the search finds at some depth every bound from there on finds. -/
theorem derives_of_search? {depth : Nat} {s : TypeId} {b : Bool}
    (h : w.search? t depth s = some b) {bound : Nat} (hbound : depth ≤ bound) :
    w.derives t bound s = b := by
  induction depth generalizing s b bound with
  | zero => cases h
  | succ depth ih =>
    -- a bound that is at least the depth is a successor too
    obtain ⟨bound, rfl⟩ := Nat.exists_eq_add_of_le' (Nat.lt_of_lt_of_le (Nat.succ_pos depth) hbound)
    rw [search?] at h
    rw [derives]
    split at h
    · next hs =>
      rw [beq_iff_eq.mpr hs, Bool.true_or]
      exact Option.some.inj h
    · next hs =>
      rw [beq_eq_false_iff_ne.mpr hs, Bool.false_or]
      exact any_eq_of_anyM (fun _ _ ha => ih ha (Nat.le_of_succ_le_succ hbound)) h

/-- The types that have a cell. -/
def knownTypes (w : World σ) : Finset TypeId := (Finset.range w.types.size).image .mk

theorem mem_knownTypes {s : TypeId} : s ∈ w.knownTypes ↔ s.index < w.types.size := by
  rw [knownTypes, Finset.mem_image]
  constructor
  · rintro ⟨i, hi, rfl⟩
    exact Finset.mem_range.mp hi
  · exact fun hs => ⟨s.index, Finset.mem_range.mpr hs, rfl⟩

/-- How many types with a cell a type leads to, at whatever distance, itself included. -/
noncomputable def rank (w : World σ) (s : TypeId) : Nat :=
  {r | r ∈ w.knownTypes ∧ Relation.ReflTransGen w.Lists s r}.ncard

theorem rank_le (s : TypeId) : w.rank s ≤ w.types.size := by
  calc w.rank s
      ≤ (w.knownTypes : Set TypeId).ncard :=
        Set.ncard_le_ncard (fun _ hr => hr.1) w.knownTypes.finite_toSet
    _ = w.knownTypes.card := Set.ncard_coe_finset _
    _ ≤ (Finset.range w.types.size).card := Finset.card_image_le
    _ = w.types.size := Finset.card_range _

/-- From a type that is on no cycle an ancestor does not lead back to it. -/
theorem rank_lt {s r : TypeId} (h : w.Lists s r) (hs : ¬ Relation.TransGen w.Lists s s) :
    w.rank r < w.rank s := by
  refine Set.ncard_lt_ncard ?_ (w.knownTypes.finite_toSet.subset fun _ hx => hx.1)
  refine Set.ssubset_iff_exists.mpr ⟨fun x hx => ⟨hx.1, .head h hx.2⟩, s, ?_, fun hback => ?_⟩
  · exact ⟨mem_knownTypes.mpr (index_lt_of_mem_ancestors h), .refl⟩
  · exact hs (.head' h hback.2)

/-- **The search ends** if no cycle can be reached. -/
theorem isSome_search? (t : TypeId) {s : TypeId}
    (hs : ∀ r, Relation.ReflTransGen w.Lists s r → ¬ Relation.TransGen w.Lists r r) {depth : Nat}
    (hdepth : w.rank s < depth) : (w.search? t depth s).isSome = true := by
  induction depth generalizing s with
  | zero => cases hdepth
  | succ depth ih =>
    rw [search?]
    split
    · rfl
    · refine isSome_anyM fun r hr => ih (fun x hx => hs x (.head hr hx)) ?_
      exact Nat.lt_of_lt_of_le (rank_lt hr (hs s .refl)) (Nat.le_of_lt_succ hdepth)

theorem search?_eq_some (t : TypeId) {s : TypeId}
    (hs : ∀ r, Relation.ReflTransGen w.Lists s r → ¬ Relation.TransGen w.Lists r r) :
    ∃ depth, w.search? t depth s = some (w.isSubtype s t) := by
  have hdepth : w.rank s < w.types.size + 1 := Nat.lt_succ_of_le (rank_le s)
  obtain ⟨b, hb⟩ := Option.isSome_iff_exists.mp (isSome_search? t hs hdepth)
  have hsame : w.isSubtype s t = b := derives_of_search? hb (Nat.le_refl _)
  exact ⟨w.types.size + 1, hsame ▸ hb⟩

/-- **The test for subtypes ends** in an acyclic hierarchy, with the answer of `World.isSubtype`. -/
theorem Acyclic.search?_eq_some [Host σ] (h : w.Acyclic) (hw : w.Sound) {s : TypeId}
    (hs : w.Reaches (.type s)) (t : TypeId) :
    ∃ depth, w.search? t depth s = some (w.isSubtype s t) :=
  World.search?_eq_some t fun r hr => h r (hw.reaches_of_path hs hr)

/-- **The test for instances ends** as well. -/
theorem Acyclic.search?_type_eq_some [Host σ] (h : w.Acyclic) (hw : w.Sound) {o : ObjectId}
    (ho : w.Reaches (.object o)) (t : TypeId) :
    ∃ depth, w.search? t depth (w.object o).type = some (w.isInstance o t) := by
  by_cases hknown : w.knows (.type (w.object o).type) = true
  · exact h.search?_eq_some hw (.step ho List.mem_cons_self hknown) t
  · -- a type without a cell has no ancestors
    refine World.search?_eq_some t fun r hr hcycle => hknown ?_
    have hlists : ∃ x, w.Lists (w.object o).type x := by
      rcases Relation.ReflTransGen.cases_head_iff.mp hr with rfl | ⟨x, hx, -⟩
      · obtain ⟨x, hx, -⟩ := Relation.TransGen.head'_iff.mp hcycle
        exact ⟨x, hx⟩
      · exact ⟨x, hx⟩
    obtain ⟨x, hx⟩ := hlists
    exact decide_eq_true (index_lt_of_mem_ancestors hx)

/-- What the search finds is an ancestor. -/
theorem path_of_search? {depth : Nat} {s : TypeId} (h : w.search? t depth s = some true) :
    Relation.ReflTransGen w.Lists s t := by
  induction depth generalizing s with
  | zero => cases h
  | succ depth ih =>
    rw [search?] at h
    split at h
    · next hs => exact hs ▸ .refl
    · -- a true disjunction has a true part
      have htrue := any_eq_of_anyM (f := fun r => w.search? t depth r == some true)
        (fun r b hr => by rw [hr]; cases b <;> rfl) h
      obtain ⟨r, hr, hfound⟩ := List.any_eq_true.mp htrue
      exact .head hr (ih (beq_iff_eq.mp hfound))

/-- What the search does not find is no ancestor. -/
theorem not_path_of_search? {depth : Nat} {s : TypeId} (h : w.search? t depth s = some false) :
    ¬ Relation.ReflTransGen w.Lists s t := by
  induction depth generalizing s with
  | zero => cases h
  | succ depth ih =>
    rw [search?] at h
    split at h
    · cases Option.some.inj h
    · next hs =>
      -- all parts of a false disjunction are false
      have hfalse := any_eq_of_anyM (f := fun r => w.search? t depth r != some false)
        (fun r b hr => by rw [hr]; cases b <;> rfl) h
      intro hpath
      obtain rfl | ⟨r, hr, hrest⟩ := Relation.ReflTransGen.cases_head_iff.mp hpath
      · exact hs rfl
      · have hr' := List.any_eq_false.mp hfalse r hr
        exact ih (by simpa using hr') hrest

/-- **On a cycle the search does not end**, unless it finds what it is looking for. -/
theorem search?_eq_none_of_cycle {s : TypeId} (hcycle : Relation.TransGen w.Lists s s)
    (hnot : ¬ Relation.ReflTransGen w.Lists s t) (depth : Nat) : w.search? t depth s = none := by
  -- all types between `s` and `s` are treated alike
  suffices hall : ∀ r, Relation.ReflTransGen w.Lists s r → Relation.ReflTransGen w.Lists r s →
      w.search? t depth r = none from hall s .refl .refl
  induction depth with
  | zero => exact fun r _ _ => rfl
  | succ depth ih =>
    intro r hsr hrs
    obtain ⟨x, hx, hxs⟩ := Relation.TransGen.head'_iff.mp (hcycle.trans_right hrs)
    rw [search?, if_neg]
    · refine anyM_eq_none (fun a ha hfound => ?_) ⟨x, hx, ih x (hsr.tail hx) hxs⟩
      exact hnot ((hsr.tail ha).trans (path_of_search? hfound))
    · rintro rfl
      exact hnot hsr

end Search

end World

end HotReload
