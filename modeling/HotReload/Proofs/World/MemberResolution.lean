import HotReload.Proofs.World.Hierarchy
import HotReload.Proofs.World.Preorder
import HotReload.Scenario.TwoUnits

/-!
# Member resolution

A member of a type is looked up in the types that can be reached through ancestor lists, in
depth-first preorder. On every ancestor graph, with whatever cycles, diamonds and repeated
ancestors, the lookup ends with the first declaration in that order, and without one only if no type
that can be reached declares the name. Where no cycle can be reached, the record of visited types
makes no difference to the result.
-/

namespace HotReload

namespace World

variable {σ : Type}

open DepthFirst

/-- A type without a cell lists no ancestors and declares no members. -/
theorem type_of_unknown {w : World σ} {t : TypeId} (h : decide (t.index < w.types.size) = false) :
    w.ancestors t = [] ∧ ∀ name, w.ownMember? t name = none := by
  have hdefault : w.type t = default :=
    w.types.get_of_size_le (Nat.le_of_not_lt (of_decide_eq_false h))
  unfold ancestors ownMember?
  rw [hdefault]
  exact ⟨rfl, fun _ => rfl⟩

/-- **Member resolution is the first match in preorder.** The types that can be reached from a type
have one depth-first preorder, whatever cycles, diamonds and repetitions there are. A member is
resolved to the first declaration in it, and to nothing only if no type that can be reached
declares the name. The recursion that hands on a record of visited types ends with this result, and
so does the recursion without a record if no type that can be reached is on a cycle. -/
theorem resolve?_eq_first_in_preorder (w : World σ) (t : TypeId) :
    ∃ order : List TypeId,
      (∀ order', Preorder w.ancestors ∅ [t] order' ↔ order' = order) ∧ order.Nodup ∧
      (∀ s, s ∈ order ↔ Relation.ReflTransGen w.Lists t s) ∧
      ∀ name,
        w.resolve? t name = order.findSome? (w.ownMember? · name) ∧
        (w.resolve? t name = none ↔
          ∀ s, Relation.ReflTransGen w.Lists t s → w.ownMember? s name = none) ∧
        (∀ r, (∃ seen, Finds w.ancestors (w.ownMember? · name) ∅ [t] r seen) ↔
          r = w.resolve? t name) ∧
        ((∀ s, Relation.ReflTransGen w.Lists t s → ¬ Relation.TransGen w.Lists s s) →
          ∀ r, PlainlyFinds w.ancestors (w.ownMember? · name) [t] r ↔ r = w.resolve? t name) := by
  have hnodes : ∀ s, s ∉ (w.knownTypes : Set TypeId) → w.ancestors s = [] := by
    intro s hs
    refine (type_of_unknown (decide_eq_false fun hlt => hs ?_)).1
    exact Finset.mem_image.mpr ⟨s.index, Finset.mem_range.mpr hlt, rfl⟩
  -- there are finitely many types, and others have no ancestors
  obtain ⟨order, horder⟩ := exists_preorder w.knownTypes.finite_toSet hnodes ∅ [t]
  have hmem : ∀ s, s ∈ order ↔ Relation.ReflTransGen w.Lists t s := horder.mem_iff
  refine ⟨order, fun order' => ⟨fun h => h.unique horder, fun h => h ▸ horder⟩, horder.nodup, hmem,
    fun name => ?_⟩
  -- no more types can be unseen than there are, and that is the bound of the recursion
  have hfirst : w.resolve? t name = order.findSome? (w.ownMember? · name) := by
    have hknown : ∀ s : TypeId, decide (s.index < w.types.size) = true →
        s ∈ (List.range w.types.size).map TypeId.mk := fun s hs =>
      List.mem_map.mpr ⟨s.index, List.mem_range.mpr (of_decide_eq_true hs), rfl⟩
    refine horder.first?_eq hknown (fun s hs => ?_) _ ?_ fun s _ => ?_
    · exact ⟨(type_of_unknown hs).1, (type_of_unknown hs).2 name⟩
    · exact List.countP_le_length.trans (by simp)
    · rw [NumberedSet.contains_empty]
      exact ⟨nofun, fun h => absurd h (Set.notMem_empty s)⟩
  obtain ⟨seen, hfinds, -⟩ := horder.finds (w.ownMember? · name)
  refine ⟨hfirst, ?_, fun r => ⟨?_, ?_⟩, fun hacyclic r => ?_⟩
  · rw [hfirst, List.findSome?_eq_none_iff]
    exact forall_congr' fun s => imp_congr_left (hmem s)
  · rintro ⟨seen', hr⟩
    exact (hr.unique hfinds).1.trans hfirst.symm
  · rintro rfl
    exact ⟨seen, hfirst ▸ hfinds⟩
  · -- an answer of the plain recursion is the one in preorder, and it has an answer
    have hplain : ∀ r, PlainlyFinds w.ancestors (w.ownMember? · name) [t] r →
        r = w.resolve? t name := by
      refine fun r hr => (horder.eq_of_plainlyFinds ?_ ?_ hr).trans hfirst.symm
      · exact fun s hs => List.mem_singleton.mp hs ▸ hacyclic
      · exact fun _ _ s hs => absurd hs (Set.notMem_empty s)
    have hfinite : {s | Relation.ReflTransGen w.Lists t s}.Finite :=
      order.finite_toSet.subset fun s hs => (hmem s).mpr hs
    have hends : ∃ r, PlainlyFinds w.ancestors (w.ownMember? · name) [t] r := by
      refine exists_plainlyFinds_of_forall fun s hs => ?_
      rw [List.mem_singleton.mp hs]
      exact exists_plainlyFinds hfinite hacyclic
    obtain ⟨r', hr'⟩ := hends
    exact ⟨hplain r, fun h => h ▸ hplain r' hr' ▸ hr'⟩

section Example

open Scenario.TwoUnits

/-- The opening world with one more type. It lists `D`, then `C`, which `D` lists too, and then `D`
again. -/
def knotted : World Fixture :=
  (opening.declareType ⟨"a", "E", opening.host.a, .dynamic, [], [], .empty⟩ [⟨1⟩, ⟨0⟩, ⟨1⟩]).2

/-- The plain recursion finds the method that two paths lead to. -/
theorem resolve?_eq_first_in_preorder_knotted :
    (∀ s, Relation.ReflTransGen knotted.Lists ⟨2⟩ s → ¬ Relation.TransGen knotted.Lists s s) ∧
      PlainlyFinds knotted.ancestors (knotted.ownMember? · "m") [⟨2⟩] (some ⟨⟨1⟩, .onObject⟩) := by
  have hlower : ∀ i < knotted.types.size, ∀ t ∈ knotted.ancestors ⟨i⟩, t.index < i := by
    decide +kernel
  have hacyclic : ∀ s r, Relation.TransGen knotted.Lists s r → r.index < s.index := by
    intro s r h
    induction h with
    | single h => exact hlower _ (index_lt_of_mem_ancestors h) _ h
    | tail _ h ih => exact (hlower _ (index_lt_of_mem_ancestors h) _ h).trans ih
  obtain ⟨_, -, -, -, hname⟩ := resolve?_eq_first_in_preorder knotted ⟨2⟩
  obtain ⟨-, -, -, hplain⟩ := hname "m"
  have hnone : ∀ s, Relation.ReflTransGen knotted.Lists ⟨2⟩ s →
      ¬ Relation.TransGen knotted.Lists s s := fun s _ h => Nat.lt_irrefl _ (hacyclic s s h)
  exact ⟨hnone, (hplain hnone _).mpr (by decide +kernel)⟩

end Example

end World

end HotReload
