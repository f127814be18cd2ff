import HotReload.Proofs.World.MemberResolution

/-!
# Subtyping

The test for subtypes follows ancestors from a type upwards. Where it cannot run into a cycle it
ends, and what it finds are the types that the ancestor lists lead to: `World.isSubtype` is
reachability (`World.isSubtype_iff`). So it is an order there.

The other walk over ancestors is the one that resolves members. It keeps a record of where it has
been and stops at the first declaration, so the two visit types differently. They agree on what
there is to visit: a member is resolved to a declaration of a type that the test calls an ancestor,
and the declarations of all these types are taken notice of (`World.isSubtype_iff_ancestry`).
-/

namespace HotReload.World

variable {σ : Type} {w : World σ}

/-- **Subtyping is reachability** where no cycle can be reached. -/
theorem isSubtype_iff {s : TypeId}
    (hs : ∀ r, Relation.ReflTransGen w.Lists s r → ¬ Relation.TransGen w.Lists r r) (t : TypeId) :
    w.isSubtype s t = true ↔ Relation.ReflTransGen w.Lists s t := by
  obtain ⟨depth, hdepth⟩ := search?_eq_some t hs
  cases h : w.isSubtype s t with
  | true => exact iff_of_true rfl (path_of_search? (h ▸ hdepth))
  | false => exact iff_of_false Bool.false_ne_true (not_path_of_search? (h ▸ hdepth))

/-- Where no cycle can be reached, types that lead to each other are the same. -/
theorem eq_of_paths {s t : TypeId} (hs : ¬ Relation.TransGen w.Lists s s)
    (hst : Relation.ReflTransGen w.Lists s t) (hts : Relation.ReflTransGen w.Lists t s) :
    s = t := by
  rcases Relation.ReflTransGen.cases_head_iff.mp hst with h | ⟨r, hr, hrt⟩
  · exact h
  · exact absurd (.head' hr (hrt.trans hts)) hs

open DepthFirst in
/-- **Resolution asks all ancestors.** The types that a type leads to can be listed so that a member
is resolved to the first declaration in the list. -/
theorem exists_order_of_resolution (w : World σ) (s : TypeId) :
    ∃ order : List TypeId, (∀ t, t ∈ order ↔ Relation.ReflTransGen w.Lists s t) ∧
      ∀ name, w.resolve? s name = order.findSome? (w.ownMember? · name) := by
  have hnodes : ∀ t, t ∉ (w.knownTypes : Set TypeId) → w.ancestors t = [] := by
    refine fun t ht => List.eq_nil_iff_forall_not_mem.mpr fun r hr => ht ?_
    exact mem_knownTypes.mpr (index_lt_of_mem_ancestors hr)
  obtain ⟨order, horder⟩ := exists_preorder w.knownTypes.finite_toSet hnodes ∅ [s]
  refine ⟨order, horder.mem_iff, fun name => ?_⟩
  -- all types with a cell may be visited, which is as often as there are cells
  have hcells : ∀ t, w.knows (.type t) = true → t ∈ (List.range w.types.size).map TypeId.mk :=
    fun t ht => List.mem_map.mpr ⟨t.index, List.mem_range.mpr (of_decide_eq_true ht), rfl⟩
  refine horder.first?_eq hcells
    (fun t ht => ⟨(type_of_unknown ht).1, (type_of_unknown ht).2 name⟩) _ ?_ fun t _ => ?_
  · exact List.countP_le_length.trans (by rw [List.length_map, List.length_range])
  · rw [NumberedSet.contains_empty]
    exact ⟨nofun, fun h => absurd h (Set.notMem_empty t)⟩

/-- What is resolved is declared by a type that the lists lead to. -/
theorem exists_path_of_resolve? {s : TypeId} {name : String} {m : Member}
    (h : w.resolve? s name = some m) :
    ∃ t, Relation.ReflTransGen w.Lists s t ∧ w.ownMember? t name = some m := by
  obtain ⟨order, hmem, hfirst⟩ := w.exists_order_of_resolution s
  rw [hfirst] at h
  obtain ⟨t, ht, hm⟩ := List.exists_of_findSome?_eq_some h
  exact ⟨t, (hmem t).mp ht, hm⟩

/-- What is declared by a type that the lists lead to is resolved, to this declaration or to an
earlier one. -/
theorem exists_resolve?_of_path {s t : TypeId} {name : String} {m : Member}
    (hpath : Relation.ReflTransGen w.Lists s t) (hm : w.ownMember? t name = some m) :
    ∃ m', w.resolve? s name = some m' := by
  obtain ⟨order, hmem, hfirst⟩ := w.exists_order_of_resolution s
  rw [← Option.isSome_iff_exists, hfirst, List.findSome?_isSome_iff]
  exact ⟨t, (hmem t).mpr hpath, hm ▸ rfl⟩

/-- **Subtyping is ancestry, and members are resolved in it.** Let no cycle be reached from `s`, as
is the case for all types of an acyclic hierarchy. Then

* the recursion that tests if `s` is a subtype of `t` ends, and says yes exactly if `t` is `s` or
  can be reached from it through ancestor lists;
* as far as `s` is concerned, the test is reflexive, transitive and antisymmetric;
* a member of `s` is resolved to the declaration of a type of which `s` is a subtype, and it is
  resolved if any such type declares it. -/
theorem isSubtype_iff_ancestry (w : World σ) {s : TypeId}
    (hs : ∀ r, Relation.ReflTransGen w.Lists s r → ¬ Relation.TransGen w.Lists r r) :
    (∀ t, (∃ depth, w.search? t depth s = some (w.isSubtype s t)) ∧
      (w.isSubtype s t = true ↔ Relation.ReflTransGen w.Lists s t)) ∧
    w.isSubtype s s = true ∧
    (∀ t r, w.isSubtype s t = true → w.isSubtype t r = true → w.isSubtype s r = true) ∧
    (∀ t, w.isSubtype s t = true → w.isSubtype t s = true → s = t) ∧
    ∀ name,
      (∀ m, w.resolve? s name = some m →
        ∃ t, w.isSubtype s t = true ∧ w.ownMember? t name = some m) ∧
      ∀ t m, w.isSubtype s t = true → w.ownMember? t name = some m →
        ∃ m', w.resolve? s name = some m' := by
  have hiff := isSubtype_iff hs
  -- what `s` leads to reaches no cycle either
  have hiff' : ∀ t, w.isSubtype s t = true → ∀ r,
      (w.isSubtype t r = true ↔ Relation.ReflTransGen w.Lists t r) := by
    intro t hst
    exact isSubtype_iff fun r hr => hs r (((hiff t).mp hst).trans hr)
  refine ⟨fun t => ⟨search?_eq_some t hs, hiff t⟩, w.isSubtype_self s, fun t r hst htr => ?_,
    fun t hst hts => ?_, fun name => ⟨fun m hm => ?_, fun t m hst hm => ?_⟩⟩
  · exact (hiff r).mpr (((hiff t).mp hst).trans ((hiff' t hst r).mp htr))
  · exact eq_of_paths (hs s .refl) ((hiff t).mp hst) ((hiff' t hst s).mp hts)
  · obtain ⟨t, hpath, ht⟩ := exists_path_of_resolve? hm
    exact ⟨t, (hiff t).mpr hpath, ht⟩
  · exact exists_resolve?_of_path ((hiff t).mp hst) hm

/-- From the type that lists `D`, `C` and `D` again the test for `C` ends with yes, and the method
that two paths lead to is declared by a type of which it is a subtype. -/
theorem isSubtype_iff_ancestry_knotted :
    (∀ r, Relation.ReflTransGen knotted.Lists ⟨2⟩ r → ¬ Relation.TransGen knotted.Lists r r) ∧
      (∃ depth, knotted.search? ⟨0⟩ depth ⟨2⟩ = some true) ∧
      Relation.ReflTransGen knotted.Lists ⟨2⟩ ⟨0⟩ ∧
      ∃ t, knotted.isSubtype ⟨2⟩ t = true ∧ knotted.ownMember? t "m" = some ⟨⟨1⟩, .onObject⟩ := by
  have hacyclic : ∀ r, Relation.ReflTransGen knotted.Lists ⟨2⟩ r →
      ¬ Relation.TransGen knotted.Lists r r := fun r _ =>
    not_cycle_of_height (fun t => t.index) (by decide +kernel) r
  obtain ⟨htest, -, -, -, hmembers⟩ := isSubtype_iff_ancestry knotted hacyclic
  have hsubtype : knotted.isSubtype ⟨2⟩ ⟨0⟩ = true := by decide +kernel
  obtain ⟨hends, hiff⟩ := htest ⟨0⟩
  exact ⟨hacyclic, hsubtype ▸ hends, hiff.mp hsubtype,
    (hmembers "m").1 _ (by decide +kernel)⟩

end HotReload.World
