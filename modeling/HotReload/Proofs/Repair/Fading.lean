import HotReload.Proofs.Repair.Moves
import HotReload.Proofs.World.Operations
import HotReload.Proofs.World.Reachability

/-!
# Fading references

A repair refers to nothing new but to what the repaired unit exports. All else it can do to the
references of a world is to take them away: the world **fades** (`World.Fades`). What a repaired
unit exports is alive anyway, so no node comes to life in the course of a propagation
(`World.Fades.reaches`).

Fading is what makes the repair of ancestor lists last. When the subtypes of an old type have been
repaired, no living type lists it (`World.unlisted_repointSubtypes`); and since neither dead types
nor references to the old type come back, this is still so when the propagation is over
(`Session.unlisted_propagate`).
-/

namespace HotReload

variable {σ : Type}

namespace World

/-- **Fading.** The cells of `w'` are those of `w`, and a reference in `w'` is one of `w` or leads
to one of the given nodes. -/
structure Fades (nodes : List Node) (w w' : World σ) : Prop where
  sound : w'.Sound
  later : w.Later w'
  pins : w'.pins = w.pins
  host : w'.host = w.host
  knows : w'.knows = w.knows
  edges : ∀ m n, n ∈ w'.successors m → n ∈ w.successors m ∨ n ∈ nodes

namespace Fades

variable {nodes : List Node} {w w' w'' : World σ}

theorem refl (nodes : List Node) (hw : w.Sound) : w.Fades nodes w :=
  ⟨hw, .refl w, rfl, rfl, rfl, fun _ _ h => .inl h⟩

theorem trans (h : w.Fades nodes w') (h' : w'.Fades nodes w'') : w.Fades nodes w'' where
  sound := h'.sound
  later := h.later.trans h'.later
  pins := h'.pins.trans h.pins
  host := h'.host.trans h.host
  knows := h'.knows.trans h.knows
  edges m n hn := by
    rcases h'.edges m n hn with hn | hn
    · exact h.edges m n hn
    · exact .inr hn

/-- A world that fades to some nodes fades to more of them. -/
theorem mono {nodes' : List Node} (h : w.Fades nodes w') (hsub : ∀ n ∈ nodes, n ∈ nodes') :
    w.Fades nodes' w' :=
  { h with edges := fun m n hn => (h.edges m n hn).imp_right (hsub n) }

/-- Pins that are set for the duration of a change do not show in it. -/
theorem of_pin {held : List Node} (h : (w.pin held).Fades nodes w') :
    w.Fades nodes { w' with pins := w.pins } where
  sound := h.sound.of_stores rfl rfl rfl (Nat.le_refl _) (Nat.le_refl _)
  later := by
    have hpin : w.Later (w.pin held) := later_of_stores rfl rfl rfl (Nat.le_refl _)
    exact (hpin.trans h.later).trans (later_of_stores rfl rfl rfl (Nat.le_refl _))
  pins := rfl
  host := h.host
  knows := h.knows
  edges := h.edges

/-- A reference to an ancestor that is not among the given nodes has been there before. -/
theorem ancestors (h : w.Fades nodes w') {t : TypeId} (ht : .type t ∉ nodes) {s : TypeId}
    (hs : t ∈ w'.ancestors s) : t ∈ w.ancestors s := by
  have hedge : .type t ∈ w'.successors (.type s) := List.mem_map_of_mem hs
  rcases h.edges _ _ hedge with hold | hnew
  · obtain ⟨t', ht', heq⟩ := List.mem_map.mp hold
    rw [Node.type.injEq] at heq
    exact heq ▸ ht'
  · exact absurd hnew ht

/-- **Nothing comes to life** when a world fades, if the given nodes are reached. -/
theorem reaches [Host σ] (h : w.Fades nodes w')
    (hnodes : ∀ n ∈ nodes, w.knows n = true → w.Reaches n) {n : Node} (hn : w'.Reaches n) :
    w.Reaches n := by
  refine Reaches.of_edges w w' (fun m hm hknown => ?_) (fun m k hm hk hknown => ?_) hn
  · -- the roots are what they were
    rw [h.knows] at hknown
    rw [mem_roots, h.pins, h.host] at hm
    exact .root (mem_roots.mpr hm) hknown
  · rw [h.knows] at hknown
    rcases h.edges m k hk with hk | hk
    · exact .step hm hk hknown
    · exact hnodes k hk hknown

end Fades

/-! ### The three writes of a repair -/

/-- A write to an export slot. -/
theorem fades_repoint {nodes : List Node} {w : World σ} (hw : w.Sound)
    {t : ExternalBinding × Definition} (hholder : w.knows (.unit t.1.holder) = true)
    (hdefinition : w.hasDefinition t.2 = true)
    (hnodes : ∀ n ∈ (Value.definition t.2).nodes, n ∈ nodes) :
    w.Fades nodes (w.repoint t).1 := by
  by_cases hacts : w.Acts t
  · have hentry : ∀ e ∈ ((w.exports t.1.holder).insert t.1.localName (.definition t.2)).entries,
        e ∈ (w.exports t.1.holder).entries ∨ e = (t.1.localName, .definition t.2) :=
      fun e he => Table.mem_entries_insert he
    have hsize : (w.setExport t.1.holder t.1.localName (.definition t.2)).units.size =
        w.units.size := w.units.size_set_of_lt (of_decide_eq_true hholder) _
    rw [repoint_of_acts hacts]
    refine ⟨?_, later_replaceExports w _ _, rfl, rfl, ?_, ?_⟩
    · refine sound_replaceExports hw _ fun e he => ?_
      rcases hentry e he with he | rfl
      · exact hw.exports _ e.1 e.2 ((Table.get?_eq_some_iff _ _ _).mpr he)
      · exact hdefinition
    · funext n
      cases n <;> simp only [World.knows, hsize] <;> rfl
    · -- the only references that can be new are those of the entry that is written
      intro m n hn
      cases m with
      | unit v =>
        change n ∈ ((w.setExport _ _ _).exports v).values.flatMap Value.nodes at hn
        rw [setExport, exports_replaceExports] at hn
        split at hn
        · next hv =>
          obtain ⟨a, ha, hna⟩ := List.mem_flatMap.mp hn
          obtain ⟨e, he, rfl⟩ := List.mem_map.mp ha
          rcases hentry e he with he | rfl
          · rw [hv]
            exact .inl (List.mem_flatMap.mpr ⟨e.2, List.mem_map_of_mem he, hna⟩)
          · exact .inr (hnodes n hna)
        · exact .inl hn
      | _ => exact .inl hn
  · rw [repoint_of_not_acts hacts]
    exact .refl nodes hw

/-- New ancestors for a type. -/
theorem fades_repointAncestors {nodes : List Node} {w : World σ} (hw : w.Sound) {new : TypeId}
    (hknown : w.knows (.type new) = true) (hnodes : .type new ∈ nodes) (s : TypeId) :
    w.Fades nodes (repointAncestors new w s).1 := by
  have hlt : new.index < w.types.size := of_decide_eq_true hknown
  unfold repointAncestors
  split
  · next hany =>
    obtain ⟨t, ht, -⟩ := List.any_eq_true.mp hany
    have hmap : ∀ t ∈ (w.ancestors s).map fun t => if w.isPredecessor new t then new else t,
        t = new ∨ t ∈ w.ancestors s := by
      intro t ht
      obtain ⟨t', ht', rfl⟩ := List.mem_map.mp ht
      split
      · exact .inl rfl
      · exact .inr ht'
    -- so every type of the new list exists
    have hexist : ∀ t ∈ (w.ancestors s).map fun t => if w.isPredecessor new t then new else t,
        t.index < w.types.size := by
      intro t ht
      rcases hmap t ht with rfl | ht
      · exact hlt
      · exact hw.ancestors s t ht
    -- no type without a cell is involved, so no cells are made
    have hsize := size_types_setAncestors (index_lt_of_mem_ancestors ht) (hw.ancestors s) hexist
    obtain ⟨types, heq⟩ := w.setAncestors_eq s
      ((w.ancestors s).map fun t => if w.isPredecessor new t then new else t)
    have hancestors := w.ancestors_setAncestors s
      ((w.ancestors s).map fun t => if w.isPredecessor new t then new else t)
    refine ⟨sound_setAncestors hw s hexist, later_setAncestors w s _, ?_, ?_, ?_, ?_⟩
    · rw [heq]
    · rw [heq]
    · rw [heq] at hsize ⊢
      funext n
      cases n with
      | type r => exact congrArg (fun k => decide (r.index < k)) hsize
      | _ => rfl
    · -- an ancestor list refers to what is in it, and only one list is new
      intro m n hn
      cases m with
      | type r =>
        obtain ⟨t', ht', rfl⟩ := List.mem_map.mp hn
        change t' ∈ World.ancestors _ r at ht'
        rw [hancestors] at ht'
        split at ht'
        · next hr =>
          rcases hmap t' ht' with rfl | hold
          · exact .inr hnodes
          · exact .inl (hr ▸ List.mem_map_of_mem hold)
        · exact .inl (List.mem_map_of_mem ht')
      | _ =>
        rw [heq] at hn
        exact .inl hn
  · exact .refl nodes hw

/-- A new type for an object. -/
theorem fades_move {nodes : List Node} {w : World σ} (hw : w.Sound) {m : ObjectId × TypeId}
    (hknown : w.knows (.object m.1) = true) (hnodes : .type m.2 ∈ nodes) :
    w.Fades nodes (w.move m).1 := by
  have hsize : (w.setTypeOf m.1 m.2).objects.size = w.objects.size :=
    w.objects.size_set_of_lt (of_decide_eq_true hknown) _
  rw [move, retargetObject_fst]
  split
  · refine ⟨sound_putObject hw _ _, ?_, rfl, rfl, ?_, ?_⟩
    · exact later_of_stores rfl rfl rfl (Nat.le_of_eq hsize.symm)
    · funext n
      cases n with
      | object o => exact congrArg (fun k => decide (o.index < k)) hsize
      | _ => rfl
    · -- an object refers to its type and to its fields, and the fields stay
      intro k n hn
      cases k with
      | object o =>
        change n ∈ .type ((w.setTypeOf m.1 m.2).object o).type ::
          ((w.setTypeOf m.1 m.2).object o).fields.values.flatMap Value.nodes at hn
        rw [fields_setTypeOf, setTypeOf, object_putObject] at hn
        rcases List.mem_cons.mp hn with rfl | hn
        · split
          · exact .inr hnodes
          · exact .inl List.mem_cons_self
        · exact .inl (List.mem_cons_of_mem _ hn)
      | _ => exact .inl hn
  · exact .refl nodes hw

end World

/-! ### Repairs -/

/-- The holders and the objects that a session has recorded have cells. -/
structure Session.Known (s : Session) (w : World σ) : Prop where
  holder : ∀ b ∈ s.references.bindings, w.knows (.unit b.holder) = true
  object : ∀ e ∈ s.objects, w.knows (.object e.object) = true

/-- What a session has recorded is still known. -/
theorem Session.Known.of_fades {s : Session} {w w' : World σ} {nodes : List Node} (hs : s.Known w)
    (h : w.Fades nodes w') : s.Known w' := by
  refine ⟨fun b hb => ?_, fun e he => ?_⟩ <;> rw [h.knows]
  · exact hs.holder b hb
  · exact hs.object e he

/-- Pins do not matter to what is known. -/
theorem Session.Known.pin {s : Session} {w : World σ} (hs : s.Known w) (nodes : List Node) :
    s.Known (w.pin nodes) := ⟨hs.holder, hs.object⟩

/-- Nor does the journal to what has been recorded. -/
theorem Session.Known.of_journal {s : Session} {w : World σ} (hs : s.Known w) (journal : Journal) :
    ({ s with journal := journal } : Session).Known w := ⟨hs.holder, hs.object⟩

/-- All objects that the enumerator finds exist. -/
def Enumerator.Finds (w : World σ) : Enumerator → Prop
  | heapOf _ => True
  | listed os => ∀ o ∈ os, w.knows (.object o) = true

/-- What has been recorded when a session is opened exists later on. -/
theorem Session.known_of_start [Host σ] {w w' w₁ : World σ} {targets : List UnitId} {r : RegistryId}
    {e : Enumerator} {config : Config} {s : Session}
    (hstart : Session.start w targets r e config = (.ok s, w')) (hw : w.Sound) (he : e.Finds w)
    (hlater : w.Later w₁) : s.Known w₁ := by
  obtain ⟨hopened, -, -, hobjects, -⟩ := opened_of_start hstart
  refine ⟨fun b hb => ?_, fun x hx => ?_⟩
  · have hstale := (hopened.mem_bindings_iff.mp hb).1
    obtain ⟨name, hname⟩ := World.mem_unitsOf.mp hstale.loaded
    exact decide_eq_true (Nat.lt_of_lt_of_le (hw.registered r name _ hname).1 hlater.units)
  · rw [hobjects] at hx
    have hfound := (mem_staleObjects.mp hx).1
    have hlt : w.knows (.object x.object) = true := by
      -- an enumerator looks through a heap, or goes by a list
      cases e with
      | heapOf r' =>
        have hliving : x.object ∈ World.livingIn _ _ := hfound
        exact (World.mem_livingIn.mp hliving).2.knows
      | listed os => exact he _ hfound
    exact decide_eq_true (Nat.lt_of_lt_of_le (of_decide_eq_true hlt) hlater.objects)

namespace World

/-- Own exports exist. -/
theorem hasDefinition_of_mem_ownExports {w : World σ} (hw : w.Sound) {u : UnitId} {x : String}
    {d : Definition} (h : (x, d) ∈ w.ownExports u) : w.hasDefinition d = true :=
  hw.exports u x (.definition d) (w.mem_ownExports.mp h).1

/-- The types among what is held on to are the exported ones. -/
theorem mem_keptFor {w : World σ} {u : UnitId} {t : TypeId} :
    .type t ∈ w.keptFor u ↔ ∃ x, (x, .type t) ∈ w.ownExports u := by
  rw [keptFor, List.mem_cons, List.mem_flatMap]
  constructor
  · rintro (hunit | ⟨⟨x, d⟩, hd, ht⟩)
    · cases hunit
    · cases d with
      | callable c => cases ht
      | type t' =>
        obtain rfl := Node.type.inj (List.mem_singleton.mp ht)
        exact ⟨x, hd⟩
  · rintro ⟨x, hx⟩
    exact .inr ⟨(x, .type t), hx, List.mem_singleton_self _⟩

/-- Objects move to one type. -/
theorem fades_retargetObjects {nodes : List Node} {w : World σ} (hw : w.Sound) {s : Session}
    (hs : s.Known w) {new : TypeId} (hnodes : .type new ∈ nodes) (old : TypeId) :
    w.Fades nodes (retargetObjects s old new w).1 := by
  refine repairEach_preserves (P := w.Fades nodes) (.refl nodes hw) fun o ho v hv => ?_
  obtain ⟨e, he, rfl⟩ := List.mem_map.mp ho
  -- a recorded object is known in every world on the way
  have hknown : v.knows (.object e.object) = true :=
    (hs.of_fades hv).object e (List.mem_filter.mp he).1
  exact hv.trans (fades_move (m := (e.object, new)) hv.sound hknown hnodes)

/-- The bindings of a repair lead to what the unit exports. -/
theorem fades_withBindings {w : World σ} (hw : w.Sound) {s : Session} (hs : s.Known w)
    (u : UnitId) :
    (w.pin (w.keptFor u)).Fades (w.keptFor u) (w.withBindings s u).1 := by
  have hsound : (w.pin (w.keptFor u)).Sound :=
    hw.of_stores rfl rfl rfl (Nat.le_refl _) (Nat.le_refl _)
  refine repairEach_preserves (P := (w.pin (w.keptFor u)).Fades (w.keptFor u))
    (.refl _ hsound) fun t ht v hv => ?_
  -- what is written is an own definition of the unit, so it is held on to
  obtain ⟨hb, hclaim⟩ := Session.mem_repointings.mp ht
  obtain ⟨hname, hunit, x, hx⟩ := w.claimant?_spec hclaim
  have hown : (x, t.2) ∈ w.ownExports u := w.mem_ownExports.mpr ⟨hx, hname ▸ hunit⟩
  have hknown : v.knows (.unit t.1.holder) = true := by
    rw [hv.knows]
    exact hs.holder t.1 hb
  have hdefinition : v.hasDefinition t.2 = true :=
    hv.later.hasDefinition (hasDefinition_of_mem_ownExports hw hown)
  have hnodes : ∀ n ∈ (Value.definition t.2).nodes, n ∈ w.keptFor u :=
    fun n hn => List.mem_cons_of_mem _ (List.mem_flatMap.mpr ⟨(x, t.2), hown, hn⟩)
  exact hv.trans (fades_repoint hv.sound hknown hdefinition hnodes)

/-- The types that a unit owns and exports can be referred to while it is repaired. -/
theorem knows_of_mem_ownTypes {w v : World σ} (hw : w.Sound) (hv : v.knows = w.knows)
    {u : UnitId} :
    ∀ t ∈ typesAmong (w.ownExports u), v.knows (.type t) = true ∧ .type t ∈ w.keptFor u := by
  intro t ht
  obtain ⟨x, hx⟩ := Snapshot.mem_typesAmong.mp ht
  rw [hv]
  exact ⟨hasDefinition_of_mem_ownExports hw hx, mem_keptFor.mpr ⟨x, hx⟩⟩

variable [Host σ]

section Types

variable {nodes : List Node} {w : World σ} {types : List TypeId}

/-- Subtypes get one new ancestor. -/
theorem fades_repointSubtypes (hw : w.Sound) {new : TypeId} (hknown : w.knows (.type new) = true)
    (hnodes : .type new ∈ nodes) (old : TypeId) :
    w.Fades nodes (w.repointSubtypes old new).1 := by
  refine repairEach_preserves (P := w.Fades nodes) (.refl nodes hw) fun s _ v hv => ?_
  have hknown' : v.knows (.type new) = true := by rw [hv.knows, hknown]
  exact hv.trans (fades_repointAncestors hv.sound hknown' hnodes s)

/-- What a repair for an old type refers to are types of the list. -/
theorem fades_repairType (hw : w.Sound) {s : Session} (hs : s.Known w)
    (htypes : ∀ t ∈ types, w.knows (.type t) = true ∧ .type t ∈ nodes) (old : TypeId) :
    w.Fades nodes (repairType s types w old).1 := by
  obtain ⟨-, h⟩ | ⟨-, h⟩ | ⟨new, -, hsucc, h⟩ := repairType_cases s types w old <;> rw [h]
  · exact .refl nodes hw
  · exact .refl nodes hw
  · obtain ⟨hknown, hmem⟩ := htypes new (List.mem_of_find?_eq_some hsucc)
    have hsubtypes := fades_repointSubtypes hw hknown hmem old
    have hobjects := fades_retargetObjects hsubtypes.sound (hs.of_fades hsubtypes) hmem old
    exact hsubtypes.trans hobjects

end Types

/-- The whole repair leads only to what the unit exports, which is pinned meanwhile. -/
theorem fades_repairTypes {w : World σ} (hw : w.Sound) {s : Session} (hs : s.Known w) (u : UnitId) :
    (w.pin (w.keptFor u)).Fades (w.keptFor u)
      (repairTypes s (w.unit u).name (typesAmong (w.ownExports u)) (w.withBindings s u).1).1 := by
  have hpinned := hs.pin (w.keptFor u)
  refine repairEach_preserves (P := (w.pin (w.keptFor u)).Fades (w.keptFor u))
    (fades_withBindings hw hs u) fun old _ v hv => ?_
  exact hv.trans (fades_repairType hv.sound (hpinned.of_fades hv)
    (knows_of_mem_ownTypes hw hv.knows) old)

/-- **A world fades** when a unit is repaired: what it refers to afterwards it has referred to
before, or the unit exports it. -/
theorem fades_repair {w : World σ} (hw : w.Sound) {s : Session} (hs : s.Known w) (u : UnitId) :
    w.Fades (w.keptFor u) (w.repair s u).1 := by
  rw [repair_eq]
  exact (fades_repairTypes hw hs u).of_pin

/-! ### Types that nothing lists -/

/-- **Unlisted.** No living type lists `t` as an ancestor. -/
def Unlisted (w : World σ) (t : TypeId) : Prop := ∀ s, w.Reaches (.type s) → t ∉ w.ancestors s

/-- A type that is unlisted stays so when a world fades. -/
theorem Unlisted.of_fades {nodes : List Node} {w w' : World σ} {t : TypeId} (ht : w.Unlisted t)
    (h : w.Fades nodes w') (hnodes : ∀ n ∈ nodes, w.knows n = true → w.Reaches n)
    (hnot : .type t ∉ nodes) : w'.Unlisted t := by
  intro s hs hlisted
  exact ht s (h.reaches hnodes hs) (h.ancestors hnot hlisted)

/-- With fewer pins less is alive, so an unlisted type stays unlisted. -/
theorem Unlisted.of_pins {w : World σ} {pins : NumberedSet Node} {t : TypeId} (ht : w.Unlisted t)
    (hpins : ∀ n, pins.contains n = true → w.pins.contains n = true) :
    ({ w with pins := pins } : World σ).Unlisted t := by
  intro s hs
  exact ht s (hs.of_pins hpins)

/-- After the repair of its subtypes an old type is unlisted. -/
theorem unlisted_repointSubtypes {w : World σ} (hw : w.Sound) {old new : TypeId}
    (hnew : w.Reaches (.type new)) (hname : w.typeName old = w.typeName new) (hne : old ≠ new) :
    (w.repointSubtypes old new).1.Unlisted old := by
  intro s hs hlisted
  have hnot : .type old ∉ [Node.type new] := by
    rw [List.mem_singleton, Node.type.injEq]
    exact hne
  have hmem : Node.type new ∈ [Node.type new] := List.mem_singleton_self _
  have hfades := fades_repointSubtypes hw hnew.knows hmem old
  have hreached : w.Reaches (.type s) := by
    refine hfades.reaches (fun n hn _ => ?_) hs
    rw [List.mem_singleton.mp hn]
    exact hnew
  -- the type was alive and listed the old one before, so it was in the pass
  have hpass : s ∈ w.subtypes old :=
    mem_subtypes.mpr ⟨(hw.mirror s old).mpr (hfades.ancestors hnot hlisted), hreached⟩
  have hknows : ∀ v, w.Fades [.type new] v → v.knows (.type new) = true := by
    intro v hv
    rw [hv.knows, hnew.knows]
  refine repairEach_establishes (P := fun v => w.Fades [.type new] v ∧ w.SameForm v)
    (Q := fun v => old ∉ v.ancestors s) hpass ⟨.refl _ hw, .refl w⟩ (fun r _ v hv => ?_)
    (fun v hv => ?_) (fun r _ v hv hfree => ?_) hlisted
  · have hknown := hknows v hv.1
    exact ⟨hv.1.trans (fades_repointAncestors hv.1.sound hknown hmem r),
      hv.2.trans (v.sameForm_repointAncestors new r)⟩
  · -- its own turn takes the old type out of the list
    have hpredecessor : v.isPredecessor new old = true := by
      rw [isPredecessor, hv.2.typeName, hv.2.typeName, hname]
      simp [hne]
    unfold repointAncestors
    split
    · rw [ancestors_setAncestors, if_pos rfl, List.mem_map]
      rintro ⟨t, -, ht⟩
      split at ht
      · exact hne ht.symm
      · next hfree =>
        rw [ht] at hfree
        exact hfree hpredecessor
    · next hnone =>
      intro hlists
      exact hnone (List.any_eq_true.mpr ⟨old, hlists, hpredecessor⟩)
  · -- and no other turn puts it back
    have hstep := fades_repointAncestors hv.1.sound (hknows v hv.1) hmem r
    exact fun hlists => hfree (hstep.ancestors hnot hlists)

/-- After the repair for an old type that another one succeeds the old type is unlisted. -/
theorem unlisted_repairType {w : World σ} (hw : w.Sound) {s : Session} (hs : s.Known w)
    {types : List TypeId} {old new : TypeId} (hsucc : w.successor? types old = some new)
    (hknown : w.knows (.type new) = true) (hpinned : w.pins.contains (.type new) = true)
    (hname : w.typeName old = w.typeName new) (hne : old ≠ new) :
    (repairType s types w old).1.Unlisted old := by
  have hnot : .type old ∉ [Node.type new] := by
    rw [List.mem_singleton, Node.type.injEq]
    exact hne
  have hmem : Node.type new ∈ [Node.type new] := List.mem_singleton_self _
  have hsubtypes := fades_repointSubtypes hw hknown hmem old
  have hobjects := fades_retargetObjects hsubtypes.sound (hs.of_fades hsubtypes) hmem old
  have hunlisted := unlisted_repointSubtypes hw (.of_pinned hpinned hknown) hname hne
  rw [repairType_of_succeeded hsucc hne]
  -- the pass over objects refers to the new type only, which is pinned
  refine hunlisted.of_fades hobjects (fun n hn hknown' => ?_) hnot
  rw [List.mem_singleton.mp hn] at hknown' ⊢
  refine .of_pinned ?_ hknown'
  rw [hsubtypes.pins]
  exact hpinned

/-- **After the repair of a unit** no living type lists an old type of the unit that it does not
export any more and that has a successor. -/
theorem unlisted_repair {w : World σ} (hw : w.Sound) {s : Session} (hs : s.Known w) {u : UnitId}
    {t : TypeId} (ht : t ∈ s.snapshot.ownTypes w (w.unit u).name)
    (hgone : ∀ x, (x, .type t) ∉ w.ownExports u)
    (hsome : w.successor? (typesAmong (w.ownExports u)) t ≠ none) :
    (w.repair s u).1.Unlisted t := by
  obtain ⟨new, hsucc⟩ := Option.ne_none_iff_exists'.mp hsome
  have hpinned := hs.pin (w.keptFor u)
  have hbindings := fades_withBindings hw hs u
  have hform := w.sameForm_withBindings s u
  have hmem := List.mem_of_find?_eq_some hsucc
  have hne : t ≠ new := by
    rintro rfl
    obtain ⟨x, hx⟩ := Snapshot.mem_typesAmong.mp hmem
    exact hgone x hx
  have hname : w.typeName new = w.typeName t :=
    typeName_of_successor? hsucc (Snapshot.owner_of_mem_ownTypes ht)
  -- the old type is not exported, so nothing that is pinned brings it back
  have hnot : .type t ∉ w.keptFor u := by
    rw [mem_keptFor]
    rintro ⟨x, hx⟩
    exact hgone x hx
  -- what the unit exports is pinned as long as it is repaired
  have hheld : ∀ v, (w.pin (w.keptFor u)).Fades (w.keptFor u) v → ∀ n ∈ w.keptFor u,
      v.pins.contains n = true := by
    intro v hv n hn
    rw [hv.pins]
    exact (w.contains_pins_pin _ _).mpr (.inl hn)
  have hstep : ∀ v, (w.pin (w.keptFor u)).Fades (w.keptFor u) v → ∀ old,
      v.Fades (w.keptFor u) (repairType s (typesAmong (w.ownExports u)) v old).1 := by
    intro v hv old
    exact fades_repairType hv.sound (hpinned.of_fades hv) (knows_of_mem_ownTypes hw hv.knows) old
  have hpass : (repairTypes s (w.unit u).name (typesAmong (w.ownExports u))
      (w.withBindings s u).1).1.Unlisted t := by
    unfold repairTypes
    rw [Snapshot.ownTypes_of_sameForm hform]
    -- the repair for this type unlists it, and the ones after that do not list it again
    refine repairEach_establishes
      (P := fun v => (w.pin (w.keptFor u)).Fades (w.keptFor u) v ∧ w.SameForm v)
      (Q := fun v => v.Unlisted t) ht ⟨hbindings, hform⟩ (fun old _ v hv => ?_)
      (fun v hv => ?_) fun old _ v hv hunlisted => ?_
    · exact ⟨hv.1.trans (hstep v hv.1 old), hv.2.trans (v.typeFrame_repairType s _ old).form⟩
    · obtain ⟨hknown, hkept⟩ := knows_of_mem_ownTypes hw hv.1.knows new hmem
      refine unlisted_repairType hv.1.sound (hpinned.of_fades hv.1) ?_ hknown
        (hheld v hv.1 _ hkept) ?_ hne
      · rw [hv.2.successor?, hsucc]
      · rw [hv.2.typeName, hv.2.typeName, hname]
    · exact hunlisted.of_fades (hstep v hv.1 old)
        (fun n hn hknown => .of_pinned (hheld v hv.1 n hn) hknown) hnot
  -- and it stays unlisted when the pins are let go
  rw [repair_eq]
  refine hpass.of_pins fun n hn => ?_
  rw [(fades_repairTypes hw hs u).pins]
  exact (w.contains_pins_pin _ _).mpr (.inr hn)

end World

/-! ### Propagations -/

namespace World

/-- What is held on to for a unit depends on its own exports. -/
theorem keptFor_congr {w v : World σ} {u : UnitId} (h : v.ownExports u = w.ownExports u) :
    v.keptFor u = w.keptFor u := by
  rw [keptFor, keptFor, h]

/-- What is held on to while a unit is repaired is reached anyway if the unit is. -/
theorem reaches_of_mem_keptFor [Host σ] {w : World σ} {u : UnitId} (hu : w.Reaches (.unit u))
    {n : Node} (hn : n ∈ w.keptFor u) (hknows : w.knows n = true) : w.Reaches n := by
  rcases List.mem_cons.mp hn with rfl | hn
  · exact hu
  · obtain ⟨⟨x, d⟩, hd, hnode⟩ := List.mem_flatMap.mp hn
    exact reaches_of_export hu (w.mem_ownExports.mp hd).1 hnode hknows

/-- What has become of `w` when some of the units have been repaired. -/
structure Wanes (us : List UnitId) (w v : World σ) : Prop where
  fades : w.Fades (us.flatMap w.keptFor) v
  form : w.SameForm v
  own : ∀ u, v.ownExports u = w.ownExports u

/-- One more repair among those of a propagation. -/
theorem Wanes.repair [Host σ] {us : List UnitId} {w v : World σ} (hv : Wanes us w v) {s : Session}
    (hs : s.Known w) (hfits : s.Fits w) {u : UnitId} (hu : u ∈ us) :
    Wanes us w (v.repair s u).1 where
  fades := by
    have hstep := fades_repair hv.fades.sound (hs.of_fades hv.fades) u
    rw [keptFor_congr (hv.own u)] at hstep
    exact hv.fades.trans (hstep.mono fun n hn => List.mem_flatMap.mpr ⟨u, hu, hn⟩)
  form := hv.form.trans (v.frame_repair s u).form
  own u' := (ownExports_repair (hfits.of_sameForm hv.form) u u').trans (hv.own u')

end World

namespace Session

variable [Host σ]

/-- **After a propagation** no living type lists an old type of one of the units that none of them
exports any more and that has a successor. -/
theorem unlisted_propagate {s : Session} {w : World σ} (hw : w.Sound) (hs : s.Known w)
    (hfits : s.Fits w) {us : List UnitId}
    (hheld : ∀ u ∈ us, w.pins.contains (.unit u) = true ∧ w.knows (.unit u) = true) {u : UnitId}
    (hu : u ∈ us) {t : TypeId} (ht : t ∈ s.snapshot.ownTypes w (w.unit u).name)
    (hgone : ∀ u ∈ us, ∀ x, (x, .type t) ∉ w.ownExports u)
    (hsome : w.successor? (typesAmong (w.ownExports u)) t ≠ none) :
    (s.propagate us w).2.2.Unlisted t := by
  rw [(s.propagate_eq_repairEach us w).2]
  refine World.repairEach_establishes (P := World.Wanes us w) (Q := fun v => v.Unlisted t) hu
    ⟨.refl _ hw, .refl w, fun _ => rfl⟩ (fun u' hu' v hv => hv.repair hs hfits hu')
    (fun v hv => ?_) fun u' hu' v hv hunlisted => ?_
  · refine World.unlisted_repair hv.fades.sound (hs.of_fades hv.fades) ?_ ?_ ?_
    · rw [Snapshot.ownTypes_of_sameForm hv.form, hv.form.unitName]
      exact ht
    · rw [hv.own]
      exact hgone u hu
    · rw [hv.own, hv.form.successor?]
      exact hsome
  · -- a later repair brings neither the type nor what lists it back
    have hunit : v.Reaches (.unit u') := by
      refine .of_pinned ?_ ?_
      · rw [hv.fades.pins]
        exact (hheld u' hu').1
      · rw [hv.fades.knows]
        exact (hheld u' hu').2
    refine hunlisted.of_fades (World.fades_repair hv.fades.sound (hs.of_fades hv.fades) u')
      (fun n hn hknown => World.reaches_of_mem_keptFor hunit hn hknown) ?_
    rw [World.keptFor_congr (hv.own u'), World.mem_keptFor]
    rintro ⟨x, hx⟩
    exact hgone u' hu' x hx

end Session

end HotReload
