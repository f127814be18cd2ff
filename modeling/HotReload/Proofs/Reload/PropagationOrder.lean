import HotReload.Proofs.Reload.AncestorLists

/-!
# The order of a propagation

A propagation goes through its units one by one, and each repair writes what others read: tables,
ancestor lists, back-lists and objects. The order shows nowhere nevertheless
(`Session.propagate_of_perm`). Each of the three kinds of writes is told by a list that can be read
off the world in which the propagation starts (repointings, moves and successions), and these lists
are never at odds with themselves: no slot is given two definitions, no object two types and no name
two new types. What such a list amounts to depends on what is in it alone.

That does not settle ancestor lists, since a type can die half-way in one order and live on in the
other one. But the lists of what is alive in both ends agree, and so do roots, exports and objects.
So whatever is reached in one end is reached in the other by the same path
(`World.Concurs.reaches`).
-/

namespace HotReload

variable {σ : Type}

namespace World

/-! ### Passes over the same steps -/

/-- What a pass of repointings makes of a slot does not depend on their order. -/
theorem export?_repointEach_congr {ts ts' : List (ExternalBinding × Definition)}
    (hone : OnePerSlot ts) (hmem : ∀ t, t ∈ ts ↔ t ∈ ts') (w : World σ) (h : UnitId) (x : String) :
    (repointEach ts' w).1.export? h x = (repointEach ts w).1.export? h x := by
  have hone' : OnePerSlot ts' :=
    fun t ht u hu => hone t ((hmem t).mpr ht) u ((hmem u).mpr hu)
  by_cases hwaits : ∃ t ∈ ts, t.1.holder = h ∧ t.1.localName = x ∧
      w.export? h x = some (.definition t.1.stale)
  · obtain ⟨t, ht, rfl, rfl, hheld⟩ := hwaits
    rw [export?_repointEach hone w ht hheld, export?_repointEach hone' w ((hmem t).mp ht) hheld]
  · -- no repointing of either list waits for the slot
    have hidle : ∀ t ∈ ts, t.1.holder = h → t.1.localName = x →
        w.export? h x ≠ some (.definition t.1.stale) :=
      fun t ht hh hx hheld => hwaits ⟨t, ht, hh, hx, hheld⟩
    rw [export?_repointEach_of_not_pending ts w hidle,
      export?_repointEach_of_not_pending ts' w fun t ht => hidle t ((hmem t).mpr ht)]

/-- What a pass of moves makes of an object does not depend on their order. -/
theorem object_moveEach_congr {ms ms' : List (ObjectId × TypeId)} (hone : OneTarget ms)
    (hmem : ∀ m, m ∈ ms ↔ m ∈ ms') (w : World σ) (o : ObjectId) :
    (moveEach ms' w).1.object o = (moveEach ms w).1.object o := by
  by_cases hmoved : ∃ m ∈ ms, m.1 = o
  · obtain ⟨m, hm, rfl⟩ := hmoved
    have hone' : OneTarget ms' := hone.subset fun a ha => (hmem a).mpr ha
    have htype : ((moveEach ms' w).1.object m.1).type = ((moveEach ms w).1.object m.1).type := by
      rw [type_moveEach hone w hm, type_moveEach hone' w ((hmem m).mp hm)]
    have hfields : ((moveEach ms' w).1.object m.1).fields =
        ((moveEach ms w).1.object m.1).fields := by
      rw [fields_moveEach, fields_moveEach]
    -- an object is its type and its fields
    cases hobject : (moveEach ms w).1.object m.1
    cases hobject' : (moveEach ms' w).1.object m.1
    rw [hobject, hobject'] at htype hfields
    exact congrArg₂ Object.mk htype hfields
  · have hstays : ∀ m ∈ ms, m.1 ≠ o := fun m hm heq => hmoved ⟨m, hm, heq⟩
    rw [object_moveEach_of_notMem hstays,
      object_moveEach_of_notMem fun m hm => hstays m ((hmem m).mpr hm)]

/-- What successions make of a list does not depend on their order. -/
theorem foldl_renew_congr {w : World σ} {ps ps' : List (TypeId × TypeId)} (hps : w.Coherent ps)
    (hmem : ∀ p, p ∈ ps ↔ p ∈ ps') (ts : List TypeId) :
    ps'.foldl w.renew ts = ps.foldl w.renew ts := by
  have hps' : w.Coherent ps' :=
    ⟨fun p hp => hps.typeName p ((hmem p).mpr hp), fun p hp => hps.ne p ((hmem p).mpr hp),
      fun p hp q hq => hps.unique p ((hmem p).mpr hp) q ((hmem q).mpr hq)⟩
  rw [foldl_renew hps, foldl_renew hps']
  refine List.map_congr_left fun t _ => ?_
  rcases renewal_cases w ps ts t with ⟨p, hp, hold, hname, hnew⟩ | ⟨hnone, hsame⟩
  · rw [hnew, renewal_of_mem hps' ((hmem p).mp hp) hold hname]
  · rw [hsame, renewal_of_forall fun p hp => hnone p ((hmem p).mpr hp)]

/-! ### Worlds that concur -/

/-- **Worlds that concur.** They have the same cells, roots, registries, slots and objects, and a
type has the same ancestors in both of them if it is alive in both of them. -/
structure Concurs [Host σ] (w w' : World σ) : Prop where
  knows : w'.knows = w.knows
  roots : w'.roots = w.roots
  registries : w'.registries = w.registries
  export? : ∀ u x, w'.export? u x = w.export? u x
  object : ∀ o, w'.object o = w.object o
  ancestors : ∀ t, w.Reaches (.type t) → w'.Reaches (.type t) → w'.ancestors t = w.ancestors t

namespace Concurs

variable [Host σ] {w w' : World σ}

theorem symm (h : w.Concurs w') : w'.Concurs w where
  knows := h.knows.symm
  roots := h.roots.symm
  registries := h.registries.symm
  export? u x := (h.export? u x).symm
  object o := (h.object o).symm
  ancestors t ht ht' := (h.ancestors t ht' ht).symm

/-- A node that is alive in both worlds refers to the same nodes in both. -/
theorem mem_successors (h : w.Concurs w') {m n : Node} (hm : w.Reaches m) (hm' : w'.Reaches m)
    (hn : n ∈ w.successors m) : n ∈ w'.successors m := by
  -- what a node refers to is the same in both worlds; only for types both must be alive
  cases m with
  | registry r =>
    change n ∈ (w'.registries.get r.index).units.values.map .unit
    rw [h.registries]
    exact hn
  | unit u =>
    obtain ⟨x, v, hv, hn⟩ := mem_successors_unit.mp hn
    exact mem_successors_unit.mpr ⟨x, v, (h.export? u x).trans hv, hn⟩
  | object o =>
    change n ∈ .type (w'.object o).type :: (w'.object o).fields.values.flatMap Value.nodes
    rw [h.object]
    exact hn
  | type t =>
    change n ∈ (w'.ancestors t).map .type
    rw [h.ancestors t hm hm']
    exact hn

/-- **What is alive in one world is alive in the other**, by the same path. -/
theorem reaches (h : w.Concurs w') {n : Node} (hn : w.Reaches n) : w'.Reaches n := by
  -- each node on the path is alive in both worlds when it is the turn of its references
  induction hn with
  | root hmem hknown => exact .root (h.roots ▸ hmem) (h.knows ▸ hknown)
  | step hm hmem hknown ih => exact .step ih (h.mem_successors hm ih hmem) (h.knows ▸ hknown)

theorem reaches_iff (h : w.Concurs w') (n : Node) : w'.Reaches n ↔ w.Reaches n :=
  ⟨h.symm.reaches, h.reaches⟩

end Concurs

end World

namespace Session

variable [Host σ]

/-- **Two orders end in worlds that concur.** -/
theorem Opened.concurs_propagate {s : Session} {w w₁ : World σ} {targets us us' : List UnitId}
    {r : RegistryId} (hopened : s.Opened w targets r) (hknown : s.Known w₁) (hfits : s.Fits w₁)
    (hw₁ : w₁.Sound) (hperm : us.Perm us') (hnames : (us.map fun u => (w₁.unit u).name).Nodup)
    (hheld : ∀ u ∈ us, .unit u ∈ w₁.roots ∧ w₁.knows (.unit u) = true) :
    (s.propagate us w₁).2.2.Concurs (s.propagate us' w₁).2.2 := by
  have hmem : ∀ {α : Type} (f : UnitId → List α) a, a ∈ us.flatMap f ↔ a ∈ us'.flatMap f :=
    fun f a => (hperm.flatMap_right f).mem_iff
  have hheld' : ∀ u ∈ us', .unit u ∈ w₁.roots ∧ w₁.knows (.unit u) = true :=
    fun u hu => hheld u (hperm.mem_iff.mpr hu)
  have hframe := s.frame_propagate us w₁
  have hframe' := s.frame_propagate us' w₁
  refine ⟨?_, ?_, ?_, fun u x => ?_, fun o => ?_, fun t ht ht' => ?_⟩
  · rw [(wanes_propagate hw₁ hknown hfits us).fades.knows,
      (wanes_propagate hw₁ hknown hfits us').fades.knows]
  · rw [World.roots, World.roots, hframe.pins, hframe.host, hframe'.pins, hframe'.host]
  · rw [hframe.registries, hframe'.registries]
  · -- slots: each is written by one pass, which both orders make over the same bindings
    have hpass := World.export?_repointEach_congr
      (onePerSlot_flatMap_repointings hopened.onePerSlot hnames) (hmem _) w₁ u x
    rw [World.export?, World.export?, (propagate_bindings hfits us).1,
      (propagate_bindings hfits us').1]
    exact hpass
  · -- objects: each has one new type to go to
    have hpass := World.object_moveEach_congr (hopened.oneTarget_moves hnames) (hmem _) w₁ o
    rw [World.object, World.object, propagate_moves hfits, propagate_moves hfits]
    exact hpass
  · -- lists: one renewal after the other, in whichever order, is the renewal by all
    rw [(ancestors_propagate hw₁ hknown hfits hheld ht).2,
      (ancestors_propagate hw₁ hknown hfits hheld' ht').2]
    exact World.foldl_renew_congr (coherent_successions hnames) (hmem _) _

/-- **The order of a propagation does not matter.** Let a session be opened in `w`, let its journal
be anything by now, and let a later world `w₁` be repaired for units with different names that
whoever starts the propagation holds. Whichever way the units are arranged, in the end the slots
have the same values, the objects the same types, the same nodes are alive, and those among them
that are types have the same ancestor lists. -/
theorem propagate_of_perm {w w' w₁ : World σ} {targets us us' : List UnitId} {r : RegistryId}
    {e : Enumerator} {config : Config} {s : Session} (journal : Journal)
    (hstart : start w targets r e config = (.ok s, w')) (hw : w.Sound) (he : e.Finds w)
    (hlater : w.Later w₁) (hw₁ : w₁.Sound) (hperm : us.Perm us')
    (hnames : (us.map fun u => (w₁.unit u).name).Nodup)
    (hheld : ∀ u ∈ us, .unit u ∈ w₁.roots ∧ w₁.knows (.unit u) = true) :
    let after := ({ s with journal := journal }.propagate us w₁).2.2
    let after' := ({ s with journal := journal }.propagate us' w₁).2.2
    (∀ h x, after'.export? h x = after.export? h x) ∧
      (∀ o, (after'.object o).type = (after.object o).type) ∧
      (∀ n, after'.Reaches n ↔ after.Reaches n) ∧
      ∀ t, after.Reaches (.type t) → after'.ancestors t = after.ancestors t := by
  intro after after'
  have hopened : ({ s with journal := journal } : Session).Opened w targets r :=
    (opened_of_start hstart).1.of_journal
  have hknown := (known_of_start hstart hw he hlater).of_journal journal
  have hfits := hopened.fits (World.keepsNames_of_later hw hlater r targets)
  have hconcurs : after.Concurs after' :=
    hopened.concurs_propagate hknown hfits hw₁ hperm hnames hheld
  refine ⟨hconcurs.export?, fun o => ?_, hconcurs.reaches_iff, fun t ht => ?_⟩
  · rw [hconcurs.object]
  · exact hconcurs.ancestors t ht (hconcurs.reaches ht)

open Scenario.TwoUnits

/-- The unit `u` of this name exports a new type. -/
def declaring (u : UnitId) (unit name : String) (ancestors : List TypeId) (w : World Fixture) :
    World Fixture :=
  let (t, w) := w.declareType ⟨unit, name, u, .dynamic, [], [], .empty⟩ ancestors
  w.setExport u name (.type t)

theorem later_declaring (u : UnitId) (unit name : String) (ancestors : List TypeId)
    (w : World Fixture) : w.Later (declaring u unit name ancestors w) :=
  (w.later_declareType _ ancestors).trans (World.later_replaceExports _ u _)

/-- Units that import from each other and derive from each other's types: `b` exports `C` and `E`,
and `a` exports `D`. The type `D` derives from `C`, and `E` from both. -/
def crossed : World Fixture :=
  let w := declaring ⟨1⟩ "a" "D" [⟨0⟩] (declaring ⟨0⟩ "b" "C" [] bare)
  let w := declaring ⟨0⟩ "b" "E" [⟨1⟩, ⟨0⟩] w
  (w.setExport ⟨1⟩ "C" (.type ⟨0⟩)).setExport ⟨0⟩ "D" (.type ⟨1⟩)

/-- There are new `C` and `D`. -/
def crossedAnew : World Fixture :=
  declaring ⟨1⟩ "a" "D" [⟨3⟩] (declaring ⟨0⟩ "b" "C" [] crossed)

/-- The session that is opened on both units there. -/
def crossedSession : Session :=
  match (start crossed [⟨0⟩, ⟨1⟩] ⟨0⟩ (.heapOf ⟨0⟩) .standard).1 with
  | .ok s => s
  | .error _ => default

/-- The world in which the session propagates: it holds on to what it knows. -/
def crossedHeld : World Fixture := crossedAnew.pin crossedSession.nodes

theorem later_crossedHeld : crossed.Later crossedHeld :=
  ((later_declaring ⟨0⟩ "b" "C" [] crossed).trans (later_declaring ⟨1⟩ "a" "D" [⟨3⟩] _)).trans
    (World.later_of_stores rfl rfl rfl (Nat.le_refl _))

/-- Both orders make the same of the list of `E`, in which there are two old types, and of the list of
the old `D`. Only `E` lists that one, and no longer does once `a` has been repaired. But the session
has it in its snapshot, so it is alive whichever unit goes first. -/
theorem propagate_of_perm_crossed :
    ∃ s w', start crossed [⟨0⟩, ⟨1⟩] ⟨0⟩ (.heapOf ⟨0⟩) .standard = (.ok s, w') ∧
      let s₁ := { s with journal := .empty none }
      let after := (s₁.propagate [⟨0⟩, ⟨1⟩] crossedHeld).2.2
      let after' := (s₁.propagate [⟨1⟩, ⟨0⟩] crossedHeld).2.2
      (after.Reaches (.type ⟨2⟩) ∧ after.ancestors ⟨2⟩ = [⟨4⟩, ⟨3⟩] ∧
          after'.ancestors ⟨2⟩ = [⟨4⟩, ⟨3⟩]) ∧
        after.Reaches (.type ⟨1⟩) ∧ after.ancestors ⟨1⟩ = [⟨3⟩] ∧ after'.ancestors ⟨1⟩ = [⟨3⟩] := by
  have hopen : ∀ u ∈ [⟨0⟩, ⟨1⟩], crossed.isOpen u = true := by decide +kernel
  obtain ⟨s, w', hstart⟩ := exists_start hopen ⟨0⟩ (.heapOf ⟨0⟩) .standard
  have hs : s = crossedSession := by
    rw [crossedSession, hstart]
  have hsound : crossed.Sound := by decide +kernel
  have hsound₁ : crossedHeld.Sound := by decide +kernel
  have hperm : List.Perm [(⟨0⟩ : UnitId), ⟨1⟩] [⟨1⟩, ⟨0⟩] := .swap _ _ []
  have hnames : ([⟨0⟩, ⟨1⟩].map fun u => (crossedHeld.unit u).name).Nodup := by decide +kernel
  have hheld : ∀ u ∈ [⟨0⟩, ⟨1⟩], .unit u ∈ crossedHeld.roots ∧
      crossedHeld.knows (.unit u) = true := by decide +kernel
  obtain ⟨-, -, -, hancestors⟩ := propagate_of_perm (.empty none) hstart hsound trivial
    later_crossedHeld hsound₁ hperm hnames hheld
  -- one order is computed, the other follows for types that are alive
  have hcomputed : ∀ t ∈ [(⟨2⟩, [⟨4⟩, ⟨3⟩]), (⟨1⟩, [⟨3⟩])],
      ({ s with journal := .empty none }.propagate [⟨0⟩, ⟨1⟩] crossedHeld).2.2.Reaches
          (.type t.1) ∧
        ({ s with journal := .empty none }.propagate [⟨0⟩, ⟨1⟩] crossedHeld).2.2.ancestors t.1 =
          t.2 := by
    simp only [← World.isAlive_iff]
    rw [hs]
    decide +kernel
  have hboth : ∀ t ∈ [(⟨2⟩, [⟨4⟩, ⟨3⟩]), (⟨1⟩, [⟨3⟩])],
      ({ s with journal := .empty none }.propagate [⟨1⟩, ⟨0⟩] crossedHeld).2.2.ancestors t.1 =
        t.2 :=
    fun t ht => (hancestors t.1 (hcomputed t ht).1).trans (hcomputed t ht).2
  rw [List.forall_mem_cons, List.forall_mem_singleton] at hcomputed hboth
  exact ⟨s, w', hstart, ⟨hcomputed.1.1, hcomputed.1.2, hboth.1⟩, hcomputed.2.1, hcomputed.2.2,
    hboth.2⟩

end Session

end HotReload
