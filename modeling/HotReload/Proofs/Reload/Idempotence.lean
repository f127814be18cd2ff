import HotReload.Proofs.Reload.AncestorLists
import HotReload.Proofs.Reload.Recompilers
import HotReload.Proofs.Repair.Leftovers
import HotReload.Proofs.Repair.Relinking

/-!
# Propagation twice over

A second propagation to the same units, right after the first one, has nothing to do
(`Session.propagate_again`): it leaves the world as it is, and it counts again what the first one
could not do.

What the session has recorded still describes the old world by then, so the second propagation sets
out to do the same things. Each of them fails to act for a reason of its own, and these reasons take
more than a look at single steps (`Session.settled_propagate`): a successor may be an old type
itself, and a type may come under repair under two names. But no slot is given two definitions, no
succession leads away from where another one leads to, and what is alive in the end was alive at
every turn.
-/

namespace HotReload

variable {σ : Type}

namespace Stats

/-- The counts of what could not be done. -/
def leftovers (stats : Stats) : Stats :=
  { zero with
    removedSymbols := stats.removedSymbols
    removedTypes := stats.removedTypes
    objectsRejected := stats.objectsRejected }

/-- Leftovers of two repairs add up. -/
theorem leftovers_add (a b : Stats) : (a + b).leftovers = a.leftovers + b.leftovers := rfl

/-- An event stands for a leftover, or for nothing of the kind. -/
theorem leftovers_ofEvent (e : Event) :
    (ofEvent e).leftovers = if e.isLeftover then ofEvent e else zero := by
  cases e <;> rfl

/-- The leftovers among deeds that are true to their events have the counts of leftovers. -/
theorem tally_filter_isLeftover {ds : List Deed} (htrue : ∀ d ∈ ds, d.IsTrue) :
    tally (ds.filter (·.event.isLeftover)) = (tally ds).leftovers := by
  induction ds with
  | nil => rfl
  | cons d ds ih =>
    rw [List.forall_mem_cons] at htrue
    obtain ⟨⟨hcounts, -⟩, hrest⟩ := htrue
    rw [tally, leftovers_add, hcounts, leftovers_ofEvent, ← ih hrest, List.filter_cons]
    split
    · rw [tally, hcounts]
    · rw [zero_add]

end Stats

namespace Session

/-! ### What a propagation does to a session -/

section Journals

variable [Host σ]

/-- A propagation does not see the journal. -/
theorem snd_propagate_of_journal (s : Session) (journal : Journal) (us : List UnitId)
    (w : World σ) :
    ({ s with journal := journal }.propagate us w).2 = (s.propagate us w).2 := by
  obtain ⟨hstats, hworld⟩ := propagate_eq_repairEach { s with journal := journal } us w
  obtain ⟨hstats', hworld'⟩ := s.propagate_eq_repairEach us w
  exact Prod.ext (hstats.trans hstats'.symm) (hworld.trans hworld'.symm)

/-- A propagation writes to the journal of its session, and to nothing else in it. -/
theorem fst_propagate (s : Session) (us : List UnitId) (w : World σ) :
    (s.propagate us w).1 = { s with journal := (s.propagate us w).1.journal } := by
  induction us generalizing s w with
  | nil => rfl
  | cons u us ih => exact ih (s.note _ _) _

end Journals

/-! ### The end of a propagation -/

section Settled

variable [Host σ] {s : Session} {w : World σ} {us : List UnitId}

/-- A slot that still waits for a definition would have been given it. -/
theorem not_acts_propagate (hfits : s.Fits w) (hslots : s.references.OnePerSlot)
    (hnames : (us.map fun u => (w.unit u).name).Nodup) {t : ExternalBinding × Definition}
    (ht : t ∈ us.flatMap (s.repointings w)) : ¬ (s.propagate us w).2.2.Acts t := by
  intro hacts
  have hone := onePerSlot_flatMap_repointings hslots hnames
  have hafter : (s.propagate us w).2.2.export? t.1.holder t.1.localName =
      (World.repointEach (us.flatMap (s.repointings w)) w).1.export? t.1.holder
        t.1.localName := by
    rw [World.export?, (propagate_bindings hfits us).1]
    rfl
  -- a slot that held the stale one has been repointed by this very entry
  by_cases hheld : w.export? t.1.holder t.1.localName = some (.definition t.1.stale)
  · have hnew := hafter.trans (World.export?_repointEach hone w ht hheld)
    exact hacts.2 (Value.definition.inj (Option.some.inj (hacts.1.symm.trans hnew)))
  · -- and any other has not been written, so it did not hold it then either
    refine hheld ?_
    rw [← hacts.1, hafter]
    refine (World.export?_repointEach_of_not_pending _ w fun t' ht' hh hx hheld' => ?_).symm
    obtain rfl := hone t' ht' t ht hh hx
    exact hheld hheld'

/-- The lists of living types have been renewed, and no old type is left in them. -/
theorem subtypes_propagate_eq_nil (hw : w.Sound) (hs : s.Known w) (hfits : s.Fits w)
    (hnames : (us.map fun u => (w.unit u).name).Nodup)
    (hheld : ∀ u ∈ us, .unit u ∈ w.roots ∧ w.knows (.unit u) = true) {u : UnitId} (hu : u ∈ us)
    {p : TypeId × TypeId} (hp : p ∈ us.flatMap (s.successions w)) :
    ((s.propagate us w).2.2.pin ((s.propagate us w).2.2.keptFor u)).subtypes p.1 = [] := by
  have hframe := s.frame_propagate us w
  have hwanes := wanes_propagate hw hs hfits us
  have hunit : (s.propagate us w).2.2.Reaches (.unit u) := by
    refine .root ?_ (hwanes.fades.knows ▸ (hheld u hu).2)
    rw [World.roots, hframe.pins, hframe.host]
    exact (hheld u hu).1
  rw [List.eq_nil_iff_forall_not_mem]
  intro r hr
  obtain ⟨hback, hreached⟩ := World.mem_subtypes.mp hr
  rw [World.reaches_pin_keptFor_iff hunit] at hreached
  -- back references tell the truth, so its list would still have the old type
  have hlists : p.1 ∈ (s.propagate us w).2.2.ancestors r :=
    (hwanes.fades.sound.mirror r p.1).mp hback
  rw [(ancestors_propagate hw hs hfits hheld hreached).2,
    World.foldl_renew (coherent_successions hnames)] at hlists
  exact World.notMem_map_renewal (coherent_successions hnames) hp hlists

/-- What stands in the way of a move has stood there from the beginning. -/
theorem refusal?_propagate (hfits : s.Fits w) (hone : World.OneTarget (us.flatMap (s.moves w)))
    {m : ObjectId × TypeId} (hm : m ∈ us.flatMap (s.moves w)) :
    (s.propagate us w).2.2.refusal? m = w.refusal? m := by
  have hstage : s.Stage us w (s.propagate us w).2.2 := by
    rw [(s.propagate_eq_repairEach us w).2]
    exact World.repairEach_preserves (.refl s us w) fun u hu v hv => hv.repair hfits hone hu
  exact hstage.refusal m hm

/-- An object has been moved, unless it refuses. -/
theorem type_or_refusal_propagate (hfits : s.Fits w)
    (hone : World.OneTarget (us.flatMap (s.moves w))) {m : ObjectId × TypeId}
    (hm : m ∈ us.flatMap (s.moves w)) :
    ((s.propagate us w).2.2.object m.1).type = m.2 ∨
      (s.propagate us w).2.2.refusal? m ≠ none := by
  have hobject : (s.propagate us w).2.2.object m.1 =
      (World.moveEach (us.flatMap (s.moves w)) w).1.object m.1 :=
    congrArg (Store.get · m.1.index) (propagate_moves hfits us)
  -- whether a move is refused does not change in the course of the propagation
  rw [refusal?_propagate hfits hone hm, hobject, World.type_moveEach hone w hm]
  by_cases h : w.refusal? m = none
  · exact .inl (if_pos h)
  · exact .inr h

/-- **A propagation settles its units.** -/
theorem settled_propagate (hw : w.Sound) (hs : s.Known w) (hfits : s.Fits w)
    (hslots : s.references.OnePerSlot) (hone : World.OneTarget (us.flatMap (s.moves w)))
    (hnames : (us.map fun u => (w.unit u).name).Nodup)
    (hheld : ∀ u ∈ us, .unit u ∈ w.roots ∧ w.knows (.unit u) = true) :
    ∀ u ∈ us, (s.propagate us w).2.2.Settled s u := by
  -- what the second repair of `u` sets out to do is what the first one did
  have hform := (s.frame_propagate us w).form
  have hown := ownExports_propagate hfits us
  intro u hu
  refine ⟨fun t ht => ?_, fun p hp => ?_, fun m hm => ?_⟩
  · rw [repointings_congr hform (hown u)] at ht
    exact not_acts_propagate hfits hslots hnames (List.mem_flatMap.mpr ⟨u, hu, ht⟩)
  · rw [successions_congr hform (hown u)] at hp
    exact subtypes_propagate_eq_nil hw hs hfits hnames hheld hu
      (List.mem_flatMap.mpr ⟨u, hu, hp⟩)
  · rw [moves_congr hform (hown u)] at hm
    exact type_or_refusal_propagate hfits hone (List.mem_flatMap.mpr ⟨u, hu, hm⟩)

/-- The second of two propagations counts what the first one left. -/
theorem stats_of_settled (hfits : s.Fits w) (hone : World.OneTarget (us.flatMap (s.moves w)))
    (hsettled : ∀ u ∈ us, (s.propagate us w).2.2.Settled s u) :
    (s.propagate us (s.propagate us w).2.2).2.1 = (s.propagate us w).2.1.leftovers := by
  have hform := (s.frame_propagate us w).form
  have hown := ownExports_propagate hfits us
  have hmoves : us.flatMap (s.moves (s.propagate us w).2.2) = us.flatMap (s.moves w) :=
    List.flatMap_congr fun u _ => moves_congr hform (hown u)
  have hleft := filter_deeds_propagate hfits hone
  have hleft' := filter_deeds_propagate (hfits.of_sameForm hform) (hmoves ▸ hone)
  -- the same things have no successor, and the same moves are refused
  have hsame : us.flatMap (s.leftovers (s.propagate us w).2.2) = us.flatMap (s.leftovers w) := by
    refine List.flatMap_congr fun u hu => leftovers_congr hform (hown u) fun m hm => ?_
    exact refusal?_propagate hfits hone (List.mem_flatMap.mpr ⟨u, hu, hm⟩)
  have hall := List.filter_eq_self.mpr (propagate_of_settled hsettled).2
  rw [(s.propagate_eq_repairEach us _).1, (s.propagate_eq_repairEach us w).1, ← hall, hleft',
    hsame, ← hleft, Stats.tally_filter_isLeftover (World.isTrue_repairs s us w)]

end Settled

variable [Host σ]

/-- **Propagation is idempotent.** Let a session be opened in `w`, let its journal be anything by
now, and let a later world `w₁` be repaired twice in a row for units with different names that
whoever starts the propagations holds. The second propagation leaves the world as the first one left
it, slots, ancestor lists and types of objects included. It counts no repairs, and as many removed
names, removed types and rejected objects as the first one. -/
theorem propagate_again {w w' w₁ : World σ} {targets us : List UnitId} {r : RegistryId}
    {e : Enumerator} {config : Config} {s : Session} (journal : Journal)
    (hstart : start w targets r e config = (.ok s, w')) (hw : w.Sound) (he : e.Finds w)
    (hlater : w.Later w₁) (hw₁ : w₁.Sound) (hnames : (us.map fun u => (w₁.unit u).name).Nodup)
    (hheld : ∀ u ∈ us, .unit u ∈ w₁.roots ∧ w₁.knows (.unit u) = true) :
    let first := { s with journal := journal }.propagate us w₁
    let second := first.1.propagate us first.2.2
    second.2.2 = first.2.2 ∧
      second.2.1 =
        { Stats.zero with
          removedSymbols := first.2.1.removedSymbols
          removedTypes := first.2.1.removedTypes
          objectsRejected := first.2.1.objectsRejected } := by
  intro first second
  have hopened : ({ s with journal := journal } : Session).Opened w targets r :=
    (opened_of_start hstart).1.of_journal
  have hknown := (known_of_start hstart hw he hlater).of_journal journal
  have hfits := hopened.fits (World.keepsNames_of_later hw hlater r targets)
  have hone := hopened.oneTarget_moves hnames
  have hsettled := settled_propagate hw₁ hknown hfits hopened.onePerSlot hone hnames hheld
  -- the second propagation starts from the same records
  have hsecond : second.2 = ({ s with journal := journal }.propagate us first.2.2).2 := by
    rw [show second = first.1.propagate us first.2.2 from rfl, fst_propagate,
      snd_propagate_of_journal]
  rw [hsecond]
  exact ⟨(propagate_of_settled hsettled).1, stats_of_settled hfits hone hsettled⟩

open Scenario.TwoUnits

/-- The first propagation does something of each kind and leaves something of each kind. -/
theorem propagate_again_furnished :
    ∃ s w', start furnished [⟨0⟩] ⟨0⟩ (.listed [⟨0⟩, ⟨1⟩]) .standard = (.ok s, w') ∧
      let first := { s with journal := .empty none }.propagate [⟨0⟩] refurnished
      let second := first.1.propagate [⟨0⟩] first.2.2
      first.2.1 = ⟨1, 1, 1, 1, 1, 1⟩ ∧ second.2.1 = ⟨0, 1, 0, 1, 0, 1⟩ ∧
        second.2.2 = first.2.2 := by
  have hopen : ∀ u ∈ [⟨0⟩], furnished.isOpen u = true := by decide +kernel
  obtain ⟨s, w', hstart⟩ := exists_start hopen ⟨0⟩ (.listed [⟨0⟩, ⟨1⟩]) .standard
  have hs : s = furnishedSession := by
    rw [furnishedSession, hstart]
  have hsound : furnished.Sound := by decide +kernel
  have hsound₁ : refurnished.Sound := by decide +kernel
  have hnames : ([⟨0⟩].map fun u => (refurnished.unit u).name).Nodup := List.nodup_singleton _
  have hheld : ∀ u ∈ [⟨0⟩], .unit u ∈ refurnished.roots ∧
      refurnished.knows (.unit u) = true := by decide +kernel
  have hfinds : (Enumerator.listed [⟨0⟩, ⟨1⟩]).Finds furnished := by
    show ∀ o ∈ [⟨0⟩, ⟨1⟩], furnished.knows (.object o) = true
    decide +kernel
  obtain ⟨hworld, hstats⟩ := propagate_again (.empty none) hstart hsound hfinds later_refurnished
    hsound₁ hnames hheld
  -- the counters of the first pass, from which those of the second follow
  have hfirst : ({ s with journal := .empty none }.propagate [⟨0⟩] refurnished).2.1 =
      ⟨1, 1, 1, 1, 1, 1⟩ := by
    rw [hs]
    decide +kernel
  rw [hfirst] at hstats
  exact ⟨s, w', hstart, hfirst, hstats, hworld⟩

end Session

end HotReload
