import HotReload.Proofs.Reload.ExportSlots
import HotReload.Proofs.Reload.Recompilers
import HotReload.Proofs.Repair.Lineage
import HotReload.Proofs.Repair.Notes

/-!
# Counts, events and changes

A propagation tells what it has done three times: in its counts, in the journal and in the world.
Each step of a repair adds to the counts and has an event of its own. Since the two agree for every
step (`World.isTrue_repair`), they agree kind by kind for all of them (`Stats.count_tally_kind`), and
the journal holds the events (`Session.exists_recorded`).

To compare events with the world, what differs between two worlds is seen as a set of places
(`World.changes`). A pass whose steps have a deed for each place that they change has enough deeds
for all places that differ in the end (`World.Accounts.repairEach`). It has no more than that
if a place that has been changed is left at that; this is so for slots and for objects. An ancestor
list can be written more than once, if it has old types of several names.
-/

namespace HotReload

variable {σ : Type}

/-! ### Kinds of events -/

/-- The **kinds** of events that a repair can have. -/
inductive RepairKind where
  | bindingRepointed
  | symbolRemoved
  | ancestorRepointed
  | typeRemoved
  | objectRetargeted
  | retypeRejected
  deriving DecidableEq, Repr

/-- The kind of an event, if it is one of a repair. -/
def Event.repairKind? : Event → Option RepairKind
  | bindingRepointed _ _ _ => some .bindingRepointed
  | symbolRemoved _ _ => some .symbolRemoved
  | ancestorRepointed _ _ => some .ancestorRepointed
  | typeRemoved _ => some .typeRemoved
  | objectRetargeted _ => some .objectRetargeted
  | retypeRejected _ _ => some .retypeRejected
  | _ => none

/-- True of the events of a kind. -/
def Event.isOf (kind : RepairKind) (e : Event) : Bool := e.repairKind? = some kind

namespace Stats

/-- The count of a kind. -/
def count (s : Stats) : RepairKind → Nat
  | .bindingRepointed => s.bindingsRepointed
  | .symbolRemoved => s.removedSymbols
  | .ancestorRepointed => s.subtypesRepointed
  | .typeRemoved => s.removedTypes
  | .objectRetargeted => s.objectsRetargeted
  | .retypeRejected => s.objectsRejected

/-- An event stands for one of its kind. -/
theorem count_ofEvent (e : Event) (kind : RepairKind) :
    (ofEvent e).count kind = if e.isOf kind then 1 else 0 := by
  cases e <;> cases kind <;> rfl

/-- **Counts are numbers of events**, kind by kind, where each deed is true to its event. -/
theorem count_tally_kind {ds : List Deed} (htrue : ∀ d ∈ ds, d.IsTrue) (kind : RepairKind) :
    (tally ds).count kind = ds.countP (·.event.isOf kind) := by
  have hzero : zero.count kind = 0 := by cases kind <;> rfl
  have hadd : ∀ a b : Stats, (a + b).count kind = a.count kind + b.count kind := by
    intro a b
    cases kind <;> rfl
  induction ds with
  | nil => exact hzero
  | cons d ds ih =>
    rw [List.forall_mem_cons] at htrue
    rw [tally, hadd, ih htrue.2, htrue.1.1, count_ofEvent, List.countP_cons, Nat.add_comm]

end Stats

/-! ### What differs between two worlds -/

namespace World

section Changes

variable {γ β : Type} (place : World σ → γ → β)

/-- The places that show different things in two worlds. -/
def changes (w w' : World σ) : Set γ := {p | place w' p ≠ place w p}

/-- Nothing differs between a world and itself. -/
theorem changes_self (w : World σ) : changes place w w = ∅ := by
  ext p
  simp [changes]

/-- What differs in the end has been changed before or after. -/
theorem changes_subset_union (w v u : World σ) :
    changes place w u ⊆ changes place w v ∪ changes place v u := by
  intro p hp
  by_cases hv : place v p = place w p
  · exact .inr fun hu => hp (hu.trans hv)
  · exact .inl hv

/-- Places that are changed once differ in the end. -/
theorem changes_eq_union {w v u : World σ}
    (h : ∀ p ∈ changes place w v, p ∉ changes place v u) :
    changes place w u = changes place w v ∪ changes place v u := by
  refine (changes_subset_union place w v u).antisymm ?_
  rintro p (hp | hp)
  · -- what the first part has changed the second one leaves
    have hstay : place u p = place v p := by
      by_contra hc
      exact h p hp hc
    exact fun hu => hp (hstay.symm.trans hu)
  · -- and what the second part has changed had been left by the first
    have hbefore : place v p = place w p := by
      by_contra hc
      exact h p hc hp
    exact fun hu => hp (hu.trans hbefore.symm)

/-- Deeds **account for** what differs: there is one with a counted event for each place. -/
def Accounts (counted : Event → Bool) (w w' : World σ) (ds : List Deed) : Prop :=
  (changes place w w').Finite ∧ (changes place w w').ncard ≤ ds.countP (counted ·.event)

namespace Accounts

variable {place} {counted : Event → Bool} {w v u : World σ} {ds es : List Deed}

/-- Where nothing differs, nothing is to be accounted for. -/
theorem of_same (h : ∀ p, place v p = place w p) : Accounts place counted w v ds := by
  have hempty : changes place w v = ∅ := Set.eq_empty_of_forall_notMem fun p hp => hp (h p)
  rw [Accounts, hempty]
  exact ⟨Set.finite_empty, by rw [Set.ncard_empty]; exact Nat.zero_le _⟩

/-- A place that differs in the end has been accounted for before or after. -/
theorem append (h : Accounts place counted w v ds) (h' : Accounts place counted v u es) :
    Accounts place counted w u (ds ++ es) := by
  have hsub : changes place w u ⊆ changes place w v ∪ changes place v u :=
    changes_subset_union place w v u
  refine ⟨(h.1.union h'.1).subset hsub, ?_⟩
  calc (changes place w u).ncard
      ≤ (changes place w v ∪ changes place v u).ncard := Set.ncard_le_ncard hsub (h.1.union h'.1)
    _ ≤ (changes place w v).ncard + (changes place v u).ncard := Set.ncard_union_le _ _
    _ ≤ ds.countP (counted ·.event) + es.countP (counted ·.event) := Nat.add_le_add h.2 h'.2
    _ = (ds ++ es).countP (counted ·.event) := List.countP_append.symm

/-- **A pass accounts for what differs** as its steps do. -/
theorem repairEach {α : Type} {step : World σ → α → World σ × List Deed} {as : List α}
    (hstep : ∀ a ∈ as, ∀ v, Accounts place counted v (step v a).1 (step v a).2) (w : World σ) :
    Accounts place counted w (World.repairEach step as w).1 (World.repairEach step as w).2 := by
  induction as generalizing w with
  | nil => exact of_same fun _ => rfl
  | cons a as ih =>
    rw [List.forall_mem_cons] at hstep
    rw [repairEach_cons]
    exact (hstep.1 w).append (ih hstep.2 _)

end Accounts

end Changes

/-! ### Ancestor lists -/

section Ancestors

/-- The types whose ancestor lists differ. -/
def relistedTypes (w w' : World σ) : Set TypeId := {t | w'.ancestors t ≠ w.ancestors t}

/-- A new ancestor is shown where one list was written. -/
theorem accounts_repointAncestors (new : TypeId) (w : World σ) (s : TypeId) :
    Accounts ancestors (Event.isOf .ancestorRepointed) w (repointAncestors new w s).1
      (repointAncestors new w s).2 := by
  by_cases hany : (w.ancestors s).any (w.isPredecessor new) = true
  · -- the list of one type is written, and there is one deed
    have hsub : changes ancestors w (repointAncestors new w s).1 ⊆ {s} := by
      intro t ht
      by_contra hne
      refine ht ?_
      rw [ancestors_repointAncestors]
      exact if_neg hne
    have hdeeds : (repointAncestors new w s).2 =
        [⟨{ Stats.zero with subtypesRepointed := 1 },
          .ancestorRepointed (w.typeName s).text (w.typeName new).text⟩] := by
      rw [repointAncestors, if_pos hany]
    refine ⟨(Set.finite_singleton s).subset hsub, ?_⟩
    rw [hdeeds]
    exact (Set.ncard_le_ncard hsub (Set.finite_singleton s)).trans (Set.ncard_singleton s).le
  · rw [repointAncestors, if_neg hany]
    exact .of_same fun _ => rfl

/-- Slots are no lists of ancestors. -/
theorem ancestors_repoint (w : World σ) (t : ExternalBinding × Definition) (s : TypeId) :
    (w.repoint t).1.ancestors s = w.ancestors s := by
  by_cases hacts : w.Acts t
  · rw [repoint_of_acts hacts]
    rfl
  · rw [repoint_of_not_acts hacts]

theorem ancestors_retargetObject (new : TypeId) (w : World σ) (o : ObjectId) (s : TypeId) :
    (retargetObject new w o).1.ancestors s = w.ancestors s := by
  rw [retargetObject_fst]
  split <;> rfl

variable [Host σ]

/-- The repair for one type shows at least one event for each list that it writes. -/
theorem accounts_repairType (s : Session) (types : List TypeId) (w : World σ) (old : TypeId) :
    Accounts ancestors (Event.isOf .ancestorRepointed) w (repairType s types w old).1
      (repairType s types w old).2 := by
  obtain ⟨-, h⟩ | ⟨-, h⟩ | ⟨new, -, -, h⟩ := repairType_cases s types w old <;> rw [h]
  · exact .of_same fun _ => rfl
  · exact .of_same fun _ => rfl
  · have hobjects : ∀ v : World σ, Accounts ancestors (Event.isOf .ancestorRepointed) v
        (retargetObjects s old new v).1 (retargetObjects s old new v).2 :=
      Accounts.repairEach fun o _ v => .of_same (v.ancestors_retargetObject new o)
    exact (Accounts.repairEach (fun t _ v => v.accounts_repointAncestors new t) w).append
      (hobjects _)

/-- **A repair accounts for the ancestor lists** that it changes. -/
theorem accounts_repair (s : Session) (u : UnitId) (w : World σ) :
    Accounts ancestors (Event.isOf .ancestorRepointed) w (w.repair s u).1 (w.repair s u).2 := by
  have hbindings : Accounts ancestors (Event.isOf .ancestorRepointed) w (w.withBindings s u).1
      (w.withBindings s u).2 :=
    Accounts.repairEach (w := w.pin (w.keptFor u)) fun t _ v => .of_same (v.ancestors_repoint t)
  have hremovals : Accounts ancestors (Event.isOf .ancestorRepointed) (w.withBindings s u).1
      (w.withBindings s u).1 (w.removals s u) := .of_same fun _ => rfl
  rw [repair_eq]
  exact (hbindings.append hremovals).append
    (Accounts.repairEach (fun t _ v => v.accounts_repairType s _ t) _)

end Ancestors

/-! ### Objects -/

section Objects

/-- The type of an object. -/
def objectType (w : World σ) (o : ObjectId) : TypeId := (w.object o).type

/-- The objects whose types differ. -/
def retypedObjects (w w' : World σ) : Set ObjectId :=
  {o | (w'.object o).type ≠ (w.object o).type}

/-- A move retypes its own object at most. -/
theorem retypedObjects_move_subset (w : World σ) (m : ObjectId × TypeId) :
    w.retypedObjects (w.move m).1 ⊆ {m.1} := by
  intro o ho
  by_contra hne
  exact ho (by rw [w.object_move_of_ne (Ne.symm hne)])

/-- A move tells of a change if it changes its object. -/
theorem ncard_retypedObjects_move (w : World σ) (m : ObjectId × TypeId) :
    (w.retypedObjects (w.move m).1).ncard =
      (w.move m).2.countP (·.event.isOf .objectRetargeted) := by
  have htype := w.type_move_self m
  by_cases hmoved : ((w.move m).1.object m.1).type = (w.object m.1).type
  · -- the object has the type already, or it does not take it on
    have hempty : w.retypedObjects (w.move m).1 = ∅ := by
      refine Set.eq_empty_of_forall_notMem fun o ho => ho ?_
      rw [Set.mem_singleton_iff.mp (w.retypedObjects_move_subset m ho), hmoved]
    rw [hempty, Set.ncard_empty, eq_comm, List.countP_eq_zero]
    unfold move retargetObject
    split
    · exact nofun
    · next hne =>
      unfold retarget
      cases hfree : w.retypeError? (w.object m.1).type m.2 with
      | none =>
        rw [refusal?, hfree, if_pos rfl] at htype
        exact absurd (hmoved.symm.trans htype) hne
      | some e =>
        intro d hd
        rw [List.mem_singleton.mp hd]
        exact Bool.false_ne_true
  · have hone : w.retypedObjects (w.move m).1 = {m.1} :=
      (w.retypedObjects_move_subset m).antisymm fun o ho => Set.mem_singleton_iff.mp ho ▸ hmoved
    have hne : (w.object m.1).type ≠ m.2 := by
      intro heq
      rw [refusal?_of_type heq, if_pos rfl] at htype
      exact hmoved (htype.trans heq.symm)
    have hfree : w.retypeError? (w.object m.1).type m.2 = none := by
      by_contra hrefused
      rw [refusal?, if_neg hrefused] at htype
      exact hmoved htype
    have hdeeds : (w.move m).2 =
        [⟨{ Stats.zero with objectsRetargeted := 1 },
          .objectRetargeted (w.typeName m.2).text⟩] := by
      unfold move retargetObject retarget
      rw [if_neg hne, hfree]
    rw [hone, Set.ncard_singleton, hdeeds]
    rfl

/-- A pass retypes only objects with a move in it. -/
theorem retypedObjects_moveEach_subset (ms : List (ObjectId × TypeId)) (w : World σ) :
    w.retypedObjects (moveEach ms w).1 ⊆ {o | o ∈ ms.map (·.1)} := by
  intro o ho
  by_contra hnot
  refine ho ?_
  rw [object_moveEach_of_notMem]
  rintro m hm rfl
  exact hnot (List.mem_map_of_mem hm)

/-- **One deed for each object** that has another type. -/
theorem ncard_retypedObjects_moveEach {ms : List (ObjectId × TypeId)} (hone : OneTarget ms)
    (w : World σ) :
    (w.retypedObjects (moveEach ms w).1).ncard =
      (moveEach ms w).2.countP (·.event.isOf .objectRetargeted) := by
  induction ms generalizing w with
  | nil =>
    have hempty : w.retypedObjects w = ∅ := changes_self objectType w
    exact (congrArg Set.ncard hempty).trans (Set.ncard_empty _)
  | cons m ms ih =>
    have hfinite : ((w.move m).1.retypedObjects (moveEach ms (w.move m).1).1).Finite :=
      (List.finite_toSet _).subset (retypedObjects_moveEach_subset ms _)
    have hfinite' : (w.retypedObjects (w.move m).1).Finite :=
      (Set.finite_singleton m.1).subset (w.retypedObjects_move_subset m)
    -- what the first move has changed stays as it is
    have honce : ∀ o ∈ w.retypedObjects (w.move m).1,
        o ∉ (w.move m).1.retypedObjects (moveEach ms (w.move m).1).1 := by
      intro o ho hagain
      obtain rfl := Set.mem_singleton_iff.mp (w.retypedObjects_move_subset m ho)
      have htype : ((w.move m).1.object m.1).type = m.2 := by
        have hself := w.type_move_self m
        by_cases hfree : w.refusal? m = none
        · rwa [if_pos hfree] at hself
        · rw [if_neg hfree] at hself
          exact absurd hself ho
      refine hagain ?_
      -- the same move may occur again, and then it finds the object where it goes
      by_cases hmem : m ∈ ms
      · have htail : OneTarget ms := hone.subset fun a ha => List.mem_cons_of_mem m ha
        rw [type_moveEach htail _ hmem, refusal?_of_type htype, if_pos rfl, htype]
      · rw [object_moveEach_of_notMem]
        intro a ha heq
        exact hmem (hone a (List.mem_cons_of_mem m ha) m List.mem_cons_self heq ▸ ha)
    have hunion : w.retypedObjects (moveEach ms (w.move m).1).1 =
        w.retypedObjects (w.move m).1 ∪
          (w.move m).1.retypedObjects (moveEach ms (w.move m).1).1 :=
      changes_eq_union objectType honce
    calc (w.retypedObjects (moveEach ms (w.move m).1).1).ncard
        = (w.retypedObjects (w.move m).1).ncard +
            ((w.move m).1.retypedObjects (moveEach ms (w.move m).1).1).ncard := by
          rw [hunion, Set.ncard_union_eq (Set.disjoint_left.mpr honce) hfinite' hfinite]
      _ = ((w.move m).2 ++ (moveEach ms (w.move m).1).2).countP
            (·.event.isOf .objectRetargeted) := by
          rw [ncard_retypedObjects_move, ih (hone.subset fun a ha => List.mem_cons_of_mem m ha),
            List.countP_append]

end Objects

end World

/-! ### Propagations -/

namespace Session

variable [Host σ]

/-- **What a propagation records** in a journal that keeps everything are the events of its
repairs. -/
theorem exists_recorded {s : Session} (hjournal : s.journal.capacity = none)
    (hlog : s.config.logRemovedSymbols = true) (us : List UnitId) (w : World σ) :
    ∃ recorded : List Entry,
      (s.propagate us w).1.journal.entries = s.journal.entries ++ recorded ∧
        recorded.map (·.event) =
          (World.repairEach (fun w u => w.repair s u) us w).2.map Deed.event := by
  induction us generalizing s w with
  | nil => exact ⟨[], (List.append_nil _).symm, rfl⟩
  | cons u us ih =>
    let unit := ((w.repair s u).1.unit u).name
    let events := (w.repair s u).2.map Deed.event
    -- with removals recorded no event is filtered out
    have hall : events.filter (journals s.config) = events := by
      rw [List.filter_eq_self]
      intro e _
      rw [journals, hlog]
      rfl
    have hnoted : (s.note unit (w.repair s u).2).journal = s.journal.logAll unit events := by
      rw [note, hall]
    have hcapacity : (s.note unit (w.repair s u).2).journal.capacity = none := by
      rw [hnoted, Journal.capacity_logAll]
      exact hjournal
    obtain ⟨new, hnew, -, hevents⟩ := Journal.exists_logAll hjournal unit events
    obtain ⟨recorded, hrecorded, hrest⟩ := ih hcapacity hlog (w.repair s u).1
    refine ⟨new ++ recorded, ?_, ?_⟩
    · rw [propagate_cons]
      show ((s.note unit (w.repair s u).2).propagate us (w.repair s u).1).1.journal.entries = _
      rw [hrecorded, hnoted, hnew, List.append_assoc]
    · rw [List.map_append, hevents, hrest, World.repairEach_cons, List.map_append]
      rfl

/-- Each slot that has changed is counted once. -/
theorem changedSlots_propagate {s : Session} {w : World σ} {us : List UnitId} (hfits : s.Fits w)
    (hone : World.OnePerSlot (us.flatMap (s.repointings w))) :
    (w.changedSlots (s.propagate us w).2.2).Finite ∧
      (s.propagate us w).2.1.bindingsRepointed =
        (w.changedSlots (s.propagate us w).2.2).ncard := by
  obtain ⟨hexports, hcount, -⟩ := propagate_bindings hfits us
  -- slots are told by the pass of repointings alone
  have hslots : w.changedSlots (s.propagate us w).2.2 =
      w.changedSlots (World.repointEach (us.flatMap (s.repointings w)) w).1 := by
    ext p
    simp only [World.changedSlots, World.export?, hexports]
  rw [hslots, hcount, World.length_deeds_repointEach hone]
  exact ⟨World.finite_changedSlots_repointEach _ w, rfl⟩

/-- Each object that has another type is counted once. -/
theorem retypedObjects_propagate {s : Session} {w : World σ} {us : List UnitId} (hfits : s.Fits w)
    (hone : World.OneTarget (us.flatMap (s.moves w))) :
    (w.retypedObjects (s.propagate us w).2.2).Finite ∧
      (s.propagate us w).2.1.objectsRetargeted =
        (w.retypedObjects (s.propagate us w).2.2).ncard := by
  obtain ⟨hstats, -⟩ := s.propagate_eq_repairEach us w
  obtain ⟨-, hdeeds⟩ := repairs_moves hfits us
  have hobjects : w.retypedObjects (s.propagate us w).2.2 =
      w.retypedObjects (World.moveEach (us.flatMap (s.moves w)) w).1 := by
    ext o
    simp only [World.retypedObjects, World.object, propagate_moves hfits us]
  have hcount : (s.propagate us w).2.1.objectsRetargeted =
      (World.moveEach (us.flatMap (s.moves w)) w).2.countP
        (·.event.isOf .objectRetargeted) := by
    -- events of this kind concern objects, so to filter by that loses none
    have hall : ∀ e : Event, (e.isOf .objectRetargeted && e.concernsObject) =
        e.isOf .objectRetargeted := by
      intro e
      cases e <;> rfl
    calc (s.propagate us w).2.1.objectsRetargeted
        = (Stats.tally (World.repairEach (fun w u => w.repair s u) us w).2).count
            .objectRetargeted := by rw [hstats]; rfl
      _ = ((World.repairEach (fun w u => w.repair s u) us w).2.filter
            (·.event.concernsObject)).countP (·.event.isOf .objectRetargeted) := by
        rw [Stats.count_tally_kind (World.isTrue_repairs s us w), List.countP_filter]
        simp only [hall]
      _ = _ := by rw [hdeeds]
  rw [hobjects, hcount, World.ncard_retypedObjects_moveEach hone]
  exact ⟨(List.finite_toSet _).subset (World.retypedObjects_moveEach_subset _ w), rfl⟩

/-- Each ancestor list that has changed is counted. -/
theorem relistedTypes_propagate (s : Session) (us : List UnitId) (w : World σ) :
    (w.relistedTypes (s.propagate us w).2.2).Finite ∧
      (w.relistedTypes (s.propagate us w).2.2).ncard ≤
        (s.propagate us w).2.1.subtypesRepointed := by
  obtain ⟨hstats, hworld⟩ := s.propagate_eq_repairEach us w
  have hcount : (s.propagate us w).2.1.subtypesRepointed =
      (World.repairEach (fun w u => w.repair s u) us w).2.countP
        (·.event.isOf .ancestorRepointed) := by
    rw [← Stats.count_tally_kind (World.isTrue_repairs s us w), ← hstats]
    rfl
  -- there is only a bound here, as a list may be rewritten more than once
  rw [hcount, hworld]
  exact World.Accounts.repairEach (fun u _ v => v.accounts_repair s u) w

/-- **Counts, journal and changes agree.** Let a session with removed symbols logged be opened in
`w`, let its journal be anything without a bound by now, and let names be what they were, as they
are in any later world. Then a propagation to units with different names counts, for each kind of
change, the events of that kind that it records. It counts each slot and each object that has
changed once, however often an object was enumerated. An ancestor list that has changed, of a living
type or not, it counts at least once. -/
theorem propagate_counts {w w' w₁ : World σ} {targets units : List UnitId} {r : RegistryId}
    {e : Enumerator} {config : Config} {s : Session} {journal : Journal}
    (hjournal : journal.capacity = none) (hlog : config.logRemovedSymbols = true)
    (hstart : start w targets r e config = (.ok s, w')) (hkept : w.KeepsNames w₁ r targets)
    (hnames : (units.map fun u => (w₁.unit u).name).Nodup) :
    let after := { s with journal := journal }.propagate units w₁
    (∃ recorded : List Entry, after.1.journal.entries = journal.entries ++ recorded ∧
        ∀ kind, after.2.1.count kind = recorded.countP (·.event.isOf kind)) ∧
      (w₁.changedSlots after.2.2).Finite ∧
      after.2.1.bindingsRepointed = (w₁.changedSlots after.2.2).ncard ∧
      (w₁.retypedObjects after.2.2).Finite ∧
      after.2.1.objectsRetargeted = (w₁.retypedObjects after.2.2).ncard ∧
      (w₁.relistedTypes after.2.2).Finite ∧
      (w₁.relistedTypes after.2.2).ncard ≤ after.2.1.subtypesRepointed ∧
      (after.2.1.subtypesRepointed = 0 → w₁.relistedTypes after.2.2 = ∅) := by
  intro after
  let s' : Session := { s with journal := journal }
  obtain ⟨hopened, hconfig, -⟩ := opened_of_start hstart
  have hopened' : s'.Opened w targets r := hopened.of_journal
  have hfits : s'.Fits w₁ := hopened'.fits hkept
  obtain ⟨hslots, hbindings⟩ := changedSlots_propagate hfits
    (onePerSlot_flatMap_repointings hopened'.onePerSlot hnames)
  obtain ⟨hobjects, hretargeted⟩ := retypedObjects_propagate hfits (hopened'.oneTarget_moves hnames)
  obtain ⟨htypes, hrepointed⟩ := relistedTypes_propagate s' units w₁
  refine ⟨?_, hslots, hbindings, hobjects, hretargeted, htypes, hrepointed, fun hzero => ?_⟩
  · obtain ⟨recorded, hentries, hrecorded⟩ :=
      exists_recorded (s := s') hjournal (hconfig ▸ hlog) units w₁
    refine ⟨recorded, hentries, fun kind => ?_⟩
    -- each deed counts as its event says, and the events are those recorded
    let deeds := (World.repairEach (fun w u => w.repair s' u) units w₁).2
    calc after.2.1.count kind
        = (Stats.tally deeds).count kind := by rw [← (s'.propagate_eq_repairEach units w₁).1]
      _ = deeds.countP (·.event.isOf kind) :=
          Stats.count_tally_kind (World.isTrue_repairs s' units w₁) kind
      _ = (deeds.map Deed.event).countP (Event.isOf kind) := by
          rw [List.countP_map]
          rfl
      _ = recorded.countP (·.event.isOf kind) := by
          rw [← hrecorded, List.countP_map]
          rfl
  · rw [← Set.ncard_eq_zero htypes]
    exact Nat.le_zero.mp (hzero ▸ hrepointed)

open Scenario.TwoUnits

/-- A slot, an ancestor list and an object are given something new, a symbol and a type are gone,
and another object refuses its new type: each shows once in each account. The session keeps what it
knows alive. -/
theorem propagate_counts_refurnished :
    ∃ s w', start furnished [⟨0⟩] ⟨0⟩ (.listed [⟨0⟩, ⟨1⟩]) .standard = (.ok s, w') ∧
      let before := refurnished.pin s.nodes
      let after := { s with journal := .empty none }.propagate [⟨0⟩] before
      (∀ kind, after.2.1.count kind = 1 ∧
          after.1.journal.entries.countP (·.event.isOf kind) = 1) ∧
        (before.changedSlots after.2.2).ncard = 1 ∧
        (before.retypedObjects after.2.2).ncard = 1 ∧
        ⟨3⟩ ∈ before.relistedTypes after.2.2 ∧ (before.relistedTypes after.2.2).ncard ≤ 1 := by
  have hopen : ∀ u ∈ [⟨0⟩], furnished.isOpen u = true := by decide +kernel
  obtain ⟨s, w', hstart⟩ := exists_start hopen ⟨0⟩ (.listed [⟨0⟩, ⟨1⟩]) .standard
  have hs : s = furnishedSession := by
    rw [furnishedSession, hstart]
  have hsound : furnished.Sound := by decide +kernel
  have hlater : furnished.Later (refurnished.pin s.nodes) :=
    later_refurnished.trans (World.later_of_stores rfl rfl rfl (Nat.le_refl _))
  have hnames : ([⟨0⟩].map fun u => ((refurnished.pin s.nodes).unit u).name).Nodup :=
    List.nodup_singleton _
  obtain ⟨⟨recorded, hentries, hrecorded⟩, -, hbindings, -, hobjects, -, htypes, -⟩ :=
    propagate_counts (show (Journal.empty none).capacity = none from rfl) rfl hstart
      (World.keepsNames_of_later hsound hlater _ _) hnames
  -- the counts are computed, the other accounts follow
  have hcounts : ({ s with journal := .empty none }.propagate [⟨0⟩]
      (refurnished.pin s.nodes)).2.1 = ⟨1, 1, 1, 1, 1, 1⟩ := by
    rw [hs]
    decide +kernel
  have hlist : ({ s with journal := .empty none }.propagate [⟨0⟩]
      (refurnished.pin s.nodes)).2.2.ancestors ⟨3⟩ ≠ (refurnished.pin s.nodes).ancestors ⟨3⟩ := by
    rw [hs]
    decide +kernel
  rw [hcounts] at hrecorded hbindings hobjects htypes
  have hone : ∀ kind, (Stats.mk 1 1 1 1 1 1).count kind = 1 := by
    intro kind
    cases kind <;> rfl
  refine ⟨s, w', hstart, fun kind => ⟨?_, ?_⟩, hbindings.symm, hobjects.symm, hlist, htypes⟩
  · rw [hcounts, hone]
  · rw [hentries, Journal.empty, List.nil_append, ← hrecorded, hone]

end Session

end HotReload
