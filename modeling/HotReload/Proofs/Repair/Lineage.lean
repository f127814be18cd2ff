import HotReload.Proofs.Repair.BackLists
import HotReload.Proofs.Repair.Fading

/-!
# Ancestor lists across a propagation

As far as the ancestors of one living type go, a propagation is a fold over *successions*: pairs of
an old type and the type that takes its place (`Session.successions`). A succession changes a list
only if the old type is in it, and then it renews all types of that name in it, whichever generation
they belong to (`World.renew`). That the type is found at all is the mirror of the ancestor
relation, and that it is still alive when its turn comes follows from its being alive in the end
(`Session.ancestors_propagate`).

What the fold makes of a list can be read off the list as it was in the beginning, because all
successions of a name lead to one type: no succession puts an old type into a list
(`World.foldl_renew`).
-/

namespace HotReload

variable {σ : Type}

namespace World

/-! ### Renewing a list -/

/-- What the succession `p` makes of an ancestor list: nothing if the old type is not in it,
otherwise all types that go by the name of the new one give way to it. -/
def renew (w : World σ) (ts : List TypeId) (p : TypeId × TypeId) : List TypeId :=
  if p.1 ∈ ts then ts.map fun t => if w.isPredecessor p.2 t then p.2 else t else ts

/-- The type that the successions `ps` put in the place of `t` in the list `ts`. -/
def renewal (w : World σ) (ps : List (TypeId × TypeId)) (ts : List TypeId) (t : TypeId) : TypeId :=
  match ps.find? fun p => decide (p.1 ∈ ts) && w.typeName p.2 == w.typeName t with
  | some p => p.2
  | none => t

/-- Successions that agree with each other: old and new have one name and are two types, and each
name has one new type. -/
structure Coherent (w : World σ) (ps : List (TypeId × TypeId)) : Prop where
  typeName : ∀ p ∈ ps, w.typeName p.1 = w.typeName p.2
  ne : ∀ p ∈ ps, p.1 ≠ p.2
  unique : ∀ p ∈ ps, ∀ q ∈ ps, w.typeName p.2 = w.typeName q.2 → p.2 = q.2

/-- No type is old in one succession and new in another. -/
theorem Coherent.old_ne_new {w : World σ} {ps : List (TypeId × TypeId)} (hps : w.Coherent ps)
    {p q : TypeId × TypeId} (hp : p ∈ ps) (hq : q ∈ ps) : p.1 ≠ q.2 := by
  intro h
  refine hps.ne p hp (h.trans (hps.unique q hq p hp ?_))
  rw [← h, hps.typeName p hp]

/-- Renewing by name alone is the same, because the new type gives way to itself. -/
theorem ite_isPredecessor (w : World σ) (new t : TypeId) :
    (if w.isPredecessor new t then new else t) =
      if w.typeName t = w.typeName new then new else t := by
  unfold isPredecessor
  by_cases ht : t = new
  · simp [ht]
  · simp [ht]

section Renewal

variable {w : World σ} {ps : List (TypeId × TypeId)} {ts : List TypeId}

variable (w ps ts) in
/-- A type gives way to the new type of a succession of its name that applies, or it stays. -/
theorem renewal_cases (t : TypeId) :
    (∃ p ∈ ps, p.1 ∈ ts ∧ w.typeName t = w.typeName p.2 ∧ w.renewal ps ts t = p.2) ∨
      (∀ p ∈ ps, p.1 ∈ ts → w.typeName t ≠ w.typeName p.2) ∧ w.renewal ps ts t = t := by
  unfold renewal
  cases hq : ps.find? fun p => decide (p.1 ∈ ts) && w.typeName p.2 == w.typeName t with
  | some q =>
    -- the first succession that renews this type is the one that counts
    have hfound := List.find?_some hq
    rw [Bool.and_eq_true, beq_iff_eq, decide_eq_true_eq] at hfound
    exact .inl ⟨q, List.mem_of_find?_eq_some hq, hfound.1, hfound.2.symm, rfl⟩
  | none =>
    refine .inr ⟨?_, rfl⟩
    intro p hp hold hname
    have hnot := List.find?_eq_none.mp hq p hp
    rw [Bool.and_eq_true, beq_iff_eq, decide_eq_true_eq] at hnot
    exact hnot ⟨hold, hname.symm⟩

/-- A type with a successor is renewed to it. -/
theorem renewal_of_mem (hps : w.Coherent ps) {p : TypeId × TypeId} (hp : p ∈ ps) (hold : p.1 ∈ ts)
    {t : TypeId} (hname : w.typeName t = w.typeName p.2) : w.renewal ps ts t = p.2 := by
  rcases renewal_cases w ps ts t with ⟨q, hq, -, hname', hnew⟩ | ⟨hnone, -⟩
  · rw [hnew]
    exact hps.unique q hq p hp (hname'.symm.trans hname)
  · exact absurd hname (hnone p hp hold)

/-- Other types stay. -/
theorem renewal_of_forall {t : TypeId}
    (h : ∀ p ∈ ps, p.1 ∈ ts → w.typeName t ≠ w.typeName p.2) : w.renewal ps ts t = t := by
  rcases renewal_cases w ps ts t with ⟨q, hq, hold, hname, -⟩ | ⟨-, hsame⟩
  · exact absurd hname (h q hq hold)
  · exact hsame

/-- Renewal keeps names. -/
theorem typeName_renewal (t : TypeId) : w.typeName (w.renewal ps ts t) = w.typeName t := by
  rcases renewal_cases w ps ts t with ⟨q, -, -, hname, hnew⟩ | ⟨-, hsame⟩
  · rw [hnew, hname]
  · rw [hsame]

/-- What a renewed list has besides new types it had before. -/
theorem mem_of_mem_map_renewal {t : TypeId} (h : t ∈ ts.map (w.renewal ps ts))
    (ht : ∀ p ∈ ps, t ≠ p.2) : t ∈ ts ∧ w.renewal ps ts t = t := by
  obtain ⟨t', ht', heq⟩ := List.mem_map.mp h
  rcases renewal_cases w ps ts t' with ⟨q, hq, -, -, hnew⟩ | ⟨-, hsame⟩
  · exact absurd (heq.symm.trans hnew) (ht q hq)
  · obtain rfl : t' = t := hsame.symm.trans heq
    exact ⟨ht', hsame⟩

/-- No old type is left in a renewed list. -/
theorem notMem_map_renewal (hps : w.Coherent ps) {p : TypeId × TypeId} (hp : p ∈ ps) :
    p.1 ∉ ts.map (w.renewal ps ts) := by
  intro h
  obtain ⟨hold, hsame⟩ := mem_of_mem_map_renewal h fun q hq => hps.old_ne_new hp hq
  exact hps.ne p hp (hsame.symm.trans (renewal_of_mem hps hp hold (hps.typeName p hp)))

/-- **The fold of successions** can be read off the list in the beginning. -/
theorem foldl_renew (hps : w.Coherent ps) (ts : List TypeId) :
    ps.foldl w.renew ts = ts.map (w.renewal ps ts) := by
  -- successions apply from the front, so the induction takes them off the end
  induction ps using List.reverseRecOn with
  | nil =>
    show ts = ts.map fun t => t
    rw [List.map_id']
  | append_singleton ps p ih =>
    have hps' : w.Coherent ps :=
      ⟨fun q hq => hps.typeName q (List.mem_append_left _ hq),
        fun q hq => hps.ne q (List.mem_append_left _ hq),
        fun q hq q' hq' => hps.unique q (List.mem_append_left _ hq) q'
          (List.mem_append_left _ hq')⟩
    have hp : p ∈ ps ++ [p] := List.mem_append_right _ (List.mem_singleton_self p)
    rw [List.foldl_append, List.foldl_cons, List.foldl_nil, ih hps', renew]
    split
    · next hmem =>
      have hold : p.1 ∈ ts := (mem_of_mem_map_renewal hmem fun q hq =>
        hps.old_ne_new hp (List.mem_append_left _ hq)).1
      rw [List.map_map]
      refine List.map_congr_left fun t _ => ?_
      rw [Function.comp_apply, ite_isPredecessor, typeName_renewal]
      split
      · next hname => exact (renewal_of_mem hps hp hold hname).symm
      · next hname =>
        -- a succession of another name does not show
        rcases renewal_cases w ps ts t with ⟨q, hq, hq', hname', hnew⟩ | ⟨hnone, hsame⟩
        · rw [hnew, renewal_of_mem hps (List.mem_append_left _ hq) hq' hname']
        · rw [hsame, renewal_of_forall]
          intro q hq hq'
          rcases List.mem_append.mp hq with hq | hq
          · exact hnone q hq hq'
          · rwa [List.mem_singleton.mp hq]
    · next hmem =>
      refine List.map_congr_left fun t ht => ?_
      rcases renewal_cases w ps ts t with ⟨q, hq, hq', hname, hnew⟩ | ⟨hnone, hsame⟩
      · rw [hnew, renewal_of_mem hps (List.mem_append_left _ hq) hq' hname]
      · rw [hsame, renewal_of_forall]
        intro q hq hold hname
        rcases List.mem_append.mp hq with hq | hq
        · exact hnone q hq hold hname
        · -- the old type would be in the list still, as no succession of its name has applied
          rw [List.mem_singleton.mp hq] at hold hname
          refine hmem (List.mem_map.mpr ⟨p.1, hold, renewal_of_forall fun q' hq' hq'' hc => ?_⟩)
          refine hnone q' hq' hq'' ?_
          rw [hname, ← hps.typeName p hp, hc]

end Renewal

/-! ### One succession -/

/-- One succession renews one list. -/
theorem ancestors_repointAncestors (w : World σ) (new s r : TypeId) :
    (repointAncestors new w s).1.ancestors r =
      if r = s then (w.ancestors s).map fun t => if w.isPredecessor new t then new else t
      else w.ancestors r := by
  unfold repointAncestors
  split
  · exact w.ancestors_setAncestors s _ r
  · next hnone =>
    -- a list without a predecessor is renewed to itself
    split
    · next h =>
      rw [h, List.map_congr_left, List.map_id']
      intro t ht
      rw [if_neg fun hc => hnone (List.any_eq_true.mpr ⟨t, ht, hc⟩)]
    · rfl

/-- A pass over types renews the lists of those that it goes through, however often it does. -/
theorem ancestors_repairEach_repointAncestors (new : TypeId) (ss : List TypeId) (w : World σ)
    (r : TypeId) :
    (repairEach (repointAncestors new) ss w).1.ancestors r =
      if r ∈ ss then (w.ancestors r).map fun t => if w.isPredecessor new t then new else t
      else w.ancestors r := by
  induction ss generalizing w with
  | nil => rfl
  | cons s ss ih =>
    have hform := w.sameForm_repointAncestors new s
    rw [repairEach_cons, ih, ancestors_repointAncestors]
    simp only [hform.isPredecessor, List.mem_cons]
    by_cases hs : r = s
    · subst hs
      simp only [if_true, true_or, List.map_map, ite_eq_right_iff]
      intro _
      -- the new type gives way to no other, so a second time changes nothing
      refine List.map_congr_left fun t _ => ?_
      rw [Function.comp_apply, ite_isPredecessor, ite_isPredecessor]
      split
      · rw [if_pos rfl]
      · rfl
    · simp [hs]

variable [Host σ]

/-- **The repair of subtypes** renews the list of each living type. -/
theorem ancestors_repointSubtypes {w : World σ} (hw : w.Sound) (old new : TypeId) {r : TypeId}
    (hr : w.Reaches (.type r)) :
    (w.repointSubtypes old new).1.ancestors r = w.renew (w.ancestors r) (old, new) := by
  have hmem : r ∈ w.subtypes old ↔ old ∈ w.ancestors r := by
    rw [mem_subtypes, hw.mirror, and_iff_left hr]
  rw [repointSubtypes, ancestors_repairEach_repointAncestors, renew, if_congr hmem rfl rfl]

end World

/-! ### The successions of a session -/

namespace Session

/-- What a repair puts in the place of an old type, if `types` are the current ones of its unit. -/
def successionOf (types : List TypeId) (w : World σ) (old : TypeId) : List (TypeId × TypeId) :=
  match w.successor? types old with
  | none => []
  | some new => if old = new then [] else [(old, new)]

/-- **The successions** that a repair of `u` goes through. -/
def successions (s : Session) (w : World σ) (u : UnitId) : List (TypeId × TypeId) :=
  (s.snapshot.ownTypes w (w.unit u).name).flatMap (successionOf (typesAmong (w.ownExports u)) w)

/-- A succession leads from a type of the snapshot to another one of that name. -/
theorem mem_successions {s : Session} {w : World σ} {u : UnitId} {p : TypeId × TypeId} :
    p ∈ s.successions w u ↔ p.1 ∈ s.snapshot.ownTypes w (w.unit u).name ∧
      w.successor? (typesAmong (w.ownExports u)) p.1 = some p.2 ∧ p.1 ≠ p.2 := by
  -- for one type there is one succession, or none
  have hone : ∀ old, p ∈ successionOf (typesAmong (w.ownExports u)) w old ↔
      old = p.1 ∧ w.successor? (typesAmong (w.ownExports u)) old = some p.2 ∧ old ≠ p.2 := by
    intro old
    unfold successionOf
    cases w.successor? (typesAmong (w.ownExports u)) old with
    | none => simp
    | some new =>
      by_cases h : old = new
      · simp [h]
      · simp only [if_neg h, List.mem_singleton, Prod.ext_iff, Option.some.injEq]
        refine ⟨fun hp => ⟨hp.1.symm, hp.2.symm, hp.2 ▸ h⟩, fun hp => ⟨hp.1.symm, hp.2.1.symm⟩⟩
  rw [successions, List.mem_flatMap]
  constructor
  · rintro ⟨old, hold, hp⟩
    obtain ⟨rfl, hrest⟩ := (hone old).mp hp
    exact ⟨hold, hrest⟩
  · rintro ⟨hold, hrest⟩
    exact ⟨p.1, hold, (hone p.1).mpr ⟨rfl, hrest⟩⟩

/-- Successions are found by name. -/
theorem successionOf_congr {w v : World σ} (h : w.SameForm v) (types : List TypeId) :
    successionOf types v = successionOf types w := by
  ext1 old
  rw [successionOf, successionOf, h.successor?]

theorem successions_congr {s : Session} {w v : World σ} (h : w.SameForm v) {u : UnitId}
    (hown : v.ownExports u = w.ownExports u) : s.successions v u = s.successions w u := by
  rw [successions, successions, Snapshot.ownTypes_of_sameForm h, h.unitName, hown,
    successionOf_congr h]

/-- The two types of a succession have the same name, and the unit owns them. -/
theorem typeName_of_mem_successions {s : Session} {w : World σ} {u : UnitId} {p : TypeId × TypeId}
    (hp : p ∈ s.successions w u) :
    w.typeName p.1 = w.typeName p.2 ∧ (w.type p.2).owner = (w.unit u).name := by
  obtain ⟨hold, hsucc, -⟩ := mem_successions.mp hp
  have hname := World.typeName_of_successor? hsucc (Snapshot.owner_of_mem_ownTypes hold)
  refine ⟨hname.symm, ?_⟩
  rw [(QualifiedName.top_inj.mp hname).1]
  exact Snapshot.owner_of_mem_ownTypes hold

/-- **Successions agree** with each other if the units have different names. -/
theorem coherent_successions {s : Session} {w : World σ} {us : List UnitId}
    (hnames : (us.map fun u => (w.unit u).name).Nodup) :
    w.Coherent (us.flatMap (s.successions w)) where
  typeName p hp := by
    obtain ⟨u, -, hp⟩ := List.mem_flatMap.mp hp
    exact (typeName_of_mem_successions hp).1
  ne p hp := by
    obtain ⟨u, -, hp⟩ := List.mem_flatMap.mp hp
    exact (mem_successions.mp hp).2.2
  unique p hp q hq h := by
    obtain ⟨u, hu, hp⟩ := List.mem_flatMap.mp hp
    obtain ⟨v, hv, hq⟩ := List.mem_flatMap.mp hq
    have hpname := typeName_of_mem_successions hp
    have hqname := typeName_of_mem_successions hq
    obtain ⟨howner, -⟩ := QualifiedName.top_inj.mp h
    -- one name has one unit, and the unit has one successor for it
    obtain rfl : u = v := List.inj_on_of_nodup_map hnames hu hv
      (hpname.2.symm.trans (howner.trans hqname.2))
    have hold : (w.type p.1).name = (w.type q.1).name :=
      (QualifiedName.top_inj.mp (hpname.1.trans (h.trans hqname.1.symm))).2
    have hsucc := (mem_successions.mp hp).2.1
    rw [World.successor?, hold] at hsucc
    exact Option.some.inj (hsucc.symm.trans (mem_successions.mp hq).2.1)

end Session

/-! ### Passes -/

namespace World

variable [Host σ]

/-- **What a pass makes of one list** is the fold of what its steps make of it, if the type lives to
see the end of the pass. -/
theorem ancestors_repairEach {α : Type} {step : World σ → α → World σ × List Deed}
    {f : α → List TypeId → List TypeId} {P : World σ → Prop} {r : TypeId} {as : List α}
    {w : World σ} (hw : P w) (hkeep : ∀ a ∈ as, ∀ v, P v → P (step v a).1)
    (hback : ∀ a ∈ as, ∀ v, P v → (step v a).1.Reaches (.type r) → v.Reaches (.type r))
    (hstep : ∀ a ∈ as, ∀ v, P v → (step v a).1.Reaches (.type r) →
      (step v a).1.ancestors r = f a (v.ancestors r))
    (hend : (repairEach step as w).1.Reaches (.type r)) :
    w.Reaches (.type r) ∧
      (repairEach step as w).1.ancestors r = as.foldl (fun ts a => f a ts) (w.ancestors r) := by
  -- whoever lives at the end has lived all along, so the induction can go by lists of living types
  induction as generalizing w with
  | nil => exact ⟨hend, rfl⟩
  | cons a as ih =>
    rw [List.forall_mem_cons] at hkeep hback hstep
    rw [repairEach_cons] at hend ⊢
    obtain ⟨hnext, hrest⟩ := ih (hkeep.1 w hw) hkeep.2 hback.2 hstep.2 hend
    refine ⟨hback.1 w hw hnext, ?_⟩
    rw [hrest, hstep.1 w hw hnext, List.foldl_cons]

/-- The repair for one type renews the lists of all types that live. -/
theorem ancestors_repairType {s : Session} {types : List TypeId} {w : World σ} (hw : w.Sound)
    (old : TypeId) {r : TypeId} (hr : w.Reaches (.type r)) :
    (repairType s types w old).1.ancestors r =
      (Session.successionOf types w old).foldl w.renew (w.ancestors r) := by
  obtain ⟨hsucc, h⟩ | ⟨hsucc, h⟩ | ⟨new, hne, hsucc, h⟩ := repairType_cases s types w old <;>
    rw [h, Session.successionOf, hsucc]
  · rfl
  · show w.ancestors r = (if old = old then [] else [(old, old)]).foldl w.renew (w.ancestors r)
    rw [if_pos rfl]
    rfl
  · have hobjects := repairEach_related (R := SameLists) SameLists.refl SameLists.trans
      (s.objectsOf old) (w.repointSubtypes old new).1
      fun o _ v => v.sameLists_retargetObject new o
    show (retargetObjects s old new (w.repointSubtypes old new).1).1.ancestors r =
      (if old = new then [] else [(old, new)]).foldl w.renew (w.ancestors r)
    rw [if_neg hne]
    exact (hobjects.ancestors r).trans (ancestors_repointSubtypes hw old new hr)

omit [Host σ] in
/-- How a list is renewed depends on names. -/
theorem renew_congr {w v : World σ} (h : w.SameForm v) : v.renew = w.renew := by
  ext1 ts
  ext1 p
  rw [renew, renew]
  simp only [h.isPredecessor]

/-- **What a repair makes of one list.** -/
theorem ancestors_repair {s : Session} {w : World σ} (hw : w.Sound) (hs : s.Known w) (u : UnitId)
    {r : TypeId} (hr : (w.repair s u).1.Reaches (.type r)) :
    (w.repair s u).1.ancestors r = (s.successions w u).foldl w.renew (w.ancestors r) := by
  have hpinned := hs.pin (w.keptFor u)
  have hbindings := fades_withBindings hw hs u
  have hform := w.sameForm_withBindings s u
  have hlists : w.SameLists (w.withBindings s u).1 := w.sameLists_withBindings s u
  -- the type is alive as well while the pins of the repair are set
  have hend : (repairTypes s (w.unit u).name (typesAmong (w.ownExports u))
      (w.withBindings s u).1).1.Reaches (.type r) := by
    rw [repair_eq] at hr
    refine hr.of_pins fun n hn => ?_
    rw [(fades_repairTypes hw hs u).pins]
    exact (w.contains_pins_pin _ _).mpr (.inr hn)
  have hstep : ∀ v, (w.pin (w.keptFor u)).Fades (w.keptFor u) v → ∀ old,
      v.Fades (w.keptFor u) (repairType s (typesAmong (w.ownExports u)) v old).1 := by
    intro v hv old
    exact fades_repairType hv.sound (hpinned.of_fades hv) (knows_of_mem_ownTypes hw hv.knows) old
  -- and it does not come to life in the course of the pass
  have hback : ∀ v, (w.pin (w.keptFor u)).Fades (w.keptFor u) v → ∀ old,
      (repairType s (typesAmong (w.ownExports u)) v old).1.Reaches (.type r) →
        v.Reaches (.type r) := by
    intro v hv old
    refine (hstep v hv old).reaches fun n hn hknown => .of_pinned ?_ hknown
    rw [hv.pins]
    exact (w.contains_pins_pin _ _).mpr (.inl hn)
  obtain ⟨-, hpass⟩ := ancestors_repairEach
    (P := fun v => (w.pin (w.keptFor u)).Fades (w.keptFor u) v ∧ w.SameForm v)
    (f := fun old ts =>
      (Session.successionOf (typesAmong (w.ownExports u)) w old).foldl w.renew ts)
    ⟨hbindings, hform⟩
    (fun old _ v hv => ⟨hv.1.trans (hstep v hv.1 old),
      hv.2.trans (v.typeFrame_repairType s _ old).form⟩)
    (fun old _ v hv => hback v hv.1 old)
    (fun old _ v hv h => by
      rw [ancestors_repairType hv.1.sound old (hback v hv.1 old h),
        Session.successionOf_congr hv.2, renew_congr hv.2])
    hend
  rw [repair_eq]
  show (repairTypes s (w.unit u).name (typesAmong (w.ownExports u))
    (w.withBindings s u).1).1.ancestors r = _
  rw [repairTypes, hpass, hlists.ancestors, Snapshot.ownTypes_of_sameForm hform,
    Session.successions, List.foldl_flatMap]

end World

namespace Session

variable [Host σ]

/-- A world wanes in a propagation. -/
theorem wanes_propagate {s : Session} {w : World σ} (hw : w.Sound) (hs : s.Known w)
    (hfits : s.Fits w) (us : List UnitId) : World.Wanes us w (s.propagate us w).2.2 := by
  rw [(s.propagate_eq_repairEach us w).2]
  exact World.repairEach_preserves (P := World.Wanes us w)
    ⟨.refl _ hw, .refl w, fun _ => rfl⟩ fun u hu v hv => hv.repair hs hfits hu

/-- **What a propagation makes of one list**: it is renewed by the successions of the units, which
can be read off the world in which the propagation starts. Whoever starts it holds the units. -/
theorem ancestors_propagate {s : Session} {w : World σ} (hw : w.Sound) (hs : s.Known w)
    (hfits : s.Fits w) {us : List UnitId}
    (hheld : ∀ u ∈ us, .unit u ∈ w.roots ∧ w.knows (.unit u) = true) {r : TypeId}
    (hr : (s.propagate us w).2.2.Reaches (.type r)) :
    w.Reaches (.type r) ∧ (s.propagate us w).2.2.ancestors r =
      (us.flatMap (s.successions w)).foldl w.renew (w.ancestors r) := by
  rw [(s.propagate_eq_repairEach us w).2] at hr ⊢
  have hback : ∀ u ∈ us, ∀ v, World.Wanes us w v → (v.repair s u).1.Reaches (.type r) →
      v.Reaches (.type r) := by
    intro u hu v hv
    -- the units of a propagation live as long as it lasts
    have hunit : v.Reaches (.unit u) := by
      obtain ⟨hroot, hknown⟩ := hheld u hu
      refine .root ?_ (hv.fades.knows ▸ hknown)
      rwa [World.roots, hv.fades.pins, hv.fades.host]
    exact (World.fades_repair hv.fades.sound (hs.of_fades hv.fades) u).reaches
      fun n hn hknown => World.reaches_of_mem_keptFor hunit hn hknown
  obtain ⟨hstart, hpass⟩ := World.ancestors_repairEach (P := World.Wanes us w)
    (f := fun u ts => (s.successions w u).foldl w.renew ts)
    ⟨.refl _ hw, .refl w, fun _ => rfl⟩ (fun u hu v hv => hv.repair hs hfits hu) hback
    (fun u hu v hv h => by
      rw [World.ancestors_repair hv.fades.sound (hs.of_fades hv.fades) u h,
        successions_congr hv.form (hv.own u), World.renew_congr hv.form])
    hr
  exact ⟨hstart, hpass.trans List.foldl_flatMap.symm⟩

end Session

end HotReload
