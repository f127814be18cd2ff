import HotReload.Proofs.Reload.AncestorLists
import HotReload.Proofs.Reload.Pinned
import HotReload.Proofs.World.Hierarchy

/-!
# Cycles in the type hierarchy

A repair puts new types in the place of old ones, in the lists of all types that live. It does not
look where the new types derive from. So a hierarchy that is acyclic when the repair starts need not
be so when it is over: if `D` derives from `C`, and the new `C` is made to derive from `D`, then `D`
is repaired to derive from the new `C` (`Reloader.Course.cycle_closed`).

Which lists there will be can be said before the repair (`World.WillList`). The hierarchy stays
acyclic exactly if no type is about to list a type that it does not list yet and that is going to
derive from it (`World.Renewed.acyclic_iff`). In particular it does if the names of the living types
form no cycle, since a repair keeps the names in a list (`World.Renewed.acyclic_of_names`).
-/

namespace HotReload

variable {σ : Type}

/-- A path goes by one relation, or it has a step that does not. -/
theorem path_or_step {α : Type} {R S : α → α → Prop} {a b : α} (h : Relation.TransGen R a b) :
    Relation.TransGen S a b ∨ ∃ x y, Relation.ReflTransGen R a x ∧ R x y ∧ ¬ S x y ∧
      Relation.ReflTransGen R y b := by
  -- either all steps so far are steps of the other relation, or one is not and is kept
  induction h with
  | @single b hb =>
    by_cases hS : S a b
    · exact .inl (.single hS)
    · exact .inr ⟨a, b, .refl, hb, hS, .refl⟩
  | @tail b c hab hbc ih =>
    rcases ih with hpath | ⟨x, y, hax, hxy, hS, hyb⟩
    · by_cases hS : S b c
      · exact .inl (hpath.tail hS)
      · exact .inr ⟨b, c, hab.to_reflTransGen, hbc, hS, .refl⟩
    · exact .inr ⟨x, y, hax, hxy, hS, hyb.tail hbc⟩

namespace World

/-- **The list to come.** Type `s` is going to list `t`: as an heir, or because it lists it now and
the entry is not renewed. -/
def WillList (w w₁ : World σ) (us : List UnitId) (s t : TypeId) : Prop :=
  ∃ a ∈ w₁.ancestors s, w.Renews w₁ us (w₁.ancestors s) a t ∨
    (a = t ∧ ¬ ∃ new, w.Renews w₁ us (w₁.ancestors s) a new)

/-- True if a living type of the name `p` lists a type of the name `q`. -/
def ListsName [Host σ] (w : World σ) (p q : QualifiedName) : Prop :=
  ∃ s t, w.Reaches (.type s) ∧ w.Lists s t ∧ w.typeName s = p ∧ w.typeName t = q

namespace Renewed

variable [Host σ] {w w₁ w₂ : World σ} {us : List UnitId} {ps : List (TypeId × TypeId)}

/-- **The lists to come** are those of the living types in the end. -/
theorem lists_iff (h : w.Renewed w₁ w₂ us ps) {s t : TypeId} (hs : w₂.Reaches (.type s)) :
    w₂.Lists s t ↔ w.WillList w₁ us s t := by
  rw [Lists, h.ancestors hs, List.mem_map]
  constructor
  · rintro ⟨a, ha, hat⟩
    refine ⟨a, ha, ?_⟩
    -- an entry is renewed or stays what it is
    rcases renewal_cases w₁ ps (w₁.ancestors s) a with ⟨p, hp, hold, hname, hnew⟩ | ⟨hnone, hsame⟩
    · exact .inl (h.renews_iff.mpr ⟨p, hp, hold, hname, hnew.symm.trans hat⟩)
    · refine .inr ⟨hsame.symm.trans hat, ?_⟩
      rintro ⟨new, hnew⟩
      obtain ⟨p, hp, hold, hname, -⟩ := h.renews_iff.mp hnew
      exact hnone p hp hold hname
  · rintro ⟨a, ha, hnew | ⟨hat, hnone⟩⟩
    · obtain ⟨p, hp, hold, hname, hnew⟩ := h.renews_iff.mp hnew
      exact ⟨a, ha, (renewal_of_mem h.coherent hp hold hname).trans hnew⟩
    · refine ⟨a, ha, (renewal_of_forall fun p hp hold hname => ?_).trans hat⟩
      exact hnone ⟨p.2, h.renews_iff.mpr ⟨p, hp, hold, hname, rfl⟩⟩

theorem path_iff (h : w.Renewed w₁ w₂ us ps) {s t : TypeId} (hs : w₂.Reaches (.type s)) :
    Relation.ReflTransGen w₂.Lists s t ↔ Relation.ReflTransGen (w.WillList w₁ us) s t := by
  constructor
  · intro hpath
    induction hpath with
    | refl => exact .refl
    | tail hpath hstep ih => exact ih.tail ((h.lists_iff (h.sound.reaches_of_path hs hpath)).mp hstep)
  · intro hpath
    -- along a path to come all types are alive
    induction hpath with
    | refl => exact .refl
    | tail _ hstep ih => exact ih.tail ((h.lists_iff (h.sound.reaches_of_path hs ih)).mpr hstep)

/-- **Cycles are closed by new entries.** If there is no cycle in `w₁`, then there is none in the
end exactly if no living type gets an ancestor that derives from it in the end. -/
theorem acyclic_iff (h : w.Renewed w₁ w₂ us ps) (hacyclic : w₁.Acyclic) :
    w₂.Acyclic ↔ ∀ t new, w₂.Reaches (.type t) → w.WillList w₁ us t new → ¬ w₁.Lists t new →
      ¬ Relation.ReflTransGen (w.WillList w₁ us) new t := by
  constructor
  · intro hend t new ht hnew _ hback
    have hstep : w₂.Lists t new := (h.lists_iff ht).mpr hnew
    have hpath : Relation.ReflTransGen w₂.Lists new t :=
      (h.path_iff (h.sound.reaches_of_lists ht hstep)).mpr hback
    exact hend t ht (.head' hstep hpath)
  · intro hsafe t ht hcycle
    -- a cycle in the end was there before, or it goes through a new entry
    rcases path_or_step (S := w₁.Lists) hcycle with hbefore | ⟨x, y, htx, hxy, hnew, hyt⟩
    · exact hacyclic t (h.living ht) hbefore
    · have hx : w₂.Reaches (.type x) := h.sound.reaches_of_path ht htx
      have hback : Relation.ReflTransGen (w.WillList w₁ us) y x :=
        (h.path_iff (h.sound.reaches_of_lists hx hxy)).mp (hyt.trans htx)
      exact hsafe x y hx ((h.lists_iff hx).mp hxy) hnew hback

/-- **Names decide.** If no name derives from itself in `w₁`, then there is no cycle in the end. -/
theorem acyclic_of_names (h : w.Renewed w₁ w₂ us ps)
    (hnames : ∀ q, ¬ Relation.TransGen w₁.ListsName q q) : w₂.Acyclic := by
  -- a renewed entry has the name of the old one, so names tell no difference
  have hstep : ∀ s t, w₂.Reaches (.type s) → w₂.Lists s t →
      w₁.ListsName (w₁.typeName s) (w₁.typeName t) := by
    intro s t hs hst
    rw [Lists, h.ancestors hs] at hst
    obtain ⟨a, ha, rfl⟩ := List.mem_map.mp hst
    exact ⟨s, a, h.living hs, ha, rfl, (typeName_renewal a).symm⟩
  intro t ht hcycle
  -- a cycle of types would be a cycle of names
  have hpath : ∀ r, Relation.TransGen w₂.Lists t r →
      Relation.TransGen w₁.ListsName (w₁.typeName t) (w₁.typeName r) := by
    intro r hr
    induction hr with
    | single hr => exact .single (hstep _ _ ht hr)
    | tail hpath hr ih =>
      exact ih.tail (hstep _ _ (h.sound.reaches_of_path ht hpath.to_reflTransGen) hr)
  exact hnames _ (hpath t hcycle)

end Renewed

end World

namespace Reloader.Course

variable [Host σ] {recompile : Recompiler σ} {r : Reloader} {names : List String} {w : World σ}
  {c : Course σ}

/-- A target is held from the start of the batch on. -/
theorem heldTarget (hlawful : recompile.Lawful) (hw : w.Sound)
    (h : r.course? recompile names w = some c) {u : UnitId} (hu : u ∈ c.targets) :
    c.session.HeldTarget (r.entered w) c.compiled u where
  target := by
    have hcapture : Snapshot.capture w c.targets = .ok c.session.snapshot :=
      (opened_session h).capture_eq
    have htable := Snapshot.exports?_eq_some hcapture (nodup_names_targets hw h) hu
    obtain ⟨t, ht, -⟩ := Option.map_eq_some_iff.mp htable
    -- the table under the name of `u` is that of a target of this name, which is `u`
    obtain ⟨hname, -⟩ := Snapshot.get?_tables_addAll hcapture (fun _ _ hnone => by cases hnone) _ t ht
    have hvalue : t ∈ c.session.snapshot.tables.values :=
      List.mem_map_of_mem ((Table.get?_eq_some_iff _ _ _).mp ht)
    obtain ⟨htarget, -⟩ := Snapshot.mem_tables hcapture hvalue
    rw [← target_eq_of_name hw h htarget hu hname]
    exact List.mem_map_of_mem hvalue
  known := decide_eq_true (target_registered hw h hu).1
  held := by
    rw [World.mem_roots, (compiled_lawful hlawful hw h).2.2]
    exact .inl ((pins_opened h).2 u hu)

/-- **The repair of a course** renews ancestor lists. -/
theorem exists_renewed (hlawful : recompile.Lawful) (hw : w.Sound) (he : r.enumerator.Finds w)
    (h : r.course? recompile names w = some c) :
    ∃ ps, w.Renewed c.compiled c.repaired.2.2 c.batch.reloaded ps := by
  obtain ⟨v, hstart, -⟩ := session_started h
  have hfinds : r.enumerator.Finds (r.entered w) := by
    cases hr : r.enumerator with
    | heapOf _ => trivial
    | listed os =>
      rw [hr] at he
      exact he
  obtain ⟨ps, hps⟩ := Session.exists_renewed c.journal hstart (sound_entered hw r) hfinds
    ((later_entered w r).trans (later_compiled hlawful hw h)) (compiled_lawful hlawful hw h).1
    (nodup_names_reloaded hlawful hw h)
    fun u hu => heldTarget hlawful hw h ((mem_reloaded h).2 u hu)
  exact ⟨ps, hps.sound, hps.coherent, hps.renews_iff, hps.living, hps.ancestors⟩

/-- If the names of the living types form no cycle when the repair starts, then the hierarchy is
acyclic when it is over. -/
theorem acyclic_repaired_of_names (hlawful : recompile.Lawful) (hw : w.Sound)
    (he : r.enumerator.Finds w) (h : r.course? recompile names w = some c)
    (hnames : ∀ q, ¬ Relation.TransGen c.compiled.ListsName q q) : c.repaired.2.2.Acyclic := by
  obtain ⟨ps, hrenewed⟩ := exists_renewed hlawful hw he h
  exact hrenewed.acyclic_of_names hnames

/-- **When the hierarchy stays acyclic.** Let it be acyclic when the repair starts. It is acyclic
when the repair is over exactly if no living type gets an ancestor that it did not list before and
that, by the lists to come, is the type itself or derives from it. If it is acyclic, then the tests
for subtypes and for instances come to an end. -/
theorem acyclic_repaired_iff (hlawful : recompile.Lawful) (hw : w.Sound)
    (he : r.enumerator.Finds w) (h : r.course? recompile names w = some c)
    (hacyclic : c.compiled.Acyclic) :
    (c.repaired.2.2.Acyclic ↔ ∀ t new, c.repaired.2.2.Reaches (.type t) →
      w.WillList c.compiled c.batch.reloaded t new → ¬ c.compiled.Lists t new →
      ¬ Relation.ReflTransGen (w.WillList c.compiled c.batch.reloaded) new t) ∧
    (c.repaired.2.2.Acyclic →
      (∀ s t, c.repaired.2.2.Reaches (.type s) →
        ∃ depth, c.repaired.2.2.search? t depth s = some (c.repaired.2.2.isSubtype s t)) ∧
      ∀ o t, c.repaired.2.2.Reaches (.object o) →
        ∃ depth, c.repaired.2.2.search? t depth (c.repaired.2.2.object o).type =
          some (c.repaired.2.2.isInstance o t)) := by
  obtain ⟨ps, hrenewed⟩ := exists_renewed hlawful hw he h
  refine ⟨hrenewed.acyclic_iff hacyclic, fun hend => ⟨fun s t hs => ?_, fun o t ho => ?_⟩⟩
  · exact hend.search?_eq_some hrenewed.sound hs t
  · exact hend.search?_type_eq_some hrenewed.sound ho t

open Scenario.TwoUnits

/-- The fixture with a type `C` of `b`, and with types `E` and `D` of `a`, of which `D` derives from
`C`. -/
def derived : World Fixture :=
  let (base, w) := bare.declareType ⟨"b", "C", ⟨0⟩, .dynamic, [], [], .empty⟩ []
  let (root, w) := w.declareType ⟨"a", "E", ⟨1⟩, .dynamic, [], [], .empty⟩ []
  let (d, w) := w.declareType ⟨"a", "D", ⟨1⟩, .dynamic, [], [], .empty⟩ [base]
  let w := w.setExport ⟨0⟩ "C" (.type base)
  (w.setExport ⟨1⟩ "E" (.type root)).setExport ⟨1⟩ "D" (.type d)

/-- The course of a reload in which the new `C` derives from `E`. -/
def rebased : Course Fixture :=
  (reloader.course? (.extending "C" "a" "E") ["b"] derived).get (by decide +kernel)

/-- The course of a reload in which the new `C` derives from `D`. -/
def inverted : Course Fixture :=
  (reloader.course? (.extending "C" "a" "D") ["b"] derived).get (by decide +kernel)

/-- With `E` above the new `C` the hierarchy stays acyclic: `D` derives from `E` then. -/
theorem acyclic_repaired_rebased :
    rebased.repaired.2.2.Acyclic ∧
      ¬ Relation.ReflTransGen (derived.WillList rebased.compiled rebased.batch.reloaded) ⟨3⟩ ⟨2⟩ ∧
      ∃ depth, rebased.repaired.2.2.search? ⟨1⟩ depth ⟨2⟩ = some true := by
  have hcourse : reloader.course? (.extending "C" "a" "E") ["b"] derived = some rebased :=
    (Option.some_get _).symm
  have hsound : derived.Sound := by decide +kernel
  have hcompiled : rebased.compiled.Acyclic :=
    World.acyclic_of_height (fun t => t.index) (by decide +kernel)
  have hfinds : reloader.enumerator.Finds derived := trivial
  obtain ⟨hiff, hends⟩ := acyclic_repaired_iff (Recompiler.lawful_extending "C" "a" "E") hsound
    hfinds hcourse hcompiled
  -- `D` is above the new type of `C`, which was made after it
  have hacyclic : rebased.repaired.2.2.Acyclic :=
    World.acyclic_of_height (fun t => if t = ⟨2⟩ then 4 else t.index) (by decide +kernel)
  have hliving : rebased.repaired.2.2.Reaches (.type ⟨2⟩) := by
    rw [← World.isAlive_iff]
    decide +kernel
  have hlist : derived.WillList rebased.compiled rebased.batch.reloaded ⟨2⟩ ⟨3⟩ := by
    refine ⟨⟨0⟩, ?_, .inl ⟨⟨0⟩, ?_, ?_, ?_, ⟨0⟩, ?_, ⟨"C", ?_⟩, ?_, ?_⟩⟩
    all_goals decide +kernel
  have hnew : ⟨3⟩ ∉ rebased.compiled.ancestors ⟨2⟩ := by decide +kernel
  have hsubtype : rebased.repaired.2.2.isSubtype ⟨2⟩ ⟨1⟩ = true := by decide +kernel
  obtain ⟨depth, hdepth⟩ := (hends hacyclic).1 ⟨2⟩ ⟨1⟩ hliving
  exact ⟨hacyclic, hiff.mp hacyclic ⟨2⟩ ⟨3⟩ hliving hlist hnew, depth, hsubtype ▸ hdepth⟩

/-- **A cycle is closed.** With `D` above the new `C` the hierarchy is acyclic when the repair
starts. In the end the new `C` and `D` derive from each other, and to ask if `D` derives from `E` is
to ask forever. -/
theorem cycle_closed :
    ∃ c, reloader.course? (.extending "C" "a" "D") ["b"] derived = some c ∧ derived.Sound ∧
      (.extending "C" "a" "D" : Recompiler Fixture).Lawful ∧ c.compiled.Acyclic ∧
      ¬ c.repaired.2.2.Acyclic ∧ c.repaired.2.2.Reaches (.type ⟨1⟩) ∧
      c.repaired.2.2.Reaches (.type ⟨2⟩) ∧
      ∀ depth, c.repaired.2.2.search? ⟨1⟩ depth ⟨2⟩ = none := by
  have hliving : ∀ t ∈ [⟨1⟩, ⟨2⟩], inverted.repaired.2.2.Reaches (.type t) := by
    intro t ht
    rw [← World.isAlive_iff]
    revert t
    decide +kernel
  have hd : inverted.repaired.2.2.ancestors ⟨2⟩ = [⟨3⟩] := by decide +kernel
  have hc : inverted.repaired.2.2.ancestors ⟨3⟩ = [⟨2⟩] := by decide +kernel
  have hcycle : Relation.TransGen inverted.repaired.2.2.Lists ⟨2⟩ ⟨2⟩ := by
    refine .head (b := ⟨3⟩) ?_ (.single ?_)
    · rw [World.Lists, hd]
      exact List.mem_singleton_self _
    · rw [World.Lists, hc]
      exact List.mem_singleton_self _
  -- nothing but the two types is reached from `D`
  have hreached : ∀ t, Relation.ReflTransGen inverted.repaired.2.2.Lists ⟨2⟩ t →
      t = ⟨2⟩ ∨ t = ⟨3⟩ := by
    intro t ht
    induction ht with
    | refl => exact .inl rfl
    | tail _ hstep ih =>
      rcases ih with rfl | rfl
      · rw [World.Lists, hd] at hstep
        exact .inr (List.mem_singleton.mp hstep)
      · rw [World.Lists, hc] at hstep
        exact .inl (List.mem_singleton.mp hstep)
  -- so the search for another type never comes to an end
  have hnot : ¬ Relation.ReflTransGen inverted.repaired.2.2.Lists ⟨2⟩ ⟨1⟩ := by
    intro h
    rcases hreached ⟨1⟩ h with h | h <;> cases h
  refine ⟨inverted, (Option.some_get _).symm, ?_, Recompiler.lawful_extending "C" "a" "D", ?_, ?_,
    hliving ⟨1⟩ ?_, hliving ⟨2⟩ ?_, World.search?_eq_none_of_cycle hcycle hnot⟩
  · decide +kernel
  · exact World.acyclic_of_height (fun t => t.index) (by decide +kernel)
  · exact fun hacyclic => hacyclic ⟨2⟩ (hliving ⟨2⟩ (by decide)) hcycle
  · exact List.mem_cons_self
  · exact List.mem_cons_of_mem _ (List.mem_singleton_self _)

end Reloader.Course

end HotReload
