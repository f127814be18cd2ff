import HotReload.Proofs.Reload.Course
import HotReload.Proofs.World.Reachability

/-!
# What a reload pins

A reload holds on to its registry and to what its enumerator holds. It pins much more: its targets,
what they exported, the holders of bindings and what they hold, and the objects of stale types. In a
sound world all of this is reached from the registry anyway, so nothing is alive during a reload for
the sake of the session alone (`Reloader.Course.reaches_opened_iff`).

In particular, the objects that a session records are those that the enumerator finds in the world
as it was, with no more held than the reloader holds (`Reloader.Course.mem_objectsOf`).
-/

namespace HotReload

variable {σ : Type}

namespace Snapshot

/-- What a snapshot holds on to are targets and their exports. -/
theorem mem_tables_addAll {w : World σ} {us : List UnitId} {s s' : Snapshot}
    (h : addAll w us s = .ok s') {t : UnitId × Table Value} (ht : t ∈ s'.tables.values) :
    t ∈ s.tables.values ∨ (t.1 ∈ us ∧ t.2 = w.exports t.1) := by
  induction us generalizing s with
  | nil =>
    cases h
    exact .inl ht
  | cons u us ih =>
    obtain ⟨-, hrest⟩ := addAll_cons_eq_ok.mp h
    rcases ih hrest with hold | ⟨hmem, heq⟩
    · -- the table was there when the rest was added: it is the one of `u`, or older
      obtain ⟨e, he, rfl⟩ := List.mem_map.mp hold
      rcases Table.mem_entries_insert he with he | rfl
      · exact .inl (List.mem_map_of_mem he)
      · exact .inr ⟨List.mem_cons_self, rfl⟩
    · exact .inr ⟨List.mem_cons_of_mem u hmem, heq⟩

theorem mem_tables {w : World σ} {us : List UnitId} {s : Snapshot} (h : capture w us = .ok s)
    {t : UnitId × Table Value} (ht : t ∈ s.tables.values) : t.1 ∈ us ∧ t.2 = w.exports t.1 := by
  rcases mem_tables_addAll h ht with hnone | ht
  · cases hnone
  · exact ht

end Snapshot

variable [Host σ]

namespace World

/-! ### Reached from a registry -/

/-- What is reached depends on cells, pins and the roots of the host. -/
theorem reaches_congr {w w' : World σ} (hunits : w'.units = w.units) (htypes : w'.types = w.types)
    (hobjects : w'.objects = w.objects) (hregistries : w'.registries = w.registries)
    (hpins : ∀ n, w'.pins.contains n = true ↔ w.pins.contains n = true)
    (hroots : Host.roots w'.host = Host.roots w.host) (n : Node) : w'.Reaches n ↔ w.Reaches n := by
  have hknows : w'.knows = w.knows := by
    funext n
    cases n <;> simp only [knows, hunits, htypes, hobjects, hregistries]
  have hsuccessors : w'.successors = w.successors := by
    funext n
    cases n <;> simp only [successors, unit, type, object, registry, hunits, htypes, hobjects,
      hregistries]
  have hmem : ∀ n, n ∈ w'.roots ↔ n ∈ w.roots := by
    intro n
    rw [mem_roots, mem_roots, hpins, hroots]
  exact reaches_iff_of_edges hmem hknows (fun m k => by rw [hsuccessors]) n

omit [Host σ] in
/-- A registry with units has a cell. -/
theorem knows_registry {w : World σ} {r : RegistryId} {u : UnitId} (hu : u ∈ w.unitsOf r) :
    w.knows (.registry r) = true := by
  rw [knows, decide_eq_true_eq]
  refine Nat.lt_of_not_le fun hr => ?_
  have hdefault : w.registry r = default := w.registries.get_of_size_le hr
  rw [unitsOf, hdefault] at hu
  cases hu

theorem reaches_of_unitsOf {w : World σ} (hw : w.Sound) {r : RegistryId}
    (hpinned : w.pins.contains (.registry r) = true) {u : UnitId} (hu : u ∈ w.unitsOf r) :
    w.Reaches (.unit u) := by
  obtain ⟨name, hname⟩ := mem_unitsOf.mp hu
  have hlt := (hw.registered r name u hname).1
  -- the pinned registry holds its units
  have hregistry : w.Reaches (.registry r) :=
    .root (mem_roots.mpr (.inl hpinned)) (knows_registry hu)
  exact .step hregistry (List.mem_map_of_mem hu) (decide_eq_true hlt)

end World

namespace Reloader

/-- The units of its registry are reached from what a reloader holds. -/
theorem reaches_of_loaded {r : Reloader} {w : World σ} (hw : w.Sound) {u : UnitId}
    (hu : u ∈ w.unitsOf r.registry) : (w.pin r.nodes).Reaches (.unit u) := by
  have hsound : (w.pin r.nodes).Sound :=
    hw.of_stores rfl rfl rfl (Nat.le_refl _) (Nat.le_refl _)
  have hregistry : (w.pin r.nodes).pins.contains (.registry r.registry) = true :=
    (w.contains_pins_pin _ _).mpr (.inl List.mem_cons_self)
  exact World.reaches_of_unitsOf hsound hregistry hu

/-- The objects that the enumerator of a reloader finds. -/
def enumerated (r : Reloader) (w : World σ) : List ObjectId :=
  (r.enumerator.objects (w.pin r.nodes)).1

namespace Course

variable {recompile : Recompiler σ} {r : Reloader} {names : List String} {w : World σ}
  {c : Course σ}

/-- Everything a snapshot and the references keep alive is reached from the registry. -/
theorem reaches_of_scanned (hw : w.Sound) (h : r.course? recompile names w = some c) {n : Node}
    (hn : n ∈ c.session.snapshot.nodes ++ c.session.references.nodes) (hknows : w.knows n = true) :
    (w.pin r.nodes).Reaches n := by
  have hopened := opened_session h
  rcases List.mem_append.mp hn with hn | hn
  · -- a target or something that it exported
    obtain ⟨t, ht, hnode⟩ := List.mem_flatMap.mp hn
    obtain ⟨hmem, heq⟩ := Snapshot.mem_tables hopened.capture_eq ht
    have hunit : (w.pin r.nodes).Reaches (.unit t.1) :=
      reaches_of_loaded hw (mem_unitsOf_of_target hw h hmem)
    rcases List.mem_cons.mp hnode with rfl | hnode
    · exact hunit
    · obtain ⟨v, hv, hnv⟩ := List.mem_flatMap.mp hnode
      obtain ⟨e, he, rfl⟩ := List.mem_map.mp hv
      rw [heq] at he
      have hexport : w.export? t.1 e.1 = some e.2 := (Table.get?_eq_some_iff _ _ _).mpr he
      exact World.reaches_of_export (w := w.pin r.nodes) hunit hexport hnv hknows
  · -- the holder of a binding or what its slot holds
    obtain ⟨b, hb, hnode⟩ := List.mem_flatMap.mp hn
    have hstale := (hopened.mem_bindings_iff.mp hb).1
    have hholder : (w.pin r.nodes).Reaches (.unit b.holder) := reaches_of_loaded hw hstale.loaded
    rcases List.mem_cons.mp hnode with rfl | hnode
    · exact hholder
    · exact World.reaches_of_export (w := w.pin r.nodes) hholder hstale.held hnode hknows

/-- While objects are looked for, no more is alive than what the reloader holds on to. -/
theorem reaches_scanned_iff (hw : w.Sound) (h : r.course? recompile names w = some c) (n : Node) :
    ((r.entered w).pin (c.session.snapshot.nodes ++ c.session.references.nodes)).Reaches n ↔
      (w.pin r.nodes).Reaches n := by
  have hpin := World.reaches_pin_iff (w := w.pin r.nodes)
    (fun n hn hknows => reaches_of_scanned hw h hn hknows) n
  refine Iff.trans ?_ hpin
  refine World.reaches_congr ?_ ?_ ?_ ?_ ?_ ?_ n
  case refine_5 => exact fun _ => Iff.rfl
  all_goals rfl

/-- What the session found is what the enumerator finds when it has to itself what the reloader
holds. -/
theorem found_eq (hw : w.Sound) (h : r.course? recompile names w = some c) :
    c.session.found (r.entered w) r.enumerator = r.enumerated w := by
  unfold Session.found enumerated
  cases r.enumerator with
  | listed os => rfl
  | heapOf r' =>
    -- the heap is the same, and what is alive in it too
    exact World.livingIn_congr rfl fun o => reaches_scanned_iff hw h _

/-- **The same objects are found again** by a second call, if the same is alive. The first one may
have swept the heap. -/
theorem enumerated_eq (hw : w.Sound) (h : r.course? recompile names w = some c) {w' : World σ}
    (hheaps : w'.heaps = c.opened.heaps) (hregistries : w'.registries = w.registries)
    (hreaches : ∀ n, (w'.pin r.nodes).Reaches n ↔ (w.pin r.nodes).Reaches n) :
    r.enumerated w' = r.enumerated w := by
  obtain ⟨v, hstart, hopened⟩ := session_started h
  -- the first enumeration has swept the heap, so the second finds it swept
  have hswept := Session.heaps_of_start hstart
  have hkept : w'.heaps = v.heaps := by
    rw [hheaps, hopened]
    rfl
  have hfound := found_eq hw h
  unfold Session.found enumerated at hfound
  unfold enumerated
  cases he : r.enumerator with
  | listed os => rfl
  | heapOf r' =>
    rw [he] at hswept hfound
    rw [← hfound]
    show (w'.pin r.nodes).livingIn (w'.registry r').heap = World.livingIn _ (w.registry r').heap
    have hregistry : w'.registry r' = w.registry r' := by
      rw [World.registry, hregistries, World.registry]
    rw [hregistry]
    refine World.livingIn_of_swept ?_ fun o => (hreaches _).trans (reaches_scanned_iff hw h _).symm
    show w'.heaps.get _ = _
    rw [hkept, hswept]
    rfl

/-- **What a session records of objects.** -/
theorem objects_eq (hw : w.Sound) (h : r.course? recompile names w = some c) :
    c.session.objects = Session.staleObjects w c.session.snapshot (r.enumerated w) := by
  obtain ⟨v, hstart, -⟩ := session_started h
  obtain ⟨-, -, -, hobjects, -⟩ := Session.opened_of_start hstart
  rw [hobjects, found_eq hw h]
  rfl

theorem mem_objects (hw : w.Sound) (h : r.course? recompile names w = some c) {o : ObjectId}
    {t : TypeId} :
    (⟨o, t⟩ : StaleObject) ∈ c.session.objects ↔
      o ∈ r.enumerated w ∧ (w.object o).type = t ∧ c.session.snapshot.isStale (.type t) = true := by
  rw [objects_eq hw h, Session.mem_staleObjects]
  exact and_congr_right fun _ => and_congr_left fun _ => eq_comm

theorem mem_objectsOf (hw : w.Sound) (h : r.course? recompile names w = some c) {o : ObjectId}
    {t : TypeId} :
    o ∈ c.session.objectsOf t ↔
      o ∈ r.enumerated w ∧ (w.object o).type = t ∧ c.session.snapshot.isStale (.type t) = true := by
  rw [← mem_objects hw h, Session.mem_objectsOf]

theorem reaches_of_enumerated {o : ObjectId} (ho : o ∈ r.enumerated w)
    (hknows : w.knows (.object o) = true) : (w.pin r.nodes).Reaches (.object o) := by
  unfold enumerated at ho
  cases he : r.enumerator with
  | heapOf r' =>
    rw [he] at ho
    change o ∈ World.livingIn _ _ at ho
    exact (World.mem_livingIn.mp ho).2
  | listed os =>
    rw [he] at ho
    -- listed objects are held by their list
    have hmem : .object o ∈ r.nodes := by
      rw [nodes, he]
      exact List.mem_cons_of_mem _ (List.mem_map_of_mem ho)
    exact .root (World.mem_roots.mpr (.inl ((w.contains_pins_pin _ _).mpr (.inl hmem)))) hknows

/-- Up to its opening a call pins what its reloader holds and what its session holds. -/
theorem opened_eq_pin (h : r.course? recompile names w = some c) :
    ∃ heaps guards, c.opened =
      { (w.pin r.nodes).pin (c.targets.map .unit ++ c.session.nodes) with
        heaps := heaps, guards := guards } := by
  obtain ⟨v, hstart, hopened⟩ := session_started h
  obtain ⟨-, -, -, -, heaps, rfl⟩ := Session.opened_of_start hstart
  exact ⟨heaps, _, hopened⟩

/-- **A session keeps nothing alive** that its reloader does not. -/
theorem reaches_opened_iff (hw : w.Sound) (h : r.course? recompile names w = some c) (n : Node) :
    c.opened.Reaches n ↔ (w.pin r.nodes).Reaches n := by
  obtain ⟨v, hstart, hopened⟩ := session_started h
  obtain ⟨-, -, -, -, heaps, rfl⟩ := Session.opened_of_start hstart
  -- the pins of the session are set on top of those of the reloader, which reach them
  have hheld : ∀ m ∈ c.targets.map .unit ++ c.session.nodes, (w.pin r.nodes).knows m = true →
      (w.pin r.nodes).Reaches m := by
    intro m hm hknows
    rcases List.mem_append.mp hm with hm | hm
    · obtain ⟨u, hu, rfl⟩ := List.mem_map.mp hm
      exact reaches_of_loaded hw (mem_unitsOf_of_target hw h hu)
    · rcases List.mem_append.mp hm with hm | hm
      · exact reaches_of_scanned hw h hm hknows
      · obtain ⟨e, he, rfl⟩ := List.mem_map.mp hm
        exact reaches_of_enumerated ((mem_objects hw h).mp he).1 hknows
  have hpin := World.reaches_pin_iff hheld n
  refine Iff.trans ?_ hpin
  rw [hopened]
  refine World.reaches_congr ?_ ?_ ?_ ?_ ?_ ?_ n
  case refine_5 => exact fun _ => Iff.rfl
  all_goals rfl

end Course

end Reloader

end HotReload
