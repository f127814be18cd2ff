import HotReload.World.Types
import HotReload.World.Objects
import HotReload.World.Units
import Mathlib.Data.List.TakeWhile

/-!
# Liveness is reachability

A node is **reached** if a path of references leads to it from the roots, through nodes that have a
cell (`World.Reaches`). The search for living nodes visits exactly the nodes that are reached
(`World.living_contains_iff`), whatever their number: it is given as many visits as there are cells,
and it visits none twice. So to be alive is to be reached (`World.isAlive_iff`).

What a write does to liveness can then be said without the search. A world whose roots and
references all lead to nodes reached in another one reaches nothing else (`World.Reaches.of_edges`);
and pinning what is reached anyway changes nothing (`World.reaches_pin_iff`).
-/

namespace HotReload

/-! ### The search -/

namespace DepthFirst

variable {α : Type} [Numbered α] {next : α → List α} {known : α → Bool}

/-- What is visited has a property that the pending nodes have and that successors inherit. -/
theorem visit_subset {P : α → Prop} (hnext : ∀ a, P a → ∀ b ∈ next a, known b = true → P b)
    (bound : Nat) {seen : NumberedSet α} {pending : List α}
    (hseen : ∀ a, seen.contains a = true → P a) (hpending : ∀ a ∈ pending, known a = true → P a) :
    ∀ a, (visit next known bound seen pending).contains a = true → P a := by
  induction bound generalizing seen pending with
  | zero => exact hseen
  | succ bound ih =>
    unfold visit
    split
    · exact hseen
    · next a rest hskip =>
      obtain ⟨hknown, -⟩ := head_skip hskip
      have hsuffix : ∀ b ∈ a :: rest, b ∈ pending := by
        intro b hb
        rw [← hskip] at hb
        exact (List.dropWhile_suffix _).subset hb
      have ha := hpending a (hsuffix a List.mem_cons_self) hknown
      -- the successors of the node that is visited become pending
      refine ih (fun b hb => ?_) fun b hb hknownb => ?_
      · rcases (seen.contains_insert a b).mp hb with rfl | hb
        · exact ha
        · exact hseen b hb
      · rcases List.mem_append.mp hb with hb | hb
        · exact hnext a ha b hb hknownb
        · exact hpending b (hsuffix b (List.mem_cons_of_mem a hb)) hknownb

/-- How many nodes of a list are still to be visited. -/
def unseen (seen : NumberedSet α) (nodes : List α) : Nat :=
  nodes.countP fun a => !seen.contains a

/-- A visit leaves fewer nodes to be visited. -/
theorem unseen_insert_lt {seen : NumberedSet α} {nodes : List α} {a : α} (ha : a ∈ nodes)
    (hseen : seen.contains a = false) : unseen (seen.insert a) nodes < unseen seen nodes := by
  induction nodes with
  | nil => cases ha
  | cons b nodes ih =>
    have hle : unseen (seen.insert a) nodes ≤ unseen seen nodes := by
      refine List.countP_mono_left fun b _ hb => ?_
      rw [Bool.not_eq_true', ← Bool.not_eq_true] at hb ⊢
      exact fun hc => hb ((seen.contains_insert a b).mpr (.inr hc))
    unfold unseen at hle ih ⊢
    rw [List.countP_cons, List.countP_cons]
    -- the visited node may occur again, so the rest has no more unseen nodes, and perhaps fewer
    by_cases hb : b = a
    · subst hb
      have hinsert : (seen.insert b).contains b = true := (seen.contains_insert b b).mpr (.inl rfl)
      simp only [hinsert, hseen, Bool.not_true, Bool.not_false, if_true]
      simp only [Bool.false_eq_true, if_false]
      omega
    · have hmem : a ∈ nodes := (List.mem_cons.mp ha).resolve_left (Ne.symm hb)
      have hsame : (seen.insert a).contains b = seen.contains b := by
        rw [Bool.eq_iff_iff, seen.contains_insert]
        exact or_iff_right hb
      rw [hsame]
      exact Nat.add_lt_add_right (ih hmem) _

/-- **The search is complete.** Given as many visits as there are known nodes, it does not stop
before all known pending nodes and all known successors of what it has visited are visited as
well. -/
theorem visit_closed {nodes : List α} (hnodes : ∀ a, known a = true → a ∈ nodes) (bound : Nat)
    {seen : NumberedSet α} {pending : List α} (hbound : unseen seen nodes ≤ bound) :
    (∀ a ∈ pending, known a = true → (visit next known bound seen pending).contains a = true) ∧
      ∀ a, (visit next known bound seen pending).contains a = true → seen.contains a = false →
        ∀ b ∈ next a, known b = true →
          (visit next known bound seen pending).contains b = true := by
  induction bound generalizing seen pending with
  | zero =>
    -- there is no known node that has not been seen
    have hall : ∀ a, known a = true → seen.contains a = true := by
      intro a ha
      have hzero := List.countP_eq_zero.mp (Nat.le_zero.mp hbound) a (hnodes a ha)
      simpa using hzero
    exact ⟨fun a _ ha => hall a ha, fun a _ _ b _ hb => hall b hb⟩
  | succ bound ih =>
    unfold visit
    split
    · next hskip =>
      -- the search has come to its end: every pending node has been seen or is unknown
      have hall := List.dropWhile_eq_nil_iff.mp hskip
      refine ⟨fun a ha hknown => ?_, fun a ha hnot => ?_⟩
      · have hpassed := hall a ha
        rw [hknown] at hpassed
        simpa using hpassed
      · rw [ha] at hnot
        cases hnot
    · next a rest hskip =>
      obtain ⟨hknown, hunseen⟩ := head_skip hskip
      -- one node less is unseen, so the visits that are left suffice
      have hfewer := unseen_insert_lt (hnodes a hknown) hunseen
      obtain ⟨hpending, hsucc⟩ :=
        @ih (seen.insert a) (next a ++ rest) (by omega)
      have hkept : ∀ b, (seen.insert a).contains b = true →
          (visit next known bound (seen.insert a) (next a ++ rest)).contains b = true :=
        fun b hb => contains_visit_of_contains bound _ _ hb
      constructor
      · intro b hb hknownb
        -- what was passed over has been seen, and the rest is still pending
        rw [← List.takeWhile_append_dropWhile (p := fun a => !known a || seen.contains a)
          (l := pending)] at hb
        rcases List.mem_append.mp hb with hb | hb
        · have hpassed := List.mem_takeWhile_imp hb
          rw [hknownb] at hpassed
          exact hkept b ((seen.contains_insert a b).mpr (.inr (by simpa using hpassed)))
        · change b ∈ skip known seen pending at hb
          rw [hskip] at hb
          rcases List.mem_cons.mp hb with rfl | hb
          · exact hkept b ((seen.contains_insert b b).mpr (.inl rfl))
          · exact hpending b (List.mem_append_right _ hb) hknownb
      · intro b hb hnot c hc hknownc
        by_cases hba : b = a
        · subst hba
          exact hpending c (List.mem_append_left _ hc) hknownc
        · -- a node that was visited later was unseen at this point too
          refine hsucc b hb ?_ c hc hknownc
          rw [← Bool.not_eq_true] at hnot ⊢
          exact fun hc' => hnot (((seen.contains_insert a b).mp hc').resolve_left hba)

end DepthFirst

/-! ### Reached nodes -/

namespace World

variable {σ : Type} [Host σ]

/-- **Reached.** A path of references leads to the node from the roots. -/
inductive Reaches (w : World σ) : Node → Prop where
  | root {n : Node} : n ∈ w.roots → w.knows n = true → Reaches w n
  | step {m n : Node} : Reaches w m → n ∈ w.successors m → w.knows n = true → Reaches w n

/-- What is reached exists. -/
theorem Reaches.knows {w : World σ} {n : Node} (h : w.Reaches n) : w.knows n = true := by
  cases h with
  | root _ hknows => exact hknows
  | step _ _ hknows => exact hknows

omit [Host σ] in
/-- The nodes that have a cell, in the order in which `World.nodeCount` counts them. -/
theorem exists_nodes (w : World σ) :
    ∃ nodes : List Node, (∀ n, w.knows n = true → n ∈ nodes) ∧ nodes.length = w.nodeCount := by
  refine ⟨(List.range w.registries.size).map (.registry ⟨·⟩) ++
    (List.range w.units.size).map (.unit ⟨·⟩) ++ (List.range w.objects.size).map (.object ⟨·⟩) ++
    (List.range w.types.size).map (.type ⟨·⟩), fun n hn => ?_, ?_⟩
  · cases n <;> simp [World.knows] at hn ⊢ <;> exact ⟨_, hn, rfl⟩
  · simp [nodeCount, Nat.add_assoc]

/-- **Living nodes are those that are reached.** -/
theorem living_contains_iff (w : World σ) (n : Node) :
    w.living.contains n = true ↔ w.Reaches n := by
  obtain ⟨nodes, hnodes, hlength⟩ := w.exists_nodes
  have hbound : DepthFirst.unseen .empty nodes ≤ w.nodeCount :=
    Nat.le_trans List.countP_le_length (Nat.le_of_eq hlength)
  obtain ⟨hroots, hsucc⟩ :
      (∀ m ∈ w.roots, w.knows m = true → w.living.contains m = true) ∧
        ∀ m, w.living.contains m = true → NumberedSet.empty.contains m = false →
          ∀ k ∈ w.successors m, w.knows k = true → w.living.contains k = true :=
    DepthFirst.visit_closed hnodes w.nodeCount hbound
  constructor
  · refine DepthFirst.visit_subset (fun a ha b hb hknown => .step ha hb hknown) _ (fun a ha => ?_)
      (fun a ha hknown => .root ha hknown) n
    rw [NumberedSet.contains_empty] at ha
    cases ha
  · intro h
    -- the induction follows the path
    induction h with
    | root hmem hknown => exact hroots _ hmem hknown
    | step _ hmem hknown ih => exact hsucc _ ih (NumberedSet.contains_empty _) _ hmem hknown

/-- The search depends on what is reached. -/
theorem living_contains_eq_of_reaches {w w' : World σ} {n : Node}
    (h : w'.Reaches n ↔ w.Reaches n) : w'.living.contains n = w.living.contains n := by
  rw [Bool.eq_iff_iff, living_contains_iff, living_contains_iff]
  exact h

/-- To be alive is to be reached. -/
theorem isAlive_iff (w : World σ) (n : Node) : w.isAlive n = true ↔ w.Reaches n := by
  rw [isAlive, Bool.or_eq_true, living_contains_iff]
  refine ⟨fun h => h.elim (fun hhand => ?_) id, .inr⟩
  -- what is at hand is reached in one step or two
  rw [isAtHand, Bool.and_eq_true, Bool.or_eq_true, List.any_eq_true] at hhand
  obtain ⟨hknows, hpin | ⟨m, hm, hedge⟩⟩ := hhand
  · exact .root (List.mem_append_left _ ((w.pins.contains_iff n).mp hpin)) hknows
  · rw [Bool.or_eq_true, Bool.and_eq_true, decide_eq_true_eq] at hedge
    obtain rfl | ⟨hknown, hsucc⟩ := hedge
    · exact .root (List.mem_append_right _ hm) hknows
    · exact .step (.root (List.mem_append_right _ hm) hknown) (List.contains_iff_mem.mp hsucc)
        hknows

/-- The subtypes that are seen are those that live. -/
theorem mem_subtypes {w : World σ} {t s : TypeId} :
    s ∈ w.subtypes t ↔ s ∈ (w.type t).subtypes ∧ w.Reaches (.type s) := by
  rw [subtypes, List.mem_filter, living_contains_iff]

/-- The living of a heap. -/
theorem mem_livingIn {w : World σ} {h : HeapId} {o : ObjectId} :
    o ∈ w.livingIn h ↔ o ∈ (w.heap h).entries ∧ w.Reaches (.object o) := by
  rw [livingIn, Heap.living, List.mem_filter, living_contains_iff]

/-- A heap has the same living objects in worlds that reach the same objects. -/
theorem livingIn_congr {w w' : World σ} {h : HeapId} (hheap : w'.heap h = w.heap h)
    (hreaches : ∀ o, w'.Reaches (.object o) ↔ w.Reaches (.object o)) :
    w'.livingIn h = w.livingIn h := by
  simp only [livingIn, hheap, living_contains_eq_of_reaches (hreaches _)]

/-- A sweep takes no living object away. -/
theorem livingIn_of_swept {w w' : World σ} {h : HeapId} (hheap : w'.heap h = (w.sweepHeap h).heap h)
    (hreaches : ∀ o, w'.Reaches (.object o) ↔ w.Reaches (.object o)) :
    w'.livingIn h = w.livingIn h := by
  have hswept : (w.sweepHeap h).heap h =
      (w.heap h).sweep fun o => w.living.contains (.object o) := by
    rw [sweepHeap, heap_putHeap, if_pos rfl]
  simp only [livingIn, hheap, hswept, living_contains_eq_of_reaches (hreaches _),
    Heap.living_sweep]

omit [Host σ] in
/-- A unit refers to what is in its slots. -/
theorem mem_successors_unit {w : World σ} {u : UnitId} {n : Node} :
    n ∈ w.successors (.unit u) ↔ ∃ x v, w.export? u x = some v ∧ n ∈ v.nodes := by
  show n ∈ (w.exports u).values.flatMap Value.nodes ↔ _
  rw [List.mem_flatMap]
  constructor
  · rintro ⟨v, hv, hn⟩
    obtain ⟨⟨x, v⟩, hentry, rfl⟩ := List.mem_map.mp hv
    exact ⟨x, v, (Table.get?_eq_some_iff _ _ _).mpr hentry, hn⟩
  · rintro ⟨x, v, hv, hn⟩
    exact ⟨v, List.mem_map_of_mem ((Table.get?_eq_some_iff _ _ _).mp hv), hn⟩

/-- Who reaches a unit reaches what it exports. -/
theorem reaches_of_export {w : World σ} {u : UnitId} (hu : w.Reaches (.unit u)) {x : String}
    {v : Value} (hv : w.export? u x = some v) {n : Node} (hn : n ∈ v.nodes)
    (hknows : w.knows n = true) : w.Reaches n :=
  .step hu (mem_successors_unit.mpr ⟨x, v, hv, hn⟩) hknows

/-! ### Worlds that reach less -/

/-- **Nothing comes to life** if all roots and references lead to what was reached before. -/
theorem Reaches.of_edges (w w' : World σ)
    (hroots : ∀ n ∈ w'.roots, w'.knows n = true → w.Reaches n)
    (hedges : ∀ m n, w.Reaches m → n ∈ w'.successors m → w'.knows n = true → w.Reaches n) {n : Node}
    (h : w'.Reaches n) : w.Reaches n := by
  induction h with
  | root hmem hknown => exact hroots _ hmem hknown
  | step _ hmem hknown ih => exact hedges _ _ ih hmem hknown

/-- Worlds with the same roots, cells and references reach the same nodes. -/
theorem reaches_iff_of_edges {w w' : World σ} (hroots : ∀ n, n ∈ w'.roots ↔ n ∈ w.roots)
    (hknows : w'.knows = w.knows) (hedges : ∀ m n, n ∈ w'.successors m ↔ n ∈ w.successors m)
    (n : Node) : w'.Reaches n ↔ w.Reaches n := by
  constructor
  · refine Reaches.of_edges w w' (fun m hm hk => ?_) fun m k hm hk hknown => ?_
    · exact .root ((hroots m).mp hm) (hknows ▸ hk)
    · exact .step hm ((hedges m k).mp hk) (hknows ▸ hknown)
  · refine Reaches.of_edges w' w (fun m hm hk => ?_) fun m k hm hk hknown => ?_
    · exact .root ((hroots m).mpr hm) (hknows.symm ▸ hk)
    · exact .step hm ((hedges m k).mpr hk) (hknows.symm ▸ hknown)

omit [Host σ] in
@[simp] theorem knows_pin (w : World σ) (nodes : List Node) : (w.pin nodes).knows = w.knows := rfl

omit [Host σ] in
@[simp] theorem successors_pin (w : World σ) (nodes : List Node) :
    (w.pin nodes).successors = w.successors := rfl

/-- Roots are pins and the roots of the host. -/
theorem mem_roots {w : World σ} {n : Node} :
    n ∈ w.roots ↔ w.pins.contains n = true ∨ n ∈ Host.roots w.host := by
  rw [roots, List.mem_append, NumberedSet.contains_iff]

/-- What is pinned lives, if it exists. -/
theorem Reaches.of_pinned {w : World σ} {n : Node} (h : w.pins.contains n = true)
    (hknows : w.knows n = true) : w.Reaches n :=
  .root (mem_roots.mpr (.inl h)) hknows

/-- Letting go of pins brings nothing to life. -/
theorem Reaches.of_pins {w : World σ} {pins : NumberedSet Node}
    (hpins : ∀ n, pins.contains n = true → w.pins.contains n = true) {n : Node}
    (h : ({ w with pins := pins } : World σ).Reaches n) : w.Reaches n := by
  refine Reaches.of_edges w { w with pins := pins } (fun n hn hknown => ?_)
    (fun m n hm hn hknown => .step hm hn hknown) h
  have hroot := mem_roots.mp hn
  exact .root (mem_roots.mpr (hroot.imp_left (hpins n))) hknown

/-- Pinning what is reached anyway changes nothing. -/
theorem reaches_pin_iff {w : World σ} {nodes : List Node}
    (hnodes : ∀ n ∈ nodes, w.knows n = true → w.Reaches n) (n : Node) :
    (w.pin nodes).Reaches n ↔ w.Reaches n := by
  constructor
  · refine Reaches.of_edges w (w.pin nodes) (fun n hn hknown => ?_)
      fun m n hm hn hknown => .step hm hn hknown
    rcases mem_roots.mp hn with hn | hn
    · rcases (w.contains_pins_pin nodes n).mp hn with hn | hn
      · -- what is pinned in addition was reached anyhow
        exact hnodes n hn hknown
      · exact .root (mem_roots.mpr (.inl hn)) hknown
    · exact .root (mem_roots.mpr (.inr hn)) hknown
  · refine Reaches.of_edges (w.pin nodes) w (fun n hn hknown => ?_)
      fun m n hm hn hknown => .step hm hn hknown
    refine .root (mem_roots.mpr ?_) hknown
    exact (mem_roots.mp hn).imp_left fun h => (w.contains_pins_pin nodes n).mpr (.inr h)

end World

end HotReload
