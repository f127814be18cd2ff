import HotReload.Proofs.World.Reachability
import HotReload.Scenario.TwoUnits

/-!
# What a heap remembers

A heap is asked for the living objects among those that have been registered in it, and it may
forget the others whenever it likes. `World.HeapStep` is what can happen to a world in which a heap
is in use: an object is registered, which may or may not sweep the heap first; the heap is swept, on
its own or on the way to its living objects; or something else happens, in the course of which
objects are made and die. `World.HeapRun` is any number of such steps from an empty heap on. It
keeps account of the registrations and of the entries that the last sweep has left.

Along every run the heap is in order (`World.Tracks`). It has no entry that was not registered, and
an entry that is missing is dead, so the living entries are the living registrations. A sweep finds
out where the next one is due, and an entry is only added below that, which bounds the length by
what the last sweep has left, however many objects have died since
(`World.HeapRun.lossless_and_bounded`).
-/

namespace HotReload

variable {σ : Type}

namespace Heap

/-! ### Sweeping -/

/-- There is room for one more as long as the threshold has not been met. -/
theorem isDue_eq_false_iff (h : Heap) : h.isDue = false ↔ h.tracked < max h.sweepAt minSweep := by
  rw [isDue, decide_eq_false_iff_not, Nat.not_le]

/-- After a sweep a heap tracks the living. -/
theorem tracked_sweep (live : ObjectId → Bool) (h : Heap) :
    (h.sweep live).tracked = (h.living live).length := by
  rw [← length_entries, entries_sweep]

/-- The next sweep is due at twice what a sweep leaves. -/
theorem sweepAt_sweep (live : ObjectId → Bool) (h : Heap) :
    (h.sweep live).sweepAt = max (2 * (h.sweep live).tracked) minSweep := rfl

/-- And no further sweep is due. -/
theorem isDue_sweep (live : ObjectId → Bool) (h : Heap) : (h.sweep live).isDue = false := by
  rw [isDue_eq_false_iff, sweepAt_sweep]
  -- the threshold is at least the minimum, so more than nothing
  have hmin : 0 < minSweep := by decide
  omega

/-- A sweep drops the dead entries. -/
theorem deadCount_eq_countP (live : ObjectId → Bool) (h : Heap) :
    h.deadCount live = h.entries.countP fun o => !live o := by
  have hall := List.length_eq_countP_add_countP live (l := h.entries)
  rw [length_entries, List.countP_eq_length_filter (p := live)] at hall
  have hnot : (fun o => decide ¬live o = true) = fun o => !live o := by
    funext o
    simp
  rw [hnot] at hall
  show h.tracked - (h.entries.filter live).length = _
  omega

/-- They are as many as the heap gets shorter. -/
theorem tracked_sub_tracked_sweep (live : ObjectId → Bool) (h : Heap) :
    h.tracked - (h.sweep live).tracked = h.deadCount live := by
  rw [tracked_sweep, deadCount]

end Heap

namespace World

variable [Host σ]

/-! ### Living objects -/

/-- True if the object is alive. -/
def isLiving (w : World σ) (o : ObjectId) : Bool := w.isAlive (.object o)

/-- Living is to be reached. -/
theorem isLiving_iff {w : World σ} {o : ObjectId} :
    w.isLiving o = true ↔ w.Reaches (.object o) := w.isAlive_iff _

/-- The test with which heaps are swept. -/
theorem living_contains_eq_isLiving (w : World σ) :
    (fun o => w.living.contains (.object o)) = w.isLiving := by
  funext o
  rw [Bool.eq_iff_iff, living_contains_iff, isLiving_iff]

/-- The living of a heap are those among its entries. -/
theorem livingIn_eq_filter (w : World σ) (h : HeapId) :
    w.livingIn h = (w.heap h).entries.filter w.isLiving := by
  simp only [livingIn, living_contains_eq_isLiving]
  rfl

/-- A sweep of a world is a sweep of the heap, with what lives there. -/
theorem heap_sweepHeap (w : World σ) (h : HeapId) :
    (w.sweepHeap h).heap h = (w.heap h).sweep w.isLiving := by
  rw [sweepHeap, heap_putHeap, if_pos rfl, living_contains_eq_isLiving]

/-- A heap keeps nothing alive. -/
theorem isLiving_putHeap (w : World σ) (h : HeapId) (cell : Heap) :
    (w.putHeap h cell).isLiving = w.isLiving := by
  have hreaches : ∀ n, (w.putHeap h cell).Reaches n ↔ w.Reaches n :=
    reaches_iff_of_edges (fun _ => Iff.rfl) rfl fun _ _ => Iff.rfl
  funext o
  rw [Bool.eq_iff_iff, isLiving_iff, isLiving_iff, hreaches]

/-- A sweep lets nobody die. -/
theorem isLiving_sweepHeap (w : World σ) (h : HeapId) :
    (w.sweepHeap h).isLiving = w.isLiving := w.isLiving_putHeap h _

/-- To prune is to sweep and to tell the number of dead entries. -/
theorem prune_eq (w : World σ) (h : HeapId) :
    w.prune h = ((w.heap h).deadCount w.isLiving, w.sweepHeap h) := by
  rw [prune, living_contains_eq_isLiving]

/-- After a sweep there is room for an entry. -/
theorem isDue_sweepHeap (w : World σ) (h : HeapId) : ((w.sweepHeap h).heap h).isDue = false := by
  rw [heap_sweepHeap]
  exact Heap.isDue_sweep _ _

/-- Without a sweep a registration is an entry at the end. -/
theorem register_of_not_due {w : World σ} {h : HeapId} (hdue : (w.heap h).isDue = false)
    (o : ObjectId) : w.register h o = w.putHeap h ((w.heap h).push o) := by
  rw [register, hdue]
  rfl

/-- If a sweep is due, registration sweeps and then does what it does otherwise. -/
theorem register_of_due {w : World σ} {h : HeapId} (hdue : (w.heap h).isDue = true)
    (o : ObjectId) : w.register h o = (w.sweepHeap h).register h o := by
  rw [register_of_not_due (w.isDue_sweepHeap h), register, hdue]
  rfl

/-! ### Steps and runs -/

/-- **A step** of a world in which the heap `h` is in use, with the objects that it registers and
how many entries are left if it sweeps. A count of the living objects or of the entries writes
nothing, so it is no step. -/
inductive HeapStep (h : HeapId) : World σ → List ObjectId → Option Nat → World σ → Prop where
  | register {w : World σ} {o : ObjectId} : w.knows (.object o) = true →
      (w.heap h).isDue = false → HeapStep h w [o] none (w.register h o)
  | registerSwept {w : World σ} {o : ObjectId} : w.knows (.object o) = true →
      (w.heap h).isDue = true →
      HeapStep h w [o] (some ((w.sweepHeap h).heap h).tracked) (w.register h o)
  | prune {w : World σ} :
      HeapStep h w [] (some ((w.prune h).2.heap h).tracked) (w.prune h).2
  | liveObjects {w : World σ} :
      HeapStep h w [] (some ((w.liveObjects h).2.heap h).tracked) (w.liveObjects h).2
  /-- Whatever leaves the heap alone. Objects may be made and may die, and none that is dead comes
  back to life. -/
  | elsewhere {w w' : World σ} : w'.heap h = w.heap h →
      (∀ o, w.knows (.object o) = true → w'.knows (.object o) = true) →
      (∀ o, w.knows (.object o) = true → w'.Reaches (.object o) → w.Reaches (.object o)) →
      HeapStep h w [] none w'

/-- **A run** of such steps from an empty heap on, with all that has been registered and the number
of entries that the last sweep has left, which is 0 before the first one. -/
inductive HeapRun (h : HeapId) : List ObjectId → Nat → World σ → Prop where
  | start {w : World σ} : w.heap h = .empty → HeapRun h [] 0 w
  | step {registered new : List ObjectId} {left : Nat} {swept : Option Nat} {w w' : World σ} :
      HeapRun h registered left w → HeapStep h w new swept w' →
      HeapRun h (registered ++ new) (swept.getD left) w'

/-- No step loses the entry of a living object. -/
theorem entries_sublist_of_step {h : HeapId} {w w' : World σ} {new : List ObjectId}
    {swept : Option Nat} (step : HeapStep h w new swept w') :
    ((w.heap h).entries.filter w.isLiving).Sublist (w'.heap h).entries := by
  have hsweep : ((w.sweepHeap h).heap h).entries = (w.heap h).entries.filter w.isLiving := by
    rw [heap_sweepHeap, Heap.entries_sweep, Heap.living]
  cases step with
  | register _ hdue =>
    rw [register_of_not_due hdue, heap_putHeap, if_pos rfl, Heap.entries_push]
    exact List.filter_sublist.trans (List.sublist_append_left _ _)
  | registerSwept _ hdue =>
    -- the sweep leaves the living entries, and the new one comes behind them
    rw [register_of_due hdue, register_of_not_due (w.isDue_sweepHeap h), heap_putHeap, if_pos rfl,
      Heap.entries_push, hsweep]
    exact List.sublist_append_left _ _
  | prune => exact hsweep ▸ .refl _
  | liveObjects => exact hsweep ▸ .refl _
  | elsewhere hheap =>
    rw [hheap]
    exact List.filter_sublist

/-! ### A heap in order -/

/-- **In order.** The heap has entries for registered objects only and for all that are alive, the
next sweep is due at twice what the last one has left, and until then there is room. -/
structure Tracks (h : HeapId) (registered : List ObjectId) (left : Nat) (w : World σ) : Prop where
  known : ∀ o ∈ registered, w.knows (.object o) = true
  sublist : (w.heap h).entries.Sublist registered
  living : (w.heap h).entries.filter w.isLiving = registered.filter w.isLiving
  due : max (w.heap h).sweepAt Heap.minSweep = max Heap.minSweep (2 * left)
  bounded : (w.heap h).tracked ≤ max Heap.minSweep (2 * left)

namespace Tracks

variable {h : HeapId} {registered : List ObjectId} {left : Nat} {w w' : World σ}

/-- An empty heap tracks nothing, in order. -/
theorem start (hempty : w.heap h = .empty) : Tracks h [] 0 w := by
  constructor <;> simp [hempty, Heap.empty, Heap.entries]

/-- A sweep is told by what it leaves. -/
theorem sweep (t : Tracks h registered left w) :
    Tracks h registered ((w.sweepHeap h).heap h).tracked (w.sweepHeap h) where
  known := t.known
  sublist := by
    rw [heap_sweepHeap, Heap.entries_sweep]
    exact List.filter_sublist.trans t.sublist
  living := by
    rw [isLiving_sweepHeap, heap_sweepHeap, ← t.living]
    exact Heap.living_sweep _ _
  due := by
    -- where the next sweep is due is set by what this one has left
    rw [heap_sweepHeap, Heap.sweepAt_sweep]
    omega
  bounded := by omega

/-- An entry that is added below the length at which a sweep is due. -/
theorem register (t : Tracks h registered left w) {o : ObjectId}
    (hknown : w.knows (.object o) = true) (hdue : (w.heap h).isDue = false) :
    Tracks h (registered ++ [o]) left (w.register h o) := by
  have hcell : ((w.putHeap h ((w.heap h).push o)).heap h) = (w.heap h).push o := by
    rw [heap_putHeap, if_pos rfl]
  rw [register_of_not_due hdue]
  constructor
  case known =>
    intro p hp
    rcases List.mem_append.mp hp with hp | hp
    · exact t.known p hp
    · exact List.mem_singleton.mp hp ▸ hknown
  case sublist =>
    rw [hcell, Heap.entries_push]
    exact t.sublist.append_right [o]
  case living =>
    rw [hcell, Heap.entries_push, isLiving_putHeap, List.filter_append, List.filter_append,
      t.living]
  case due =>
    rw [hcell]
    exact t.due
  case bounded =>
    -- there was room for one more, and where the sweep is due has not changed
    rw [hcell, ← t.due]
    exact Heap.length_entries_push_le o (w.heap h) hdue

/-- What happens elsewhere shows in the heap only by deaths, and those that die are the same among
the entries and among the registrations. -/
theorem elsewhere (t : Tracks h registered left w) (hheap : w'.heap h = w.heap h)
    (hknown : ∀ o, w.knows (.object o) = true → w'.knows (.object o) = true)
    (hdead : ∀ o, w.knows (.object o) = true → w'.Reaches (.object o) → w.Reaches (.object o)) :
    Tracks h registered left w' := by
  -- among registered objects one may as well pick the living ones of before first
  have hfilter : ∀ l : List ObjectId, l.Sublist registered →
      l.filter w'.isLiving = (l.filter w.isLiving).filter w'.isLiving := by
    intro l hl
    rw [List.filter_filter]
    refine List.filter_congr fun o ho => ?_
    have hlived : w'.isLiving o = true → w.isLiving o = true := fun halive =>
      isLiving_iff.mpr (hdead o (t.known o (hl.subset ho)) (isLiving_iff.mp halive))
    rw [Bool.eq_iff_iff, Bool.and_eq_true]
    exact ⟨fun halive => ⟨halive, hlived halive⟩, And.left⟩
  constructor
  case known => exact fun o ho => hknown o (t.known o ho)
  case sublist => exact hheap ▸ t.sublist
  case living =>
    calc (w'.heap h).entries.filter w'.isLiving
        = ((w.heap h).entries.filter w.isLiving).filter w'.isLiving := by
          rw [hheap, hfilter _ t.sublist]
      _ = (registered.filter w.isLiving).filter w'.isLiving := by rw [t.living]
      _ = registered.filter w'.isLiving := (hfilter _ (.refl _)).symm
  case due => exact hheap ▸ t.due
  case bounded => exact hheap ▸ t.bounded

/-- A step keeps the heap in order. -/
theorem step (t : Tracks h registered left w) {new : List ObjectId} {swept : Option Nat}
    (step : HeapStep h w new swept w') : Tracks h (registered ++ new) (swept.getD left) w' := by
  cases step with
  | register hknown hdue => exact t.register hknown hdue
  -- first the sweep, then an entry as without one
  | registerSwept hknown hdue =>
    rw [register_of_due hdue]
    exact t.sweep.register hknown (w.isDue_sweepHeap h)
  | prune =>
    rw [List.append_nil]
    exact t.sweep
  | liveObjects =>
    rw [List.append_nil]
    exact t.sweep
  | elsewhere hheap hknown hdead =>
    rw [List.append_nil]
    exact t.elsewhere hheap hknown hdead

end Tracks

namespace HeapRun

variable {h : HeapId} {registered : List ObjectId} {left : Nat} {w : World σ}

/-- A run keeps the heap in order. -/
theorem tracks (run : HeapRun h registered left w) : Tracks h registered left w := by
  induction run with
  | start hempty => exact .start hempty
  | step _ hstep ih => exact ih.step hstep

/-- **A heap loses nothing and stays bounded.** After every run of registrations, deaths and
sweeps,

* the living objects are those of the registered objects that are alive, once for each
  registration, in registration order;
* their count is the number of these;
* no step takes the entry of a living object away;
* to prune leaves the entries that are alive, and answers the number of dead entries, which is the
  number of entries that are missing afterwards;
* there are no more entries than 64 or twice as many as the last sweep has left. -/
theorem lossless_and_bounded (run : HeapRun h registered left w) :
    (w.liveObjects h).1 = registered.filter w.isLiving ∧
    (w.livingIn h).length = registered.countP w.isLiving ∧
    (∀ new swept w', HeapStep h w new swept w' →
      ((w.heap h).entries.filter w.isLiving).Sublist (w'.heap h).entries) ∧
    (((w.prune h).2.heap h).entries = (w.heap h).entries.filter w.isLiving ∧
      (w.prune h).1 = ((w.heap h).entries.countP fun o => !w.isLiving o) ∧
      (w.heap h).tracked - ((w.prune h).2.heap h).tracked = (w.prune h).1) ∧
    (w.heap h).tracked ≤ max 64 (2 * left) := by
  have hliving : w.livingIn h = registered.filter w.isLiving := by
    rw [livingIn_eq_filter, run.tracks.living]
  -- all parts are read off the heap in order
  refine ⟨hliving, ?_, fun _ _ _ step => entries_sublist_of_step step, ⟨?_, ?_, ?_⟩,
    run.tracks.bounded⟩
  · rw [hliving, List.countP_eq_length_filter]
  · rw [prune_eq, heap_sweepHeap, Heap.entries_sweep, Heap.living]
  · rw [prune_eq, Heap.deadCount_eq_countP]
  · rw [prune_eq, heap_sweepHeap, Heap.tracked_sub_tracked_sweep]

section Example

open Scenario.TwoUnits

/-- The opening world with a second heap, in which both objects of `a` have been registered, the
first of them once more after a sweep. -/
def recorded : World Fixture :=
  let (h, w) := opening.newHeap
  ((((w.register h ⟨0⟩).register h ⟨1⟩).sweepHeap h).register h ⟨0⟩)

/-- The same after `a` has let go of the second object. -/
def bereft : World Fixture := recorded.eraseExport opening.host.a "sub"

/-- The entry of the object that has died is still there, and nothing is told of it. -/
theorem lossless_and_bounded_bereft :
    HeapRun ⟨1⟩ [⟨0⟩, ⟨1⟩, ⟨0⟩] 2 bereft ∧
      (bereft.heap ⟨1⟩).entries = [⟨0⟩, ⟨1⟩, ⟨0⟩] ∧
      (bereft.liveObjects ⟨1⟩).1 = [⟨0⟩, ⟨0⟩] ∧
      (bereft.prune ⟨1⟩).1 = 1 ∧
      (bereft.heap ⟨1⟩).tracked ≤ 64 := by
  let w := opening.newHeap.2
  let full := (w.register ⟨1⟩ ⟨0⟩).register ⟨1⟩ ⟨1⟩
  have hfull : HeapRun ⟨1⟩ [⟨0⟩, ⟨1⟩] 0 full := by
    have hstart : HeapRun ⟨1⟩ [] 0 w := .start (by rfl)
    exact (hstart.step (.register (by decide +kernel) (by decide +kernel))).step
      (.register (by decide +kernel) (by decide +kernel))
  -- the prune leaves two entries, and both objects live
  have hswept : HeapRun ⟨1⟩ [⟨0⟩, ⟨1⟩] 2 (full.sweepHeap ⟨1⟩) := by
    have hleft : ((full.prune ⟨1⟩).2.heap ⟨1⟩).tracked = 2 := by decide +kernel
    have hprune := hfull.step .prune
    rw [Option.getD_some, hleft, prune_eq] at hprune
    exact hprune
  have hrecorded : HeapRun ⟨1⟩ [⟨0⟩, ⟨1⟩, ⟨0⟩] 2 recorded :=
    hswept.step (.register (by decide +kernel) (by decide +kernel))
  -- as long as the export is there every object lives
  have hdeaths : ∀ o, recorded.knows (.object o) = true → recorded.Reaches (.object o) := by
    have hall : ∀ i < recorded.objects.size, recorded.isLiving ⟨i⟩ = true := by decide +kernel
    exact fun o ho => isLiving_iff.mp (hall o.index (of_decide_eq_true ho))
  have herase : ∀ (v : World Fixture) u x, (v.eraseExport u x).heap ⟨1⟩ = v.heap ⟨1⟩ ∧
      ∀ o, (v.eraseExport u x).knows (.object o) = v.knows (.object o) :=
    fun _ _ _ => ⟨rfl, fun _ => rfl⟩
  obtain ⟨hheap, hknows⟩ := herase recorded opening.host.a "sub"
  have hrun : HeapRun ⟨1⟩ [⟨0⟩, ⟨1⟩, ⟨0⟩] 2 bereft :=
    hrecorded.step (.elsewhere hheap (fun o ho => (hknows o).trans ho) fun o ho _ => hdeaths o ho)
  obtain ⟨hlive, -, -, ⟨-, hdropped, -⟩, hbound⟩ := hrun.lossless_and_bounded
  have hfirst : bereft.isLiving ⟨0⟩ = true := by decide +kernel
  have hsecond : bereft.isLiving ⟨1⟩ = false := by decide +kernel
  have hentries : (bereft.heap ⟨1⟩).entries = [⟨0⟩, ⟨1⟩, ⟨0⟩] := by decide +kernel
  refine ⟨hrun, hentries, ?_, ?_, hbound.trans (by decide)⟩
  · rw [hlive]
    simp [hfirst, hsecond]
  · rw [hdropped, hentries]
    simp [hfirst, hsecond]

end Example

end HeapRun

end World

end HotReload
