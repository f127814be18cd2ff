import HotReload.Proofs.Reload.History
import HotReload.Scenario.Ledgers
import Mathlib.Data.List.DropRight

/-!
# What a journal retains

A journal that has been given notes one after the other is told from the **complete entries** of
the notes (`Journal.entriesOf`), which are numbered from 0 and of which none is dropped. It numbers
as if it had kept everything, and it shows as many of the last complete entries as there is room
for. The invariant that carries this through a run (`Journal.recordAll_empty`) says what the journal
is after all notes: its counter is their number and its entries are those that a single trim of the
complete entries leaves.

Calls that read the journal may come in between. They leave it as it is, so after any sequence of
calls only the notes among them count (`Scenario.JournalStep.journal_after`). The answers to the
next calls follow (`Scenario.JournalStep.journal_shows_suffix`).
-/

namespace HotReload

/-- What a journal is given to record. -/
structure Note where
  level : Level
  unit : String
  event : Event
  deriving DecidableEq, Repr, Inhabited

namespace Journal

/-- Records notes one after the other. -/
def recordAll (j : Journal) (notes : List Note) : Journal :=
  notes.foldl (fun j n => (j.record n.level n.unit n.event).2) j

/-- **The complete entries** of some notes, numbered from 0. -/
def entriesOf (notes : List Note) : List Entry :=
  notes.mapIdx fun i n => ⟨i, n.level, n.unit, n.event⟩

/-- How many of `n` entries there is room for. -/
def room (capacity : Option Nat) (n : Nat) : Nat :=
  match capacity with
  | none => n
  | some bound => min n bound

theorem room_le (capacity : Option Nat) (n : Nat) : room capacity n ≤ n := by
  cases capacity with
  | none => exact Nat.le_refl n
  | some bound => exact Nat.min_le_left n bound

/-! ### Complete entries -/

theorem entriesOf_concat (notes : List Note) (n : Note) :
    entriesOf (notes ++ [n]) = entriesOf notes ++ [⟨notes.length, n.level, n.unit, n.event⟩] :=
  List.mapIdx_concat

theorem length_entriesOf (notes : List Note) : (entriesOf notes).length = notes.length :=
  List.length_mapIdx

/-- The numbers of complete entries are their positions. -/
theorem map_seq_entriesOf (notes : List Note) :
    (entriesOf notes).map (·.seq) = List.range notes.length := by
  induction notes using List.reverseRecOn with
  | nil => rfl
  | append_singleton notes n ih =>
    rw [entriesOf_concat, List.map_append, ih, List.length_append, List.length_singleton,
      List.range_succ, List.map_singleton]

/-! ### Trimming -/

/-- A trim leaves the last entries, as many as there is room for. -/
theorem trim_eq_rtake (capacity : Option Nat) (es : List Entry) :
    trim capacity es = es.rtake (room capacity es.length) := by
  rw [List.rtake]
  cases capacity with
  | none =>
    show es = es.drop (es.length - es.length)
    rw [Nat.sub_self, List.drop_zero]
  | some bound =>
    show es.drop (es.length - bound) = es.drop (es.length - min es.length bound)
    congr 1
    omega

theorem length_trim (capacity : Option Nat) (es : List Entry) :
    (trim capacity es).length = room capacity es.length := by
  rw [trim_eq_rtake, List.rtake, List.length_drop]
  exact Nat.sub_sub_self (room_le capacity es.length)

/-- What is left of complete entries is numbered without a gap up to the last note. -/
theorem map_seq_trim_entriesOf (capacity : Option Nat) (notes : List Note) :
    (trim capacity (entriesOf notes)).map (·.seq) =
      List.range' (notes.length - room capacity notes.length) (room capacity notes.length) := by
  have hroom := room_le capacity notes.length
  rw [trim_eq_rtake, List.rtake, length_entriesOf, List.map_drop, map_seq_entriesOf,
    List.range_eq_range', List.drop_range']
  congr 1 <;> omega

/-! ### Recording -/

/-- **A journal is told from its notes.** The induction takes the notes off the end, because the
last one is recorded into the journal of those before it. -/
theorem recordAll_empty (capacity : Option Nat) (notes : List Note) :
    (empty capacity).recordAll notes =
      ⟨capacity, notes.length, trim capacity (entriesOf notes)⟩ := by
  induction notes using List.reverseRecOn with
  | nil => cases capacity <;> simp [recordAll, empty, entriesOf, trim]
  | append_singleton notes n ih =>
    have hlast : (empty capacity).recordAll (notes ++ [n]) =
        (((empty capacity).recordAll notes).record n.level n.unit n.event).2 :=
      List.foldl_concat _ _ _ _
    rw [hlast, ih, record_trim, entriesOf_concat, List.length_append, List.length_singleton]

/-- Numbering goes on when the oldest entry is dropped. -/
example :
    (((empty (some 2)).recordAll
      [⟨.warn, "b", .recompileStarted 1⟩, ⟨.warn, "b", .recompileStarted 2⟩,
        ⟨.warn, "b", .recompileStarted 3⟩]).entries.map (·.seq)) = [1, 2] := by
  decide

end Journal

namespace Scenario.JournalStep

/-- The note that a call gives to the journal, if it is not one that only reads. -/
def note? : JournalStep → Option Note
  | record level unit event => some ⟨level, unit, event⟩
  | events | eventsFor _ | sessionsMatch => none

/-- The journal after some calls. -/
def after (steps : List JournalStep) (j : Journal) : Journal :=
  steps.foldl (fun j step => (step.perform j).2) j

/-- Only the notes among some calls count. -/
theorem journal_after (steps : List JournalStep) (j : Journal) :
    after steps j = j.recordAll (steps.filterMap note?) := by
  induction steps generalizing j with
  | nil => rfl
  | cons step steps ih =>
    rw [after, List.foldl_cons, ← after, ih]
    cases step <;> rfl

open Journal in
/-- **A journal shows a suffix of its history.** After any sequence of calls on a journal that was
empty, whatever its capacity, with `notes` for what has been recorded so far,

* the next call that records is told the number of these notes, so the numbers count the calls
  from 0; and how many entries there are afterwards, or whether there are any, is told from how many
  there is room for;
* the entries shown are the last ones of the complete entries, as many as there is room for;
* their numbers are consecutive and end at the last note;
* the entries that concern a unit are those of the entries shown that do, in their order, and so the
  last ones of all that have been recorded for it. -/
theorem journal_shows_suffix (capacity : Option Nat) (steps : List JournalStep) :
    let j := after steps (.empty capacity)
    let notes := steps.filterMap note?
    (∀ level unit event,
      ((record level unit event).perform j).1 =
        .record [("seq", .count notes.length),
          ("len", .count (room capacity (notes.length + 1))),
          ("empty", .bool (room capacity (notes.length + 1) == 0))]) ∧
    (j.entries = (entriesOf notes).rtake (room capacity notes.length) ∧
      j.size = room capacity notes.length) ∧
    j.entries.map (·.seq) =
      List.range' (notes.length - room capacity notes.length) (room capacity notes.length) ∧
    ∀ unit,
      j.entriesFor unit = j.entries.filter (fun e => e.unit = unit) ∧
      j.entriesFor unit <:+ (entriesOf notes).filter (fun e => e.unit = unit) := by
  intro j notes
  -- reads leave no trace, so the journal is that of the notes
  have hj : j = ⟨capacity, notes.length, trim capacity (entriesOf notes)⟩ := by
    rw [← recordAll_empty]
    exact journal_after steps _
  have hentries : j.entries = (entriesOf notes).rtake (room capacity notes.length) := by
    rw [hj, ← length_entriesOf notes]
    exact trim_eq_rtake capacity _
  refine ⟨fun level unit event => ?_, ⟨hentries, ?_⟩, ?_, fun unit => ?_⟩
  · -- the number told is that of the new entry, whether there is room for the entry or not
    have hnumber : (j.record level unit event).1 = notes.length := by rw [hj, record_trim]
    have hsize : (j.record level unit event).2.size = room capacity (notes.length + 1) := by
      rw [hj, record_trim, size, length_trim, List.length_append, length_entriesOf,
        List.length_singleton]
    simp only [perform, hnumber, hsize]
  · rw [hj, size, length_trim, length_entriesOf]
  · rw [hj]
    exact map_seq_trim_entriesOf capacity notes
  · -- a filter of a suffix is a suffix of the filtered entries
    have hfor : j.entriesFor unit = j.entries.filter (fun e => e.unit = unit) :=
      List.filter_congr fun e _ => beq_eq_decide _ _
    refine ⟨hfor, ?_⟩
    rw [hfor, hentries]
    exact (List.drop_suffix _ _).filter _

end Scenario.JournalStep

end HotReload
