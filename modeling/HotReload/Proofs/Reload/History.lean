import HotReload.Proofs.Repair.Propagation
import Mathlib.Data.List.Induction

/-!
# Journals and what has happened

A **history** is what a call has had to note so far: events with the names of the units that they
concern, oldest first. A journal is a view of a history. Two settings decide what of it the view
shows, `JournalSettings`: events about removed symbols can be left out, and all but the last entries
can be dropped.

The journal under given settings is told in one go from the history (`JournalSettings.tells`), and
noting something more gives the journal of the longer history (`JournalSettings.log_tells`,
`Session.note_under`). That entries have been dropped in between does not show, because what is
dropped early would be dropped later all the same (`Journal.trim_trim_append`).
-/

namespace HotReload

/-- What there has been to note: names of units and events, oldest first. -/
abbrev History := List (String × Event)

namespace Journal

/-- The entries of a history, numbered from 0. -/
def numbered (h : History) : List Entry := h.mapIdx fun i x => ⟨i, x.2.level, x.1, x.2⟩

/-- Entries with new numbers, from 0. -/
def renumbered (es : List Entry) : List Entry := es.mapIdx fun i e => { e with seq := i }

/-- The journal of a history of which everything has been recorded. -/
def telling (capacity : Option Nat) (h : History) : Journal :=
  ⟨capacity, h.length, trim capacity (numbered h)⟩

/-- The last entry is numbered by what has been noted before it. -/
theorem numbered_concat (h : History) (unit : String) (e : Event) :
    numbered (h ++ [(unit, e)]) = numbered h ++ [⟨h.length, e.level, unit, e⟩] :=
  List.mapIdx_concat

/-- What has been dropped already would be dropped anyway. -/
theorem trim_trim_append (capacity : Option Nat) (es : List Entry) (e : Entry) :
    trim capacity (trim capacity es ++ [e]) = trim capacity (es ++ [e]) := by
  cases capacity with
  | none => rfl
  | some n =>
    -- the first trim leaves at most `n` entries, so the second one drops a further one at most, and
    -- two drops from the front are one
    have hlength : (es.drop (es.length - n) ++ [e]).length = min es.length n + 1 := by
      rw [List.length_append, List.length_drop, List.length_singleton]
      omega
    show (es.drop (es.length - n) ++ [e]).drop ((es.drop (es.length - n) ++ [e]).length - n) = _
    rw [hlength, ← List.drop_append_of_le_length (Nat.sub_le _ _), List.drop_drop]
    show _ = (es ++ [e]).drop ((es ++ [e]).length - n)
    congr 1
    rw [List.length_append, List.length_singleton]
    omega

/-- Recording goes by all that has been recorded, whether it is still there or not, and tells the
number of the entry even if the entry is dropped at once. -/
theorem record_trim (capacity : Option Nat) (n : Nat) (es : List Entry) (level : Level)
    (unit : String) (e : Event) :
    record ⟨capacity, n, trim capacity es⟩ level unit e =
      (n, ⟨capacity, n + 1, trim capacity (es ++ [⟨n, level, unit, e⟩])⟩) := by
  have htrim := trim_trim_append capacity es ⟨n, level, unit, e⟩
  exact congrArg (fun kept => (n, Journal.mk capacity (n + 1) kept)) htrim

/-- Noting one event more gives the journal of the longer history. -/
theorem log_telling (capacity : Option Nat) (h : History) (unit : String) (e : Event) :
    (telling capacity h).log unit e = telling capacity (h ++ [(unit, e)]) := by
  have hrecord := congrArg Prod.snd (record_trim capacity h.length (numbered h) e.level unit e)
  refine hrecord.trans ?_
  rw [telling, numbered_concat, List.length_append, List.length_singleton]

/-- Events of one unit lengthen the history by themselves, in their order. -/
theorem logAll_telling (capacity : Option Nat) (h : History) (unit : String) (es : List Event) :
    (telling capacity h).logAll unit es = telling capacity (h ++ es.map (unit, ·)) := by
  induction es generalizing h with
  | nil => rw [List.map_nil, List.append_nil]; rfl
  | cons e es ih =>
    calc (telling capacity h).logAll unit (e :: es)
        = ((telling capacity h).log unit e).logAll unit es := rfl
      _ = telling capacity (h ++ [(unit, e)] ++ es.map (unit, ·)) := by rw [log_telling, ih]
      _ = telling capacity (h ++ (e :: es).map (unit, ·)) := by
        rw [List.append_assoc, List.map_cons, List.singleton_append]

/-- Leaving entries out and numbering what is left anew is numbering what is left of the
history. -/
theorem renumbered_filter (p : Event → Bool) (h : History) :
    renumbered ((numbered h).filter (p ·.event)) = numbered (h.filter (p ·.2)) := by
  -- from the end, since the number of an entry depends on what is before it
  induction h using List.reverseRecOn with
  | nil => rfl
  | append_singleton h x ih =>
    obtain ⟨unit, e⟩ := x
    have hlength : ((numbered h).filter (p ·.event)).length = (h.filter (p ·.2)).length := by
      rw [← List.length_mapIdx (f := fun i (e : Entry) => { e with seq := i }), ← renumbered, ih,
        numbered, List.length_mapIdx]
    let entry : Entry := ⟨h.length, e.level, unit, e⟩
    rw [numbered_concat, List.filter_append, List.filter_append]
    by_cases he : p e = true
    · -- the new entry stays: its number is how many stay before it
      have hentry : [entry].filter (p ·.event) = [entry] := List.filter_cons_of_pos he
      have hpair : [(unit, e)].filter (p ·.2) = [(unit, e)] := List.filter_cons_of_pos he
      rw [hentry, hpair, numbered_concat, ← ih, ← hlength]
      exact List.mapIdx_concat
    · -- the new entry goes, on both sides
      have hentry : [entry].filter (p ·.event) = [] := List.filter_cons_of_neg he
      have hpair : [(unit, e)].filter (p ·.2) = [] := List.filter_cons_of_neg he
      rw [hentry, hpair, List.append_nil, List.append_nil, ih]

end Journal

/-! ### Settings -/

/-- **Journal settings**: the part of a configuration that says what its journal keeps. -/
structure JournalSettings where
  capacity : Option Nat
  logRemovedSymbols : Bool

/-- A configuration with other journal settings. -/
def Config.journaling (c : Config) (j : JournalSettings) : Config :=
  { c with journalCapacity := j.capacity, logRemovedSymbols := j.logRemovedSymbols }

namespace JournalSettings

/-- Whether an event is recorded. -/
def records (j : JournalSettings) (e : Event) : Bool := j.logRemovedSymbols || !e.isSymbolRemoved

/-- **The journal of a history** under these settings. -/
def tells (j : JournalSettings) (h : History) : Journal :=
  .telling j.capacity (h.filter (j.records ·.2))

/-- The setting is about removed symbols alone. -/
theorem records_of_not_isSymbolRemoved (j : JournalSettings) {e : Event}
    (he : e.isSymbolRemoved = false) : j.records e = true := by
  rw [records, he, Bool.not_false, Bool.or_true]

/-- Noting what the settings let through gives the journal of the longer history. -/
theorem logAll_tells (j : JournalSettings) (h : History) (unit : String) (es : List Event) :
    (j.tells h).logAll unit (es.filter j.records) = j.tells (h ++ es.map (unit, ·)) := by
  rw [tells, tells, Journal.logAll_telling, List.filter_append, List.filter_map]
  rfl

/-- Events that do not concern a removed symbol are recorded in any case. -/
theorem logAll_tells_of_forall (j : JournalSettings) (h : History) (unit : String)
    {es : List Event} (hes : ∀ e ∈ es, e.isSymbolRemoved = false) :
    (j.tells h).logAll unit es = j.tells (h ++ es.map (unit, ·)) := by
  rw [← logAll_tells, List.filter_eq_self.mpr]
  exact fun e he => j.records_of_not_isSymbolRemoved (hes e he)

/-- The same for a single event. -/
theorem log_tells (j : JournalSettings) (h : History) (unit : String) {e : Event}
    (he : e.isSymbolRemoved = false) : (j.tells h).log unit e = j.tells (h ++ [(unit, e)]) :=
  j.logAll_tells_of_forall h unit fun _ he' => List.mem_singleton.mp he' ▸ he

end JournalSettings

/-! ### Sessions under settings -/

/-- What there is to note when a session is opened: the units that were skipped. -/
def References.history (r : References) : History :=
  r.skipped.map fun e => (e.1, .unitSkipped e.2.message)

namespace Session

variable {σ : Type}

/-- The session as it is under the given settings after the given history. -/
def under (s : Session) (j : JournalSettings) (h : History) : Session :=
  { s with config := s.config.journaling j, journal := j.tells h }

/-- A session starts with the journal of the units that were skipped. -/
theorem firstJournal_journaling (config : Config) (j : JournalSettings) (r : References) :
    firstJournal (config.journaling j) r = j.tells r.history := by
  have hfold : ∀ (xs : List (String × IntrospectError)) (h : History),
      xs.foldl (fun j e => j.log e.1 (.unitSkipped e.2.message)) (j.tells h) =
        j.tells (h ++ xs.map fun e => (e.1, .unitSkipped e.2.message)) := by
    -- entries for skipped units are never filtered out, so each goes on with the history
    intro xs
    induction xs with
    | nil => exact fun h => by rw [List.map_nil, List.append_nil]; rfl
    | cons x xs ih =>
      intro h
      rw [List.foldl_cons, j.log_tells h x.1 rfl, ih, List.append_assoc]
      rfl
  have hempty : Journal.empty j.capacity = j.tells [] := by
    cases hc : j.capacity <;> simp [Journal.empty, JournalSettings.tells, Journal.telling, hc,
      Journal.trim, Journal.numbered]
  show r.skipped.foldl _ (Journal.empty j.capacity) = _
  rw [hempty]
  exact hfold r.skipped []

/-- Journaling the deeds of a repair lengthens the history by their events. -/
theorem note_under (s : Session) (j : JournalSettings) (h : History) (unit : String)
    (deeds : List Deed) :
    (s.under j h).note unit deeds =
      s.under j (h ++ (deeds.map Deed.event).map (unit, ·)) := by
  rw [under, under, ← j.logAll_tells]
  rfl

/-- What a propagation has to note. -/
def propagationHistory [Host σ] (s : Session) : List UnitId → World σ → History
  | [], _ => []
  | u :: us, w =>
    ((w.repair s u).2.map Deed.event).map (((w.repair s u).1.unit u).name, ·) ++
      s.propagationHistory us (w.repair s u).1

/-- What has been journaled before has no part in the work of a propagation. -/
theorem snd_propagate_note [Host σ] (s : Session) (unit : String) (deeds : List Deed)
    (us : List UnitId) (w : World σ) :
    ((s.note unit deeds).propagate us w).2 = (s.propagate us w).2 := by
  obtain ⟨hstats, hworld⟩ := (s.note unit deeds).propagate_eq_repairEach us w
  obtain ⟨hstats', hworld'⟩ := s.propagate_eq_repairEach us w
  exact Prod.ext (hstats.trans hstats'.symm) (hworld.trans hworld'.symm)

/-- **A propagation does not see the settings.** It does the same under all of them, and has the
same to note. -/
theorem propagate_under [Host σ] (s : Session) (j : JournalSettings) (h : History)
    (us : List UnitId) (w : World σ) :
    (s.under j h).propagate us w =
      (s.under j (h ++ s.propagationHistory us w), (s.propagate us w).2) := by
  induction us generalizing h w with
  | nil => rw [propagationHistory, List.append_nil]; rfl
  | cons u us ih =>
    -- the repair of the first unit reads neither configuration nor journal
    have hrepair : w.repair (s.under j h) u = w.repair s u := rfl
    have hnote := s.snd_propagate_note ((w.repair s u).1.unit u).name (w.repair s u).2 us
      (w.repair s u).1
    rw [propagate_cons, propagate_cons, hrepair, note_under, ih, propagationHistory,
      ← List.append_assoc]
    simp only [hnote]

end Session

end HotReload
