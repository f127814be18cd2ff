import HotReload.Proofs.Reload.Recompilers
import HotReload.Proofs.Reload.Rounds
import HotReload.Proofs.Repair.Notes

/-!
# The protocol of a batch

While a batch is under way each of its units is in one place, and its phase says in which
(`Batch.Orderly`). An attempt asks for a change of phase that depends on the answer
(`Progress.requested`), and it is always one that may follow: the test in `Progress.advance` never
fails (`Batch.settle_eq_file`).

What a batch notes down about a unit can be read off the answers that the unit was given
(`Progress.Story`). Each attempt is announced; a failure that leaves another attempt is noted as
such, a success with the size of the table. A failure that leaves none is noted when all attempts
have been made. The proof carries the stories of all units through one attempt (`Batch.Told.next`)
and from there through the loop.

The counters of single units stay within the budget, but all attempts are counted in one word. What
holds of each moment holds until the word is full and after it has started again. What holds at the
end is told of programs that get there, and which do is told as well
(`Batch.FollowsProtocol.completes`).
-/

namespace HotReload

variable {S σ : Type}

/-! ### Changes of phase -/

namespace Progress

/-- The phase that an attempt with this answer asks for. -/
def requested (p : Progress) (budget : Nat) : Except String (Table Value) → Phase
  | .ok _ => .succeeded
  | .error _ => if p.failures + 1 < budget then .retrying else .failed

/-- The same unit after an answer, in the same phase. -/
def answered (p : Progress) : Except String (Table Value) → Progress
  | .ok _ => p
  | .error detail => p.failedWith detail

/-- The same unit after an answer, in the phase that is asked for, be that allowed or not. -/
def moved (p : Progress) (budget : Nat) (answer : Except String (Table Value)) : Progress :=
  { p.answered answer with phase := p.requested budget answer }

/-- What an attempt with this answer notes. -/
def noted (p : Progress) (budget : Nat) : Except String (Table Value) → List Event
  | .ok table => [.recompileStarted p.attempt, .recompiled table.size]
  | .error detail =>
    .recompileStarted p.attempt ::
      if p.failures + 1 < budget then [.recompileRetry p.attempt detail] else []

/-- An attempt never notes a final failure. That is left to the end of the batch. -/
theorem ne_recompileFailed_of_noted {p : Progress} {budget : Nat}
    {answer : Except String (Table Value)} {e : Event} (he : e ∈ p.noted budget answer)
    {attempts : Nat} {detail : String} : e ≠ .recompileFailed attempts detail := by
  rintro rfl
  cases answer with
  | ok table => simp [noted] at he
  | error _ =>
    -- there is a note for a retry or none
    rw [noted] at he
    split at he <;> simp at he

/-- An attempt does not change whose record it is. -/
@[simp] theorem unit_moved (p : Progress) (budget : Nat) (answer : Except String (Table Value)) :
    (p.moved budget answer).unit = p.unit := by
  cases answer <;> rfl

@[simp] theorem name_moved (p : Progress) (budget : Nat) (answer : Except String (Table Value)) :
    (p.moved budget answer).name = p.name := by
  cases answer <;> rfl

/-- A unit that waits may move on to whatever is asked for. -/
theorem allows_requested {p : Progress} (hp : p.phase = .pending ∨ p.phase = .retrying)
    (budget : Nat) (answer : Except String (Table Value)) :
    p.phase.allows (p.requested budget answer) = true := by
  have hall : ∀ phase, phase ≠ .pending → p.phase.allows phase = true := by
    intro phase hphase
    rcases hp with hp | hp <;> rw [hp] <;> cases phase <;> first | rfl | exact absurd rfl hphase
  -- no answer asks for a unit to become pending again
  refine hall _ ?_
  cases answer with
  | ok table => exact nofun
  | error detail =>
    show (if p.failures + 1 < budget then Phase.retrying else .failed) ≠ .pending
    split <;> exact nofun

end Progress

namespace Batch

/-- The records of a batch, wherever they are. -/
def records (b : Batch) : List Progress := b.queue ++ b.succeeded ++ b.exhausted

/-- Puts a record where its phase says. -/
def file (b : Batch) (p : Progress) : Batch :=
  match p.phase with
  | .pending | .retrying => { b with queue := b.queue ++ [p] }
  | .succeeded => { b with succeeded := b.succeeded ++ [p] }
  | .failed => { b with exhausted := b.exhausted ++ [p] }

/-- **The test of a change of phase is idle.** If the unit waits, the batch goes on as if every
change were made that is asked for. -/
theorem settle_eq_file {p : Progress} (hp : p.phase = .pending ∨ p.phase = .retrying)
    (budget : Nat) (answer : Except String (Table Value)) (b : Batch) :
    b.settle budget p answer =
      ({ b with attempts := b.attempts.next } : Batch).file (p.moved budget answer) := by
  have hallows := Progress.allows_requested hp budget answer
  have hadvance : (p.answered answer).advance (p.requested budget answer) =
      p.moved budget answer := by
    have hphase : (p.answered answer).phase = p.phase := by cases answer <;> rfl
    rw [Progress.advance, hphase, if_pos hallows]
    rfl
  -- what remains is that each branch files the record where its new phase says
  cases answer with
  | ok table =>
    have hsucceeded : p.advance .succeeded = p.moved budget (.ok table) := hadvance
    rw [settle, hsucceeded]
    rfl
  | error detail =>
    by_cases hmore : p.failures + 1 < budget
    · have hphase : p.requested budget (.error detail) = .retrying := if_pos hmore
      have hmoved : (p.moved budget (.error detail)).phase = .retrying := hphase
      rw [hphase] at hadvance
      rw [file, hmoved, settle, if_pos hmore, ← hadvance]
      rfl
    · -- this was the last attempt
      have hphase : p.requested budget (.error detail) = .failed := if_neg hmore
      have hmoved : (p.moved budget (.error detail)).phase = .failed := hphase
      rw [hphase] at hadvance
      rw [file, hmoved, settle, if_neg hmore, ← hadvance]
      rfl

/-- Filing adds one record, wherever it goes. -/
theorem perm_records_file (b : Batch) (p : Progress) :
    (b.file p).records.Perm (p :: b.records) := by
  have hmiddle : (b.queue ++ b.succeeded ++ p :: b.exhausted).Perm
      (p :: (b.queue ++ b.succeeded ++ b.exhausted)) := List.perm_middle
  have hlast : (b.queue ++ b.succeeded ++ b.exhausted ++ [p]).Perm
      (p :: (b.queue ++ b.succeeded ++ b.exhausted)) := List.perm_append_singleton ..
  unfold file records
  split
  · simp
  · simp
  · simpa using hmiddle
  · simpa using hlast

/-- A place holds what it held, and the new record if its phase says so. -/
theorem mem_file {b : Batch} {p q : Progress} :
    (q ∈ (b.file p).queue → q ∈ b.queue ∨
      q = p ∧ (p.phase = .pending ∨ p.phase = .retrying)) ∧
    (q ∈ (b.file p).succeeded → q ∈ b.succeeded ∨ q = p ∧ p.phase = .succeeded) ∧
    (q ∈ (b.file p).exhausted → q ∈ b.exhausted ∨ q = p ∧ p.phase = .failed) := by
  unfold file
  cases p.phase <;> simp

@[simp] theorem attempts_file (b : Batch) (p : Progress) : (b.file p).attempts = b.attempts := by
  unfold file
  cases p.phase <;> rfl

/-- Roster and members are read off the records. -/
theorem roster_eq_map (b : Batch) : b.roster = b.records.map fun p => (p.unit, p.name) := rfl

theorem members_eq_map (b : Batch) : b.members = b.records.map (·.unit) := rfl

/-! ### Where units are -/

/-- **Orderly.** Each unit of the batch is in one of the three places, once. It is in the queue only
while it waits and has attempts left, and its phase at the end matches the list it is in. -/
structure Orderly (budget : Nat) (units : List (UnitId × String)) (b : Batch) : Prop where
  roster : b.roster.Perm units
  once : b.members.Nodup
  queue : ∀ p ∈ b.queue, (p.phase = .pending ∨ p.phase = .retrying) ∧ p.failures < budget
  succeeded : ∀ p ∈ b.succeeded, p.phase = .succeeded ∧ p.failures < budget
  exhausted : ∀ p ∈ b.exhausted, p.phase = .failed ∧ p.failures = budget

/-- At the start every unit waits, and none has failed. -/
theorem orderly_ofUnits {units : List (UnitId × String)} (hunits : (units.map (·.1)).Nodup)
    {budget : Nat} (hbudget : 1 ≤ budget) : Orderly budget units (ofUnits units) where
  roster := .of_eq (roster_ofUnits units)
  once := members_ofUnits units ▸ hunits
  queue p hp := by
    obtain ⟨u, -, rfl⟩ := List.mem_map.mp hp
    exact ⟨.inl rfl, hbudget⟩
  succeeded := nofun
  exhausted := nofun

variable {budget : Nat} {units : List (UnitId × String)} {b : Batch}

/-- The counters stay within the budget. -/
theorem Orderly.failures_le (h : Orderly budget units b) {p : Progress} (hp : p ∈ b.records) :
    p.failures ≤ budget := by
  -- hp | only among the exhausted the budget is used up
  rcases List.mem_append.mp hp with hp | hp
  · rcases List.mem_append.mp hp with hp | hp
    · exact Nat.le_of_lt (h.queue p hp).2
    · exact Nat.le_of_lt (h.succeeded p hp).2
  · exact Nat.le_of_eq (h.exhausted p hp).2

/-- The failures of a unit after an attempt match the phase that it has then. -/
theorem failures_moved {p : Progress} (hp : p.failures < budget)
    (answer : Except String (Table Value)) :
    ((p.moved budget answer).phase = .failed → (p.moved budget answer).failures = budget) ∧
      ((p.moved budget answer).phase ≠ .failed → (p.moved budget answer).failures < budget) := by
  cases answer with
  | ok table => exact ⟨nofun, fun _ => hp⟩
  | error detail =>
    show ((if p.failures + 1 < budget then Phase.retrying else .failed) = .failed →
      p.failures + 1 = budget) ∧ ((if p.failures + 1 < budget then Phase.retrying else .failed) ≠
        .failed → p.failures + 1 < budget)
    split
    · next hmore => exact ⟨nofun, fun _ => hmore⟩
    · exact ⟨fun _ => by omega, fun h => absurd rfl h⟩

/-- **One attempt keeps a batch orderly**, whatever the answer. -/
theorem Orderly.settle (h : Orderly budget units b) {p : Progress} {rest : List Progress}
    (hq : b.queue = p :: rest) (answer : Except String (Table Value)) :
    Orderly budget units (({ b with queue := rest } : Batch).settle budget p answer) := by
  obtain ⟨hp, hlt⟩ := h.queue p (hq ▸ List.mem_cons_self)
  rw [settle_eq_file hp]
  -- the record is taken from the queue and filed again, with its new phase
  let b' : Batch := { b with queue := rest, attempts := b.attempts.next }
  have hrecords : b.records = p :: b'.records := by
    simp only [records, hq, List.cons_append, b']
  -- so records are permuted, and with them roster and members
  have hperm := perm_records_file b' (p.moved budget answer)
  have hroster : (b'.file (p.moved budget answer)).roster.Perm b.roster := by
    simpa [roster_eq_map, hrecords] using hperm.map fun p => (p.unit, p.name)
  have hmembers : (b'.file (p.moved budget answer)).members.Perm b.members := by
    simpa [members_eq_map, hrecords] using hperm.map (·.unit)
  obtain ⟨hfailed, hother⟩ := failures_moved hlt answer
  refine ⟨hroster.trans h.roster, hmembers.nodup_iff.mpr h.once, ?_, ?_, ?_⟩
  · intro x hx
    rcases mem_file.1 hx with hx | ⟨rfl, hphase⟩
    · -- it has been waiting before
      exact h.queue x (hq ▸ List.mem_cons_of_mem p hx)
    · exact ⟨hphase, hother (by rcases hphase with h | h <;> rw [h] <;> exact nofun)⟩
  · intro x hx
    rcases mem_file.2.1 hx with hx | ⟨rfl, hphase⟩
    · exact h.succeeded x hx
    · exact ⟨hphase, hother (by rw [hphase]; exact nofun)⟩
  · intro x hx
    rcases mem_file.2.2 hx with hx | ⟨rfl, hphase⟩
    · exact h.exhausted x hx
    · exact ⟨hphase, hfailed hphase⟩

/-! ### What is noted -/

/-- What has been noted of a unit that has failed with these details so far. -/
def retries (details : List String) : List Event :=
  (details.zipIdx 1).flatMap fun d => [.recompileStarted d.2, .recompileRetry d.2 d.1]

/-- One more failure adds its two notes at the end. -/
theorem retries_concat (details : List String) (detail : String) :
    retries (details ++ [detail]) = retries details ++
      [.recompileStarted (details.length + 1), .recompileRetry (details.length + 1) detail] := by
  simp [retries, List.zipIdx_append, Nat.add_comm]

end Batch

/-- **The story of a unit**: what has been noted in its attempts, and the answers that it was
given. -/
inductive Progress.Story (budget : Nat) (p : Progress) :
    List Event → List (Except String (Table Value)) → Prop
  | waiting (details : List String) (hphase : p.phase = .pending ∨ p.phase = .retrying)
      (hfailures : details.length = p.failures) :
      p.Story budget (Batch.retries details) (details.map .error)
  | succeeded (details : List String) (table : Table Value) (hphase : p.phase = .succeeded)
      (hless : details.length < budget) :
      p.Story budget
        (Batch.retries details ++
          [.recompileStarted (details.length + 1), .recompiled table.size])
        (details.map .error ++ [.ok table])
  | failed (details : List String) (hphase : p.phase = .failed)
      (hbudget : details.length + 1 = budget) :
      p.Story budget (Batch.retries details ++ [.recompileStarted budget])
        ((details ++ [p.lastError]).map .error)

namespace Batch

variable {budget : Nat} {units : List (UnitId × String)} {b : Batch}

/-- **A story goes on** with what the next attempt notes. -/
theorem story_moved {p : Progress} {es : List Event} {as : List (Except String (Table Value))}
    (h : p.Story budget es as) (hp : p.phase = .pending ∨ p.phase = .retrying)
    (hlt : p.failures < budget) (answer : Except String (Table Value)) :
    (p.moved budget answer).Story budget (es ++ p.noted budget answer) (as ++ [answer]) := by
  cases h with
  | succeeded _ _ hphase => rcases hp with h | h <;> cases h.symm.trans hphase
  -- a unit that waits has neither succeeded nor been given up on
  | failed _ hphase => rcases hp with h | h <;> cases h.symm.trans hphase
  | waiting details _ hfailures =>
    -- from here on the unit has failed so far, and the answer decides how its story goes on
    cases answer with
    | ok table =>
      have hstory := Progress.Story.succeeded (p := p.moved budget (.ok table)) details table rfl
        (hfailures ▸ hlt)
      rw [hfailures] at hstory
      exact hstory
    | error detail =>
      have hmap : (details.map .error ++ [.error detail] : List (Except String (Table Value))) =
          (details ++ [detail]).map .error := by
        rw [List.map_append]
        rfl
      rw [hmap]
      by_cases hmore : p.failures + 1 < budget
      · have hnoted : p.noted budget (.error detail) =
            [.recompileStarted (details.length + 1),
              .recompileRetry (details.length + 1) detail] := by
          rw [Progress.noted, if_pos hmore, hfailures]
          rfl
        rw [hnoted, ← retries_concat]
        refine .waiting _ (.inr (if_pos hmore)) ?_
        rw [List.length_append, hfailures]
        rfl
      · -- the last failure is not noted as a retry
        have hlast : details.length + 1 = budget := by omega
        have hnoted : p.noted budget (.error detail) = [.recompileStarted budget] := by
          rw [Progress.noted, if_neg hmore, Progress.attempt, ← hfailures, hlast]
        rw [hnoted]
        exact .failed (p := p.moved budget (.error detail)) details (if_neg hmore) hlast

end Batch

/-! ### One attempt -/

/-- A workshop with a journal beside its state **journals** if what is noted goes to the journal and
nothing else does. -/
structure Workshop.Journals (shop : Workshop (S × Journal)) : Prop where
  note : ∀ unit e s, (shop.note unit e s).2 = s.2.log unit e
  compile : ∀ u s, (shop.compile u s).2.2 = s.2
  install : ∀ u table s, (shop.install u table s).2 = s.2

/-- The workshop of a reloader journals: a recompiler changes the world alone. -/
theorem Reloader.journals_workshop (recompile : Recompiler σ) (r : Reloader) :
    (r.workshop recompile).Journals := ⟨fun _ _ _ => rfl, fun _ _ => rfl, fun _ _ _ => rfl⟩

namespace Batch

variable {budget : Nat} {units : List (UnitId × String)} {b : Batch} {shop : Workshop (S × Journal)}

/-- What a log says of a unit. The units are told apart by identity, not by name. -/
def told (u : UnitId) (log : List (UnitId × Entry)) : List Event :=
  (log.filter (·.1 == u)).map (·.2.event)

/-- The answers that a unit was given. -/
def answers (u : UnitId) (jobs : List Job) : List (Except String (Table Value)) :=
  jobs.filterMap fun
    | .compile v answer => if v = u then some answer else none
    | .install _ _ => none

/-- What two logs say of a unit is said one after the other. -/
theorem told_append (u : UnitId) (log log' : List (UnitId × Entry)) :
    told u (log ++ log') = told u log ++ told u log' := by
  rw [told, List.filter_append, List.map_append]
  rfl

/-- Entries that belong to one unit say nothing of another one. -/
theorem told_tagged (u v : UnitId) (new : List Entry) :
    told u (new.map (v, ·)) = if v = u then new.map (·.event) else [] := by
  unfold told
  rw [List.filter_map]
  split
  · next h => simp [Function.comp_def, h]
  · next h => simp [Function.comp_def, h]

/-- One more trial adds its answer, if it was one of this unit. -/
theorem answers_append_jobs (u : UnitId) (jobs : List Job) (t : Trial) :
    answers u (jobs ++ t.jobs) = answers u jobs ++ if t.unit.1 = u then [t.answer] else [] := by
  obtain ⟨v, detail | table⟩ := t <;> by_cases hv : v.1 = u <;>
    simp [answers, Trial.jobs, hv]

/-- What an attempt leaves in the journal are its notes, in their order. -/
theorem snd_attemptIn (hshop : shop.Journals) (budget : Nat) (p : Progress) (s : S × Journal) :
    (attemptIn shop budget p.attempt (p.unit, p.name) s).2.2 = s.2.logAll p.name
      (p.noted budget (attemptIn shop budget p.attempt (p.unit, p.name) s).1.answer) := by
  have hstart := hshop.note p.name (.recompileStarted p.attempt) s
  have hcompile := hshop.compile p.unit (shop.note p.name (.recompileStarted p.attempt) s)
  unfold attemptIn
  -- compiling leaves the journal alone, so that only the answer matters from here on
  generalize shop.compile p.unit (shop.note p.name (.recompileStarted p.attempt) s) = c
    at hcompile ⊢
  obtain ⟨detail | table, s'⟩ := c
  · have hs' : s'.2 = s.2.log p.name (.recompileStarted p.attempt) := hcompile.trans hstart
    show (if p.failures + 1 < budget then shop.note p.name (.recompileRetry p.attempt detail) s'
      else s').2 = _
    rw [Progress.noted]
    -- a retry is noted only if there is one
    by_cases hmore : p.failures + 1 < budget
    · rw [if_pos hmore, if_pos hmore, hshop.note, hs']
      rfl
    · rw [if_neg hmore, if_neg hmore, hs']
      rfl
  · have hs' : s'.2 = s.2.log p.name (.recompileStarted p.attempt) := hcompile.trans hstart
    show (shop.note p.name (.recompiled table.size) (shop.install p.unit table s')).2 = _
    rw [hshop.note, hshop.install, hs']
    rfl

/-- How a batch stands while attempts are made: it is **told** by a log of its journal, in which the
unit of each entry is known, and by the recorded jobs. -/
structure Told (budget : Nat) (units : List (UnitId × String)) (before : List Entry) (b : Batch)
    (journal : Journal) (jobs : List Job) (log : List (UnitId × Entry)) : Prop where
  orderly : Orderly budget units b
  unbounded : journal.capacity = none
  entries : journal.entries = before ++ log.map (·.2)
  units : ∀ x ∈ log, (x.1, x.2.unit) ∈ units
  unfailed : ∀ x ∈ log, ∀ attempts detail, x.2.event ≠ .recompileFailed attempts detail
  counter : b.attempts = .ofNat (jobs.countP Job.isCompile)
  story : ∀ p ∈ b.records, p.Story budget (told p.unit log) (answers p.unit jobs)

/-- Before the first attempt nothing is told. -/
theorem told_ofUnits (hunits : (units.map (·.1)).Nodup) (hbudget : 1 ≤ budget) {journal : Journal}
    (hjournal : journal.capacity = none) :
    Told budget units journal.entries (ofUnits units) journal [] [] where
  orderly := orderly_ofUnits hunits hbudget
  unbounded := hjournal
  entries := (List.append_nil _).symm
  units := nofun
  unfailed := nofun
  counter := Counter.ofNat_zero.symm
  story p hp := by
    have hq : p ∈ units.map fun u => Progress.fresh u.1 u.2 := by
      simpa [records, ofUnits] using hp
    obtain ⟨u, -, rfl⟩ := List.mem_map.mp hq
    exact .waiting [] (.inl rfl) rfl

/-- **One attempt goes on with the log.** -/
theorem Told.next (hshop : shop.Journals) {before : List Entry} {s : S × Journal} {jobs : List Job}
    {log : List (UnitId × Entry)} (h : Told budget units before b s.2 jobs log) {p : Progress}
    {rest : List Progress} (hq : b.queue = p :: rest) :
    let trial := attemptIn shop budget p.attempt (p.unit, p.name) s
    ∃ log', Told budget units before
      (({ b with queue := rest } : Batch).settle budget p trial.1.answer) trial.2.2
      (jobs ++ trial.1.jobs) log' := by
  intro trial
  obtain ⟨hp, hlt⟩ := h.orderly.queue p (hq ▸ List.mem_cons_self)
  have hjournal : trial.2.2 = s.2.logAll p.name (p.noted budget trial.1.answer) :=
    snd_attemptIn hshop budget p s
  obtain ⟨new, hnew, hunit, hevents⟩ :=
    Journal.exists_logAll h.unbounded p.name (p.noted budget trial.1.answer)
  -- the record of the unit is the only one that changes
  let b' : Batch := { b with queue := rest, attempts := b.attempts.next }
  have hrecords : b.records = p :: b'.records := by
    simp only [records, hq, List.cons_append, b']
  have hunits : trial.1.unit = (p.unit, p.name) := unit_attemptIn shop budget _ _ _
  have hmem : p ∈ b.records := hrecords ▸ List.mem_cons_self
  have hroster : (p.unit, p.name) ∈ units :=
    h.orderly.roster.mem_iff.mp (List.mem_map_of_mem hmem)
  refine ⟨log ++ new.map (p.unit, ·), h.orderly.settle hq _, ?_, ?_, ?_, ?_, ?_, ?_⟩
  · -- a journal that keeps everything goes on to do so
    rw [hjournal, Journal.capacity_logAll]
    exact h.unbounded
  · -- the new entries come last
    rw [hjournal, hnew, h.entries, List.map_append, List.map_map, List.append_assoc]
    simp [Function.comp_def]
  · intro x hx
    rcases List.mem_append.mp hx with hx | hx
    · exact h.units x hx
    · obtain ⟨e, he, rfl⟩ := List.mem_map.mp hx
      rw [hunit e he]
      exact hroster
  · intro x hx
    rcases List.mem_append.mp hx with hx | hx
    · exact h.unfailed x hx
    · obtain ⟨e, he, rfl⟩ := List.mem_map.mp hx
      exact fun _ _ => Progress.ne_recompileFailed_of_noted (hevents ▸ List.mem_map_of_mem he)
  · -- each trial has one compilation
    rw [List.countP_append, Trial.countP_jobs, settle_eq_file hp, attempts_file,
      ← Counter.next_ofNat, h.counter]
  · -- the story of this unit goes on, and nothing is told of the others
    have honce : ∀ q ∈ b'.records, p.unit ≠ q.unit := by
      have hnodup := h.orderly.once
      rw [members_eq_map, hrecords, List.map_cons, List.nodup_cons] at hnodup
      exact fun q hq heq => hnodup.1 (heq ▸ List.mem_map_of_mem hq)
    intro q hq'
    rw [settle_eq_file hp, (perm_records_file b' _).mem_iff, List.mem_cons] at hq'
    rw [told_append, told_tagged, answers_append_jobs, hunits]
    rcases hq' with rfl | hq'
    · rw [Progress.unit_moved, if_pos rfl, if_pos rfl, hevents]
      exact story_moved (h.story p hmem) hp hlt _
    · rw [if_neg (honce q hq'), if_neg (honce q hq'), List.append_nil, List.append_nil]
      exact h.story q (hrecords ▸ List.mem_cons_of_mem p hq')

/-- The story of a unit that has succeeded. -/
theorem Told.of_succeeded {before : List Entry} {journal : Journal} {jobs : List Job}
    {log : List (UnitId × Entry)} (h : Told budget units before b journal jobs log) {p : Progress}
    (hp : p ∈ b.succeeded) :
    ∃ (details : List String) (table : Table Value), details.length < budget ∧
      answers p.unit jobs = details.map .error ++ [.ok table] ∧
      told p.unit log = retries details ++
        [.recompileStarted (details.length + 1), .recompiled table.size] := by
  have hphase := (h.orderly.succeeded p hp).1
  have hstory := h.story p (List.mem_append_left _ (List.mem_append_right _ hp))
  -- the phase leaves only one of the three ways in which a story can stand
  generalize told p.unit log = es at hstory ⊢
  generalize answers p.unit jobs = as at hstory ⊢
  cases hstory with
  | waiting _ hwaits => rcases hwaits with hw | hw <;> cases hw.symm.trans hphase
  | succeeded details table _ hless => exact ⟨details, table, hless, rfl, rfl⟩
  | failed _ hfailed => cases hfailed.symm.trans hphase

/-- The story of a unit that has been given up on, up to its last attempt. -/
theorem Told.of_exhausted {before : List Entry} {journal : Journal} {jobs : List Job}
    {log : List (UnitId × Entry)} (h : Told budget units before b journal jobs log) {p : Progress}
    (hp : p ∈ b.exhausted) :
    ∃ details : List String, details.length + 1 = budget ∧
      answers p.unit jobs = (details ++ [p.lastError]).map .error ∧
      told p.unit log = retries details ++ [.recompileStarted budget] := by
  have hphase := (h.orderly.exhausted p hp).1
  have hstory := h.story p (List.mem_append_right _ hp)
  -- again the phase decides
  generalize told p.unit log = es at hstory ⊢
  generalize answers p.unit jobs = as at hstory ⊢
  cases hstory with
  | waiting _ hwaits => rcases hwaits with hw | hw <;> cases hw.symm.trans hphase
  | succeeded _ _ hsucceeded => cases hsucceeded.symm.trans hphase
  | failed details _ hbudget => exact ⟨details, hbudget, rfl, rfl⟩

/-! ### All attempts -/

/-- **Any number of attempts go on with the log.** The induction is on the number of attempts, and
`Told` is what each of them hands on. -/
theorem Told.drain (hshop : shop.Journals) (n : Nat) {before : List Entry} {s : S × Journal}
    {jobs : List Job} {log : List (UnitId × Entry)} (h : Told budget units before b s.2 jobs log) :
    ∃ jobs' log', drain shop.recording budget n b (s, jobs) =
        ((drain shop budget n b s).1, (drain shop budget n b s).2, jobs') ∧
      Told budget units before (drain shop budget n b s).1 (drain shop budget n b s).2.2 jobs'
        log' := by
  induction n generalizing b s jobs log with
  | zero => exact ⟨jobs, log, rfl, h⟩
  | succ n ih =>
    cases hq : b.queue with
    | nil =>
      -- the queue is empty, so the batch stands still
      rw [drain_of_nil _ _ _ _ hq, drain_of_nil _ _ _ _ hq]
      exact ⟨jobs, log, rfl, h⟩
    | cons p rest =>
      rw [drain_of_cons _ _ _ _ hq, drain_of_cons _ _ _ _ hq, attempt_eq_settle,
        attempt_eq_settle, attemptIn_recording]
      obtain ⟨log', hnext⟩ := h.next hshop hq
      exact ih hnext

/-- Attempts can be counted in two parts. -/
theorem drain_add (shop : Workshop S) (budget n m : Nat) (b : Batch) (s : S) :
    drain shop budget (n + m) b s =
      drain shop budget m (drain shop budget n b s).1 (drain shop budget n b s).2 := by
  induction n generalizing b s with
  | zero => rw [Nat.zero_add]; rfl
  | succ n ih =>
    rw [Nat.add_right_comm]
    cases hq : b.queue with
    | nil => rw [drain_of_nil _ _ _ _ hq, drain_of_nil _ _ _ _ hq, drain_of_nil _ _ _ _ hq]
    | cons p rest => rw [drain_of_cons _ _ _ _ hq, drain_of_cons _ _ _ _ hq, ih]

/-- The failures noted at the end, in a journal that keeps everything. -/
theorem exists_noteFailures (hshop : shop.Journals) (ps : List Progress) {s : S × Journal}
    (hs : s.2.capacity = none) :
    ∃ log : List (UnitId × Entry),
      (noteFailures shop (ps.map Progress.failure) s).2.entries = s.2.entries ++ log.map (·.2) ∧
        log.map (fun x => (x.1, x.2.unit, x.2.event)) =
          ps.map fun p => (p.unit, p.name, .recompileFailed p.failures p.lastError) := by
  -- each note is the next entry, so the journal changes along with the list
  induction ps generalizing s with
  | nil => exact ⟨[], (List.append_nil _).symm, rfl⟩
  | cons p ps ih =>
    let e : Event := .recompileFailed p.failures p.lastError
    have hnote : (shop.note p.name e s).2 = s.2.log p.name e := hshop.note _ _ _
    have hcapacity : (shop.note p.name e s).2.capacity = none := by
      rw [hnote]
      exact hs
    obtain ⟨log, hentries, hlog⟩ := ih hcapacity
    refine ⟨(p.unit, ⟨s.2.next, e.level, p.name, e⟩) :: log, ?_, ?_⟩
    · show (noteFailures shop (ps.map Progress.failure) (shop.note p.name e s)).2.entries = _
      rw [hentries, hnote, Journal.entries_log hs, List.append_assoc]
      rfl
    · rw [List.map_cons, hlog]
      rfl

/-- What the failures noted at the end say of a unit. -/
theorem told_of_failures {log : List (UnitId × Entry)} {ps : List Progress}
    (hlog : log.map (fun x => (x.1, x.2.unit, x.2.event)) =
      ps.map fun p => (p.unit, p.name, .recompileFailed p.failures p.lastError)) (u : UnitId) :
    told u log =
      (ps.filter (·.unit == u)).map fun p => .recompileFailed p.failures p.lastError := by
  calc told u log
      = ((log.map fun x => (x.1, x.2.unit, x.2.event)).filter (·.1 == u)).map (·.2.2) := by
        rw [List.filter_map, List.map_map]
        rfl
    _ = (ps.filter (·.unit == u)).map fun p => .recompileFailed p.failures p.lastError := by
        rw [hlog, List.filter_map, List.map_map]
        rfl

/-- A unit has one record only. -/
theorem filter_unit_of_mem {ps : List Progress} (hps : (ps.map (·.unit)).Nodup) {p : Progress}
    (hp : p ∈ ps) : ps.filter (·.unit == p.unit) = [p] := by
  induction ps with
  | nil => cases hp
  | cons q ps ih =>
    rw [List.map_cons, List.nodup_cons] at hps
    rcases List.mem_cons.mp hp with rfl | hp
    · have hnone : ps.filter (·.unit == p.unit) = [] := by
        -- another record of this unit would be a second one
        refine List.filter_eq_nil_iff.mpr fun q hq heq => hps.1 ?_
        exact beq_iff_eq.mp heq ▸ List.mem_map_of_mem hq
      rw [List.filter_cons, if_pos (beq_self_eq_true _), hnone]
    · have hne : ¬ (q.unit == p.unit) = true := fun heq =>
        hps.1 (beq_iff_eq.mp heq ▸ List.mem_map_of_mem hp)
      rw [List.filter_cons, if_neg hne]
      exact ih hps.2 hp

/-- The answer of an attempt is the one of the recompiler, which is asked when the start has been
noted. -/
theorem answer_attemptIn (shop : Workshop S) (budget r : Nat) (u : UnitId × String) (s : S) :
    (attemptIn shop budget r u s).1.answer =
      (shop.compile u.1 (shop.note u.2 (.recompileStarted r) s)).1 := by
  unfold attemptIn
  split
  · next h => rw [h]
  · next h => rw [h]

/-! ### The protocol -/

/-- What the journal says when a batch has **ended**: it goes on with what the attempts have noted,
followed by the failures. What it says of a unit can be read off the answers that the unit was
given. -/
structure Recounts (budget : Nat) (units : List (UnitId × String)) (before after : List Entry)
    (b : Batch) (jobs : List Job) (attempts failures : List (UnitId × Entry)) : Prop where
  entries : after = before ++ (attempts ++ failures).map (·.2)
  units : ∀ x ∈ attempts ++ failures, (x.1, x.2.unit) ∈ units
  /-- Final failures come last. -/
  unfailed : ∀ x ∈ attempts, ∀ k detail, x.2.event ≠ .recompileFailed k detail
  failed : ∀ x ∈ failures, ∃ k detail, x.2.event = .recompileFailed k detail
  /-- A unit that has succeeded has failed less often than the budget allows. -/
  succeeded : ∀ p ∈ b.succeeded, ∃ (details : List String) (table : Table Value),
    details.length < budget ∧ answers p.unit jobs = details.map .error ++ [.ok table] ∧
      told p.unit (attempts ++ failures) = retries details ++
        [.recompileStarted (details.length + 1), .recompiled table.size]
  /-- A unit that was given up on has failed as often as the budget allows. -/
  exhausted : ∀ p ∈ b.exhausted, ∃ details : List String, details.length + 1 = budget ∧
    answers p.unit jobs = (details ++ [p.lastError]).map .error ∧
    told p.unit attempts = retries details ++ [.recompileStarted budget] ∧
    told p.unit failures = [.recompileFailed budget p.lastError]

/-- **The end of a batch.** When all attempts have been made the failures are noted. -/
theorem Told.ended (hshop : shop.Journals) {before : List Entry} {s : S × Journal} {jobs : List Job}
    {attempts : List (UnitId × Entry)} (h : Told budget units before b s.2 jobs attempts) :
    ∃ failures, Recounts budget units before (noteFailures shop b.failures s).2.entries b jobs
      attempts failures := by
  obtain ⟨failures, hfailures, hnoted⟩ := exists_noteFailures hshop b.exhausted h.unbounded
  have honce : (((b.queue ++ b.succeeded).map (·.unit)) ++ b.exhausted.map (·.unit)).Nodup := by
    rw [← List.map_append]
    exact h.orderly.once
  obtain ⟨-, hnodup, hapart⟩ := List.nodup_append.mp honce
  -- each entry at the end stems from a record of a unit that was given up on
  have hsource : ∀ x ∈ failures, ∃ p ∈ b.exhausted,
      (p.unit, p.name, Event.recompileFailed p.failures p.lastError) =
        (x.1, x.2.unit, x.2.event) := fun x hx =>
    List.mem_map.mp (hnoted ▸ List.mem_map_of_mem hx)
  refine ⟨failures, ?_, fun x hx => ?_, h.unfailed, fun x hx => ?_, fun p hp => ?_, fun p hp => ?_⟩
  · show (noteFailures shop (b.exhausted.map Progress.failure) s).2.entries = _
    rw [hfailures, h.entries, List.map_append, List.append_assoc]
  · rcases List.mem_append.mp hx with hx | hx
    · exact h.units x hx
    · obtain ⟨p, hp, heq⟩ := hsource x hx
      obtain ⟨hunit, hname, -⟩ : p.unit = x.1 ∧ p.name = x.2.unit ∧ _ := by simpa using heq
      rw [← hunit, ← hname]
      exact h.orderly.roster.mem_iff.mp (List.mem_map_of_mem (List.mem_append_right _ hp))
  · obtain ⟨p, -, heq⟩ := hsource x hx
    exact ⟨_, _, (congrArg (·.2.2) heq).symm⟩
  · obtain ⟨details, table, hless, hanswers, htells⟩ := h.of_succeeded hp
    refine ⟨details, table, hless, hanswers, ?_⟩
    -- a unit that has succeeded is not among those that were given up on
    have hother : b.exhausted.filter (·.unit == p.unit) = [] := by
      refine List.filter_eq_nil_iff.mpr fun q hq heq => hapart p.unit ?_ q.unit ?_ ?_
      · exact List.mem_map_of_mem (List.mem_append_right _ hp)
      · exact List.mem_map_of_mem hq
      · exact (beq_iff_eq.mp heq).symm
    rw [told_append, htells, told_of_failures hnoted, hother]
    exact List.append_nil _
  · obtain ⟨details, hlength, hanswers, htells⟩ := h.of_exhausted hp
    refine ⟨details, hlength, hanswers, htells, ?_⟩
    -- its record is the only one of the unit, so its failure is noted once
    rw [told_of_failures hnoted, filter_unit_of_mem hnodup hp, List.map_singleton,
      (h.orderly.exhausted p hp).2]

/-- A batch **follows the protocol** from a state with a journal: what holds at every moment, which
programs get to the end, and what is found in the journal there. -/
structure FollowsProtocol (shop : Workshop (S × Journal)) (budget : Nat)
    (units : List (UnitId × String)) (s : S × Journal) : Prop where
  /-- After any number of attempts each unit is in one place and in a phase that belongs there. -/
  orderly : ∀ n, Orderly budget units (drain shop budget n (ofUnits units) s).1
  /-- Whatever a unit that waits is answered, the change of phase that this asks for is allowed. -/
  accepted : ∀ n, ∀ p ∈ (drain shop budget n (ofUnits units) s).1.queue, ∀ answer,
    p.phase.allows (p.requested budget answer) = true
  /-- So an attempt changes the batch as it would without a test. -/
  attempt : ∀ n p rest, (drain shop budget n (ofUnits units) s).1.queue = p :: rest →
    let b := (drain shop budget n (ofUnits units) s).1
    let started := shop.note p.name (.recompileStarted p.attempt)
      (drain shop budget n (ofUnits units) s).2
    (drain shop budget (n + 1) (ofUnits units) s).1 =
      ({ b with queue := rest, attempts := b.attempts.next } : Batch).file
        (p.moved budget (shop.compile p.unit started).1)
  /-- The counters of a unit never exceed the budget, and they fit in their words. -/
  counted : ∀ n,
    (∀ p ∈ (drain shop budget n (ofUnits units) s).1.records,
      p.failures ≤ budget ∧ p.failures < UInt32.size) ∧
    ∀ p ∈ (drain shop budget n (ofUnits units) s).1.queue,
      p.attempt ≤ budget ∧ p.attempt < UInt32.size
  /-- The counter of all attempts has counted the compilations, in a word that may be too small. -/
  tallied : ∀ n, (drain shop budget n (ofUnits units) s).1.attempts =
    .ofNat ((drain shop.recording budget n (ofUnits units) (s, [])).2.2.countP Job.isCompile)
  /-- Units and budget bound the compilations. -/
  compiled : compilations shop budget units s ≤ units.length * budget
  /-- A program gets to the end, unless it checks its arithmetic and the word is too small. -/
  completes : ∀ arith, runUnder arith shop budget units s =
    if arith = .checked ∧ UInt32.size ≤ compilations shop budget units s then none
    else some (run shop budget units s)
  /-- At the end nothing waits, the phases match the lists, and the journal says what has been
  answered. -/
  ended : ∀ arith b s', runUnder arith shop budget units s = some (b, s') →
    b.queue = [] ∧ Orderly budget units b ∧
      ∃ (jobs : List Job) (attempts failures : List (UnitId × Entry)),
        run shop.recording budget units (s, []) = (b, s', jobs) ∧
          Recounts budget units s.2.entries s'.2.entries b jobs attempts failures

/-- **Batches of distinct units follow the protocol**, whatever the recompiler does to the world and
whatever it answers. -/
theorem run_followsProtocol (recompile : Recompiler σ) (r : Reloader)
    {units : List (UnitId × String)} (hunits : (units.map (·.1)).Nodup) {budget : Nat}
    (hbudget : 1 ≤ budget) (hword : budget < UInt32.size) (w : World σ) {journal : Journal}
    (hjournal : journal.capacity = none) :
    FollowsProtocol (r.workshop recompile) budget units (w, journal) := by
  let shop := r.workshop recompile
  have hshop : shop.Journals := r.journals_workshop recompile
  have hnodup : units.Nodup := .of_map _ hunits
  have htold : ∀ n, ∃ jobs log, drain shop.recording budget n (ofUnits units) ((w, journal), []) =
        ((drain shop budget n (ofUnits units) (w, journal)).1,
          (drain shop budget n (ofUnits units) (w, journal)).2, jobs) ∧
      Told budget units journal.entries (drain shop budget n (ofUnits units) (w, journal)).1
        (drain shop budget n (ofUnits units) (w, journal)).2.2 jobs log := fun n =>
    Told.drain (s := (w, journal)) hshop n (told_ofUnits hunits hbudget hjournal)
  -- the invariant holds after any number of attempts, and the first five clauses are read off it
  have horderly (n : Nat) :
      Orderly budget units (drain shop budget n (ofUnits units) (w, journal)).1 := by
    obtain ⟨_, _, -, h⟩ := htold n
    exact h.orderly
  refine ⟨horderly, fun n p hp => ?_, fun n p rest hq => ?_,
    fun n => ⟨fun p hp => ?_, fun p hp => ?_⟩, fun n => ?_, compilations_le hnodup hbudget _ _,
    runUnder_eq hnodup hbudget _ _, fun arith b s' hrun => ?_⟩
  · exact Progress.allows_requested ((horderly n).queue p hp).1 budget
  · have hp := ((horderly n).queue p (hq ▸ List.mem_cons_self)).1
    rw [drain_add shop budget n 1, drain_of_cons shop budget 0 _ hq, attempt_eq_settle,
      settle_eq_file hp, answer_attemptIn]
    rfl
  · have hle := (horderly n).failures_le hp
    exact ⟨hle, Nat.lt_of_le_of_lt hle hword⟩
  · have hle : p.attempt ≤ budget := ((horderly n).queue p hp).2
    exact ⟨hle, Nat.lt_of_le_of_lt hle hword⟩
  · obtain ⟨jobs, _, hjobs, h⟩ := htold n
    rw [hjobs]
    exact h.counter
  · -- the outcome of a program that gets there is that of the batch
    have heq : run shop budget units (w, journal) = (b, s') := by
      rw [runUnder_eq hnodup hbudget] at hrun
      split at hrun
      · cases hrun
      · exact Option.some.inj hrun
    -- as many attempts as units and budget allow empty the queue
    obtain ⟨_, -, hover⟩ := run_eq shop hnodup hbudget (w, journal)
    obtain ⟨jobs, attempts, hjobs, h⟩ := htold (bound units.length budget)
    obtain ⟨failures, hrecounts⟩ := h.ended hshop
    have hrecorded : run shop.recording budget units ((w, journal), []) =
        ((run shop budget units (w, journal)).1, (run shop budget units (w, journal)).2, jobs) := by
      rw [run, hjobs]
      exact congrArg (_, ·) (noteFailures_recording shop _ _ _)
    have hqueue : (run shop budget units (w, journal)).1.queue = [] := by rw [hover]
    have hlast : Orderly budget units (run shop budget units (w, journal)).1 := horderly _
    rw [heq] at hrecorded hqueue hlast
    refine ⟨hqueue, hlast, jobs, attempts, failures, hrecorded, ?_⟩
    obtain ⟨rfl, rfl⟩ := Prod.mk.inj heq
    exact hrecounts

section Example

open Scenario.TwoUnits Recompiler

/-- Unit `a` needs what `b` exports, which is attempted after it. -/
theorem run_followsProtocol_importing :
    FollowsProtocol (reloader.workshop (onUnit "a" (importing "b" "f" "f") (renewing "f"))) 2
        [(⟨1⟩, "a"), (⟨0⟩, "b")] (bare, .empty none) ∧
      ((run (reloader.workshop (onUnit "a" (importing "b" "f" "f") (renewing "f"))) 2
          [(⟨1⟩, "a"), (⟨0⟩, "b")] (bare, .empty none)).2.2.entries.map fun e =>
            (e.unit, e.event)) =
        [("a", .recompileStarted 1), ("a", .recompileRetry 1 "b.f is not defined"),
          ("b", .recompileStarted 1), ("b", .recompiled 1),
          ("a", .recompileStarted 2), ("a", .recompiled 1)] :=
  ⟨run_followsProtocol _ reloader (by decide) (by decide) (by decide) bare rfl, by decide +kernel⟩

end Example

end Batch

end HotReload
