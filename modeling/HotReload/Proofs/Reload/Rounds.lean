import HotReload.Proofs.Reload.Attempts
import Mathlib.Data.List.Nodup
import Mathlib.Logic.Function.Iterate

/-!
# Rounds

The queue of a batch puts a unit that fails behind all that wait. From outside this cannot be told
from going over the batch in *rounds* (`Batch.rounds`): in each round every unit that has failed in
all rounds before it is attempted once, in the order of the batch. The number of rounds is the
budget.

A workshop is any state-changing function here, so what one attempt installs or spoils can decide
how a later one ends. To compare more than the outcomes, `Workshop.recording` writes down each
compilation with its answer and each installation. `Batch.GoesByRounds` says that the queue does
what the rounds do, and what that means for the result; `Batch.run_goesByRounds` proves it.

The proof takes the queue apart round by round. While one round is made the units of the next
gather behind it, so the queue is at all times a rest of this round followed by a beginning of the
next (`Batch.drain_round`). Between two rounds it lists the units that have failed so far
(`Batch.drain_rounds`).
-/

namespace HotReload

variable {S : Type}

/-- A counter goes on from where it is. -/
theorem Counter.iterate_next_ofNat (n m : Nat) : next^[n] (ofNat m) = ofNat (m + n) := by
  induction n generalizing m with
  | zero => rfl
  | succ n ih => rw [Function.iterate_succ_apply, next_ofNat, ih, Nat.add_right_comm, Nat.add_assoc]

/-! ### What is recorded of a batch -/

/-- A **trial**: the unit that was compiled, with its name, and the answer. -/
structure Trial where
  unit : UnitId × String
  answer : Except String (Table Value)

/-- What a batch has others do: compile a unit, with this answer, or install a table. -/
inductive Job where
  | compile (unit : UnitId) (answer : Except String (Table Value))
  | install (unit : UnitId) (table : Table Value)

/-- True of compilations. -/
def Job.isCompile : Job → Bool
  | compile _ _ => true
  | install _ _ => false

namespace Trial

/-- What is wrong, if the trial has failed. -/
def error? (t : Trial) : Option String :=
  match t.answer with
  | .ok _ => none
  | .error detail => some detail

/-- True if there is no table. -/
def failed (t : Trial) : Bool := t.error?.isSome

/-- The jobs of a trial: a table is installed as soon as it is there. -/
def jobs (t : Trial) : List Job :=
  .compile t.unit.1 t.answer ::
    match t.answer with
    | .ok table => [.install t.unit.1 table]
    | .error _ => []

@[simp] theorem error?_ok (u : UnitId × String) (table : Table Value) :
    error? ⟨u, .ok table⟩ = none := rfl

@[simp] theorem error?_error (u : UnitId × String) (detail : String) :
    error? ⟨u, .error detail⟩ = some detail := rfl

@[simp] theorem failed_ok (u : UnitId × String) (table : Table Value) :
    failed ⟨u, .ok table⟩ = false := rfl

@[simp] theorem failed_error (u : UnitId × String) (detail : String) :
    failed ⟨u, .error detail⟩ = true := rfl

/-- Each trial has one compilation. -/
theorem countP_jobs (t : Trial) : t.jobs.countP Job.isCompile = 1 := by
  unfold jobs
  split <;> rfl

/-- The errors of a unit, the oldest first. -/
def errors (u : UnitId × String) (ts : List Trial) : List String :=
  ts.filterMap fun t => if t.unit = u then t.error? else none

/-- The last error of a unit. -/
def lastError (u : UnitId × String) (ts : List Trial) : String :=
  ((errors u ts).getLast?).getD ""

/-- Errors come in the order of the trials. -/
theorem errors_append (u : UnitId × String) (ts ts' : List Trial) :
    errors u (ts ++ ts') = errors u ts ++ errors u ts' := List.filterMap_append

end Trial

/-- The same workshop, which writes down its **jobs**. -/
def Workshop.recording (shop : Workshop S) : Workshop (S × List Job) where
  compile u s := ((shop.compile u s.1).1, (shop.compile u s.1).2,
    s.2 ++ [.compile u (shop.compile u s.1).1])
  install u table s := (shop.install u table s.1, s.2 ++ [.install u table])
  note unit e s := (shop.note unit e s.1, s.2)

namespace Batch

/-! ### The reference -/

section Reference

variable (shop : Workshop S) (budget : Nat)

/-- The attempt that round `r` makes on a unit. The unit is told that it is tried again only if
there is another round. -/
def attemptIn (r : Nat) (u : UnitId × String) (s : S) : Trial × S :=
  match shop.compile u.1 (shop.note u.2 (.recompileStarted r) s) with
  | (.ok table, s) =>
    (⟨u, .ok table⟩, shop.note u.2 (.recompiled table.size) (shop.install u.1 table s))
  | (.error detail, s) =>
    (⟨u, .error detail⟩, if r < budget then shop.note u.2 (.recompileRetry r detail) s else s)

/-- Round `r`: each of these units is attempted once, in this order. -/
def round (r : Nat) : List (UnitId × String) → S → List Trial × S
  | [], s => ([], s)
  | u :: us, s =>
    let (t, s) := attemptIn shop budget r u s
    let (ts, s) := round r us s
    (t :: ts, s)

/-- The units that have failed in all of these rounds, in the order of the batch. -/
def failing (units : List (UnitId × String)) (rounds : List (List Trial)) :
    List (UnitId × String) :=
  units.filter fun u => rounds.all fun ts => ts.any fun t => t.unit == u && t.failed

/-- **The first `n` rounds** over a batch, with the trials of each. -/
def rounds (units : List (UnitId × String)) : Nat → S → List (List Trial) × S
  | 0, s => ([], s)
  | n + 1, s =>
    let (before, s) := rounds units n s
    let (ts, s) := round shop budget (n + 1) (failing units before) s
    (before ++ [ts], s)

end Reference

/-- How many **compilations** there are in a batch. -/
def compilations (shop : Workshop S) (budget : Nat) (units : List (UnitId × String)) (s : S) : Nat :=
  (run shop.recording budget units (s, [])).2.2.countP Job.isCompile

/-- A batch **goes by rounds**: it has the jobs done that the rounds have done, in the same order
and with the same effect, and each unit fares as it does there. -/
structure GoesByRounds (shop : Workshop S) (budget : Nat) (units : List (UnitId × String)) (s : S) :
    Prop where
  /-- The loop comes to its end. -/
  ended : (run shop budget units s).1.queue = []
  /-- The failures are noted when all rounds have been made. -/
  state : (run shop budget units s).2 = noteFailures shop (run shop budget units s).1.failures
    (rounds shop budget units budget s).2
  /-- Recording does not interfere, and what is recorded are the jobs of the rounds. -/
  jobs : run shop.recording budget units (s, []) = ((run shop budget units s).1,
    (run shop budget units s).2, (rounds shop budget units budget s).1.flatten.flatMap Trial.jobs)
  /-- Every unit is in one of the two lists, once. -/
  parted : ((run shop budget units s).1.reloaded ++
    (run shop budget units s).1.exhausted.map (·.unit)).Perm (units.map (·.1))
  /-- Units succeed round after round, and within a round in the order of the batch. -/
  reloaded : (run shop budget units s).1.reloaded =
    (rounds shop budget units budget s).1.flatMap fun ts =>
      (units.filter fun u => ts.any fun t => t.unit == u && !t.failed).map (·.1)
  /-- The units that have failed in every round are given up on, in the order of the batch. -/
  exhausted : (run shop budget units s).1.exhausted.map (·.unit) =
    (failing units (rounds shop budget units budget s).1).map (·.1)
  /-- Each of them has failed as often as the budget allows, and is reported with its last error. -/
  failures : (run shop budget units s).1.failures =
    (failing units (rounds shop budget units budget s).1).map fun u =>
      ⟨u.2, budget, Trial.lastError u (rounds shop budget units budget s).1.flatten⟩
  errors : ∀ u ∈ failing units (rounds shop budget units budget s).1,
    (Trial.errors u (rounds shop budget units budget s).1.flatten).length = budget
  /-- The attempts are the compilations, and their counter shows how many they are. -/
  attempts : (run shop budget units s).1.attempts.word.toNat = compilations shop budget units s
  /-- No counter leaves its word, so programs get here whatever their arithmetic. -/
  completes : ∀ arith, runUnder arith shop budget units s = some (run shop budget units s)
  inWord : (run shop budget units s).1.failures.map Failure.inWord =
    (run shop budget units s).1.failures

/-! ### One attempt -/

section Attempt

variable (shop : Workshop S) (budget : Nat)

/-- What becomes of a batch when the unit taken from its queue gets this answer. -/
def settle (p : Progress) (answer : Except String (Table Value)) (b : Batch) : Batch :=
  match answer with
  | .ok _ =>
    { b with attempts := b.attempts.next, succeeded := b.succeeded ++ [p.advance .succeeded] }
  | .error detail =>
    if p.failures + 1 < budget then
      { b with
        attempts := b.attempts.next
        queue := b.queue ++ [(p.failedWith detail).advance .retrying] }
    else
      { b with
        attempts := b.attempts.next
        exhausted := b.exhausted ++ [(p.failedWith detail).advance .failed] }

/-- An attempt from the queue does what the round of its number does. -/
theorem attempt_eq_settle (p : Progress) (b : Batch) (s : S) :
    attempt shop budget p b s =
      (b.settle budget p (attemptIn shop budget p.attempt (p.unit, p.name) s).1.answer,
        (attemptIn shop budget p.attempt (p.unit, p.name) s).2) := by
  unfold attemptIn
  split
  case h_1 table s' h =>
    rw [attempt_of_ok shop budget b (congrArg Prod.fst h), h]
    rfl
  case h_2 detail s' h =>
    rw [attempt_of_error shop budget b (congrArg Prod.fst h), h]
    -- whether the unit is queued again or given up on is decided alike on both sides
    by_cases hp : p.failures + 1 < budget
    · simp [settle, Progress.failedWith, Progress.attempt, hp]
    · simp [settle, Progress.failedWith, Progress.attempt, hp]

/-- A trial is one of the unit that was attempted. -/
theorem unit_attemptIn (r : Nat) (u : UnitId × String) (s : S) :
    (attemptIn shop budget r u s).1.unit = u := by
  unfold attemptIn
  split <;> rfl

/-- A recorded attempt is the same attempt, and its jobs come last. -/
theorem attemptIn_recording (r : Nat) (u : UnitId × String) (s : S) (js : List Job) :
    attemptIn shop.recording budget r u (s, js) =
      ((attemptIn shop budget r u s).1, (attemptIn shop budget r u s).2,
        js ++ (attemptIn shop budget r u s).1.jobs) := by
  unfold attemptIn
  -- the recording lets the workshop do what it does anyhow
  generalize hc : shop.compile u.1 (shop.note u.2 (.recompileStarted r) s) = c
  obtain ⟨answer | table, s'⟩ := c
  · simp only [Workshop.recording, hc, Trial.jobs]
    split <;> rfl
  · simp [Workshop.recording, hc, Trial.jobs]

end Attempt

/-! ### One round -/

section Round

variable (shop : Workshop S) (budget : Nat)

/-- In a round each of its units has one trial, in their order. -/
theorem units_round (r : Nat) (us : List (UnitId × String)) (s : S) :
    (round shop budget r us s).1.map (·.unit) = us := by
  induction us generalizing s with
  | nil => rfl
  | cons u us ih =>
    show (attemptIn shop budget r u s).1.unit :: List.map (·.unit)
      (round shop budget r us (attemptIn shop budget r u s).2).1 = u :: us
    rw [unit_attemptIn, ih]

/-- A recorded round is the same round, with the jobs of its trials. -/
theorem round_recording (r : Nat) (us : List (UnitId × String)) (s : S) (js : List Job) :
    round shop.recording budget r us (s, js) =
      ((round shop budget r us s).1, (round shop budget r us s).2,
        js ++ (round shop budget r us s).1.flatMap Trial.jobs) := by
  induction us generalizing s js with
  | nil =>
    show (([] : List Trial), s, js) = ([], s, js ++ [])
    rw [List.append_nil]
  | cons u us ih =>
    simp only [round]
    rw [attemptIn_recording, ih, List.flatMap_cons, List.append_assoc]

/-- Settling leaves alone what waits already. -/
theorem settle_withQueue (p : Progress) (answer : Except String (Table Value)) (b : Batch)
    (front : List Progress) :
    ({ b with queue := front ++ b.queue } : Batch).settle budget p answer =
      { b.settle budget p answer with queue := front ++ (b.settle budget p answer).queue } := by
  unfold settle
  split
  · rfl
  · split
    · simp only [List.append_assoc]
    · rfl

/-- A **round of the queue**. If units that stand `r` failures deep come first, as many attempts as
there are of them make round `r + 1`, and what they leave to be done gathers behind the rest. -/
theorem drain_round {r : Nat} (stand : UnitId × String → Progress)
    (hstand : ∀ u, (stand u).unit = u.1 ∧ (stand u).name = u.2 ∧ (stand u).failures = r)
    (n : Nat) (us : List (UnitId × String)) (b : Batch) (s : S) :
    drain shop budget (us.length + n) { b with queue := us.map stand ++ b.queue } s =
      drain shop budget n
        ((round shop budget (r + 1) us s).1.foldl
          (fun b t => b.settle budget (stand t.unit) t.answer) b)
        (round shop budget (r + 1) us s).2 := by
  induction us generalizing b s with
  | nil =>
    show drain shop budget (0 + n) _ s = drain shop budget n b s
    rw [Nat.zero_add]
    rfl
  | cons u us ih =>
    -- the first unit of the queue is attempted, and the others move up
    obtain ⟨hunit, hname, hfailures⟩ := hstand u
    have hattempt : (stand u).attempt = r + 1 := by rw [Progress.attempt, hfailures]
    rw [List.length_cons, Nat.add_right_comm, drain_of_cons shop budget (us.length + n) s rfl,
      attempt_eq_settle, hattempt, hunit, hname]
    show drain shop budget (us.length + n)
      (({ b with queue := us.map stand ++ b.queue } : Batch).settle budget _ _) _ = _
    -- what is queued anew comes behind the units of this round
    rw [settle_withQueue, ih]
    simp only [round, List.foldl_cons, unit_attemptIn]

/-- The units that fail in these trials, as they leave them: one failure more, and on to another
phase. -/
def setBack (stand : UnitId × String → Progress) (phase : Phase) (ts : List Trial) :
    List Progress :=
  ts.filterMap fun t =>
    t.error?.map fun detail => ((stand t.unit).failedWith detail).advance phase

@[simp] theorem setBack_nil (stand : UnitId × String → Progress) (phase : Phase) :
    setBack stand phase [] = [] := rfl

@[simp] theorem setBack_ok (stand : UnitId × String → Progress) (phase : Phase)
    (u : UnitId × String) (table : Table Value) (ts : List Trial) :
    setBack stand phase (⟨u, .ok table⟩ :: ts) = setBack stand phase ts := rfl

@[simp] theorem setBack_error (stand : UnitId × String → Progress) (phase : Phase)
    (u : UnitId × String) (detail : String) (ts : List Trial) :
    setBack stand phase (⟨u, .error detail⟩ :: ts) =
      ((stand u).failedWith detail).advance phase :: setBack stand phase ts := rfl

/-- What a round adds to the places of a batch. -/
theorem foldl_settle {r : Nat} (stand : UnitId × String → Progress)
    (hstand : ∀ u, (stand u).failures = r) (ts : List Trial) (b : Batch) :
    ts.foldl (fun b t => b.settle budget (stand t.unit) t.answer) b =
      { queue := b.queue ++ if r + 1 < budget then setBack stand .retrying ts else []
        succeeded := b.succeeded ++
          (ts.filter fun t => !t.failed).map fun t => (stand t.unit).advance .succeeded
        exhausted := b.exhausted ++ if r + 1 < budget then [] else setBack stand .failed ts
        attempts := Counter.next^[ts.length] b.attempts } := by
  induction ts generalizing b with
  | nil => simp
  | cons t ts ih =>
    rw [List.foldl_cons, ih]
    obtain ⟨u, detail | table⟩ := t
    · -- all units of a round have failed equally often, so a failure sends all of them the same way
      by_cases hr : r + 1 < budget
      · simp [settle, hstand, hr]
      · simp [settle, hstand, hr]
    · simp [settle]

end Round

/-! ### All rounds -/

section Rounds

variable (shop : Workshop S) (budget : Nat) (units : List (UnitId × String))

/-- The trials of round `n + 1`. -/
def nextTrials (n : Nat) (s : S) : List Trial :=
  (round shop budget (n + 1) (failing units (rounds shop budget units n s).1)
    (rounds shop budget units n s).2).1

/-- One more round is added at the end. -/
theorem rounds_succ (n : Nat) (s : S) :
    (rounds shop budget units (n + 1) s).1 =
      (rounds shop budget units n s).1 ++ [nextTrials shop budget units n s] := rfl

/-- The units of the next round are those that have failed in all rounds. -/
theorem units_nextTrials (n : Nat) (s : S) :
    (nextTrials shop budget units n s).map (·.unit) =
      failing units (rounds shop budget units n s).1 := units_round shop budget (n + 1) _ _

/-- Recorded rounds are the same rounds, with the jobs of their trials. -/
theorem rounds_recording (n : Nat) (s : S) :
    rounds shop.recording budget units n (s, []) =
      ((rounds shop budget units n s).1, (rounds shop budget units n s).2,
        (rounds shop budget units n s).1.flatten.flatMap Trial.jobs) := by
  induction n with
  | zero => rfl
  | succ n ih => simp [rounds, ih, round_recording]

variable {shop budget units}

/-- The units of a round that a trial of some kind concerns. -/
theorem filter_any_of_nodup {ts : List Trial} (hts : (ts.map (·.unit)).Nodup) (p : Trial → Bool) :
    ((ts.map (·.unit)).filter fun u => ts.any fun t => t.unit == u && p t) =
      (ts.filter p).map (·.unit) := by
  rw [List.filter_map]
  refine congrArg _ (List.filter_congr fun t ht => ?_)
  rw [Function.comp_apply, Bool.eq_iff_iff, List.any_eq_true]
  constructor
  · rintro ⟨t', ht', hu⟩
    rw [Bool.and_eq_true, beq_iff_eq] at hu
    -- there is one trial of this unit, so it is the one that was looked for
    exact List.inj_on_of_nodup_map hts ht' ht hu.1 ▸ hu.2
  · intro hp
    exact ⟨t, ht, by simp [hp]⟩

/-- The same, read off the whole batch, of which the round takes the units that pass a test. -/
theorem filter_any_of_filter (hunits : units.Nodup) {ts : List Trial} {q : UnitId × String → Bool}
    (hts : ts.map (·.unit) = units.filter q) (p : Trial → Bool) :
    (units.filter fun u => ts.any fun t => t.unit == u && p t) =
      (ts.filter p).map (·.unit) := by
  rw [← filter_any_of_nodup (hts ▸ hunits.filter q) p, hts, List.filter_filter]
  refine List.filter_congr fun u _ => ?_
  rw [eq_comm, Bool.and_eq_left_iff_imp]
  intro h
  -- a unit with a trial takes part in the round
  obtain ⟨t, ht, hu⟩ := List.any_eq_true.mp h
  rw [Bool.and_eq_true, beq_iff_eq] at hu
  have hmem : u ∈ units.filter q := hts ▸ hu.1 ▸ List.mem_map_of_mem ht
  exact (List.mem_filter.mp hmem).2

/-- What is left after another round are the units that fail there. -/
theorem failing_append (hunits : units.Nodup) {before : List (List Trial)} {ts : List Trial}
    (hts : ts.map (·.unit) = failing units before) :
    failing units (before ++ [ts]) = (ts.filter Trial.failed).map (·.unit) := by
  have hsplit : failing units (before ++ [ts]) =
      (failing units before).filter fun u => ts.any fun t => t.unit == u && t.failed := by
    rw [failing, failing, List.filter_filter]
    refine List.filter_congr fun u _ => ?_
    rw [List.all_append, List.all_cons, List.all_nil, Bool.and_true, Bool.and_comm]
  rw [hsplit, ← hts]
  exact filter_any_of_nodup (hts ▸ hunits.filter _) _

/-- In a round a unit has the one error of its trial. -/
theorem errors_of_mem {ts : List Trial} (hts : (ts.map (·.unit)).Nodup) {t : Trial} (ht : t ∈ ts) :
    Trial.errors t.unit ts = t.error?.toList := by
  induction ts with
  | nil => cases ht
  | cons t' ts ih =>
    rw [List.map_cons, List.nodup_cons] at hts
    unfold Trial.errors at ih ⊢
    obtain rfl | ht := List.mem_cons.mp ht
    · -- no later trial is of the same unit
      have hnone : (ts.filterMap fun t' => if t'.unit = t.unit then t'.error? else none) = [] := by
        rw [List.filterMap_eq_nil_iff]
        intro t' ht'
        have hne : t'.unit ≠ t.unit := fun h => hts.1 (h ▸ List.mem_map_of_mem ht')
        rw [if_neg hne]
      rw [List.filterMap_cons, if_pos rfl, hnone]
      cases t.error? <;> rfl
    · have hne : t'.unit ≠ t.unit := fun h => hts.1 (h ▸ List.mem_map_of_mem ht)
      rw [List.filterMap_cons, if_neg hne]
      exact ih hts.2 ht

/-- A unit that fails in another round has one error more, and that is its last. -/
theorem errors_of_failing (hunits : units.Nodup) {before : List (List Trial)} {ts : List Trial}
    (hts : ts.map (·.unit) = failing units before) {t : Trial} (ht : t ∈ ts) {detail : String}
    (herror : t.error? = some detail) :
    Trial.errors t.unit (before ++ [ts]).flatten =
      Trial.errors t.unit before.flatten ++ [detail] := by
  rw [List.flatten_concat, Trial.errors_append, errors_of_mem (hts ▸ hunits.filter _) ht, herror]
  rfl

variable (shop budget units) in
/-- A unit that has failed in `n` rounds has `n` errors. -/
theorem length_errors_rounds (hunits : units.Nodup) (n : Nat) (s : S) :
    ∀ u ∈ failing units (rounds shop budget units n s).1,
      (Trial.errors u (rounds shop budget units n s).1.flatten).length = n := by
  induction n with
  | zero =>
    intro u _
    rfl
  | succ n ih =>
    have hts := units_nextTrials shop budget units n s
    intro u hu
    rw [rounds_succ] at hu ⊢
    rw [failing_append hunits hts] at hu
    -- who is failing now has failed in the last round, and has been failing before it
    obtain ⟨t, ht, rfl⟩ := List.mem_map.mp hu
    obtain ⟨ht, hfailed⟩ := List.mem_filter.mp ht
    obtain ⟨detail, herror⟩ := Option.isSome_iff_exists.mp hfailed
    rw [errors_of_failing hunits hts ht herror, List.length_append,
      ih t.unit (hts ▸ List.mem_map_of_mem ht)]
    rfl

variable (shop budget units) in
/-- Each round goes over units of the batch in the order of the batch. -/
theorem units_of_mem_rounds (n : Nat) (s : S) :
    ∀ ts ∈ (rounds shop budget units n s).1, ∃ q, ts.map (·.unit) = units.filter q := by
  induction n with
  | zero =>
    intro ts hts
    cases hts
  | succ n ih =>
    intro ts hts
    rw [rounds_succ] at hts
    obtain hts | hts := List.mem_append.mp hts
    · exact ih ts hts
    · -- the new round is made of the units that are failing
      rw [List.mem_singleton.mp hts, units_nextTrials]
      exact ⟨_, rfl⟩

variable (shop budget units) in
/-- No round has more trials than the batch has units. -/
theorem length_flatten_rounds_le (n : Nat) (s : S) :
    (rounds shop budget units n s).1.flatten.length ≤ units.length * n := by
  induction n with
  | zero => exact Nat.zero_le _
  | succ n ih =>
    have hround := congrArg List.length (units_nextTrials shop budget units n s)
    have hfilter : (failing units (rounds shop budget units n s).1).length ≤ units.length :=
      List.length_filter_le ..
    rw [List.length_map] at hround
    rw [rounds_succ, List.flatten_concat, List.length_append, hround, Nat.mul_succ]
    exact Nat.add_le_add ih hfilter

/-! ### The queue between two rounds -/

/-- How a unit stands in the queue that has failed in all `n` rounds made so far. -/
def standing (phase : Phase) (n : Nat) (ts : List Trial) (u : UnitId × String) : Progress :=
  ⟨u.1, u.2, phase, n, Trial.lastError u ts⟩

/-- The units that a round sends to another phase stand as another failure lets them. -/
theorem setBack_standing (hunits : units.Nodup) {before : List (List Trial)} {ts : List Trial}
    (hts : ts.map (·.unit) = failing units before) {phase phase' : Phase}
    (hphase : phase.allows phase' = true) (n : Nat) :
    setBack (standing phase n before.flatten) phase' ts =
      (failing units (before ++ [ts])).map
        (standing phase' (n + 1) (before ++ [ts]).flatten) := by
  rw [failing_append hunits hts, List.map_map, ← List.filterMap_eq_map, List.filterMap_filter]
  refine List.filterMap_congr fun t ht => ?_
  -- a unit that succeeds does not stand in the queue again
  cases herror : t.error? with
  | none => simp [Trial.failed, herror]
  | some detail =>
    have herrors := errors_of_failing hunits hts ht herror
    have hlast : Trial.lastError t.unit (before ++ [ts]).flatten = detail := by
      rw [Trial.lastError, herrors, List.getLast?_concat]
      rfl
    rw [List.flatten_concat] at hlast
    simp [Trial.failed, herror, standing, Progress.failedWith, Progress.advance, hphase, hlast]

variable (shop) in
/-- **From one round to the next.** If the queue lists the units that have failed in `n` rounds, as
many attempts as there are of them make the next round. -/
theorem drain_next (hunits : units.Nodup) {phase : Phase} (hphase : phase.isTerminal = false)
    (n m : Nat) (done : List Progress) (k : Counter) (s : S) :
    let R := rounds shop budget units n s
    let R' := rounds shop budget units (n + 1) s
    let ts := nextTrials shop budget units n s
    drain shop budget (ts.length + m)
        ⟨(failing units R.1).map (standing phase n R.1.flatten), done, [], k⟩ R.2 =
      drain shop budget m
        ⟨if n + 1 < budget then
            (failing units R'.1).map (standing .retrying (n + 1) R'.1.flatten) else [],
          done ++ (ts.filter fun t => !t.failed).map fun t =>
            (standing phase n R.1.flatten t.unit).advance .succeeded,
          if n + 1 < budget then [] else
            (failing units R'.1).map (standing .failed (n + 1) R'.1.flatten),
          Counter.next^[ts.length] k⟩ R'.2 := by
  intro R R' ts
  have hts : ts.map (·.unit) = failing units R.1 := units_nextTrials shop budget units n s
  have hlength : ts.length = (failing units R.1).length := by rw [← hts, List.length_map]
  have hround : drain shop budget ((failing units R.1).length + m)
        ⟨(failing units R.1).map (standing phase n R.1.flatten) ++ [], done, [], k⟩ R.2 =
      drain shop budget m (ts.foldl
        (fun b t => b.settle budget (standing phase n R.1.flatten t.unit) t.answer)
        ⟨[], done, [], k⟩) R'.2 :=
    drain_round shop budget (standing phase n R.1.flatten) (fun _ => ⟨rfl, rfl, rfl⟩) m _
      ⟨[], done, [], k⟩ R.2
  -- a unit that waits may be sent on or given up on
  have hallows : phase.allows .retrying = true ∧ phase.allows .failed = true := by
    cases phase <;> first | exact ⟨rfl, rfl⟩ | cases hphase
  rw [List.append_nil, ← hlength] at hround
  rw [hround, foldl_settle budget (standing phase n R.1.flatten) (fun _ => rfl),
    setBack_standing hunits hts hallows.1, setBack_standing hunits hts hallows.2]
  rfl

/-- The phase in which a unit waits for round `n + 1`. -/
def waitingPhase (n : Nat) : Phase := if n = 0 then .pending else .retrying

theorem isTerminal_waitingPhase (n : Nat) : (waitingPhase n).isTerminal = false := by
  unfold waitingPhase
  split <;> rfl

variable (shop) in
/-- **The queue after `n` rounds** lists the units that have failed in all of them, unless the
budget is used up: then they have been given up on. -/
theorem drain_rounds (hunits : units.Nodup) (hbudget : 0 < budget) {n : Nat} (hn : n ≤ budget)
    (m : Nat) (s : S) :
    let R := rounds shop budget units n s
    ∃ done : List Progress,
      done.map (·.unit) = (R.1.flatten.filter fun t => !t.failed).map (·.unit.1) ∧
        drain shop budget (R.1.flatten.length + m) (ofUnits units) s =
          drain shop budget m
            ⟨if n < budget then
                (failing units R.1).map (standing (waitingPhase n) n R.1.flatten) else [],
              done,
              if n < budget then [] else
                (failing units R.1).map (standing .failed n R.1.flatten),
              .ofNat R.1.flatten.length⟩ R.2 := by
  induction n generalizing m with
  | zero =>
    -- before the first round all units wait
    refine ⟨[], rfl, ?_⟩
    have hall : failing units [] = units := List.filter_eq_self.mpr fun _ _ => rfl
    rw [if_pos hbudget, if_pos hbudget]
    show drain shop budget (0 + m) (ofUnits units) s =
      drain shop budget m ⟨(failing units []).map _, [], [], .zero⟩ s
    rw [Nat.zero_add, hall]
    rfl
  | succ n ih =>
    intro R
    -- the fuel of the next round is set aside for it
    obtain ⟨done, hdone, hdrain⟩ := ih (Nat.le_of_succ_le hn)
      ((nextTrials shop budget units n s).length + m)
    have hflatten : R.1.flatten =
        (rounds shop budget units n s).1.flatten ++ nextTrials shop budget units n s :=
      List.flatten_concat
    have hlength : R.1.flatten.length = (rounds shop budget units n s).1.flatten.length +
        (nextTrials shop budget units n s).length := by
      rw [hflatten, List.length_append]
    refine ⟨done ++ ((nextTrials shop budget units n s).filter fun t => !t.failed).map fun t =>
      (standing (waitingPhase n) n (rounds shop budget units n s).1.flatten t.unit).advance
        .succeeded, ?_, ?_⟩
    · rw [hflatten, List.filter_append, List.map_append, List.map_append, hdone, List.map_map]
      simp [standing, Function.comp_def]
    · rw [hlength, Nat.add_assoc, hdrain, if_pos (Nat.lt_of_succ_le hn),
        if_pos (Nat.lt_of_succ_le hn),
        drain_next shop hunits (isTerminal_waitingPhase n), Counter.iterate_next_ofNat]
      rfl

variable (shop) in
/-- **A batch ends** after as many rounds as its budget allows. The units that have failed in all of
them are given up on. -/
theorem run_eq (hunits : units.Nodup) (hbudget : 1 ≤ budget) (s : S) :
    let R := rounds shop budget units budget s
    ∃ done : List Progress,
      done.map (·.unit) = (R.1.flatten.filter fun t => !t.failed).map (·.unit.1) ∧
        run shop budget units s =
          let b : Batch := ⟨[], done,
            (failing units R.1).map (standing .failed budget R.1.flatten),
            .ofNat R.1.flatten.length⟩
          (b, noteFailures shop b.failures R.2) := by
  intro R
  -- the bound leaves an attempt for each trial
  obtain ⟨m, hm⟩ : ∃ m, bound units.length budget = R.1.flatten.length + m := by
    apply Nat.exists_eq_add_of_le
    rw [bound, Nat.max_eq_left hbudget]
    exact length_flatten_rounds_le shop budget units budget s
  obtain ⟨done, hdone, hdrain⟩ := drain_rounds shop hunits hbudget (Nat.le_refl budget) m s
  refine ⟨done, hdone, ?_⟩
  rw [run, hm, hdrain, if_neg (Nat.lt_irrefl _), if_neg (Nat.lt_irrefl _), drain_of_nil]
  rfl

end Rounds

/-! ### The recorded jobs -/

section Recording

variable (shop : Workshop S) (budget : Nat)

/-- Recording changes neither the batch nor the state. -/
theorem drain_recording (n : Nat) (b : Batch) (s : S) (js : List Job) :
    ∃ js', drain shop.recording budget n b (s, js) =
      ((drain shop budget n b s).1, (drain shop budget n b s).2, js') := by
  induction n generalizing b s js with
  | zero => exact ⟨js, rfl⟩
  | succ n ih =>
    cases hq : b.queue with
    | nil =>
      rw [drain_of_nil _ _ _ _ hq, drain_of_nil _ _ _ _ hq]
      exact ⟨js, rfl⟩
    | cons p rest =>
      -- the same attempt is made, and only its jobs are added
      rw [drain_of_cons _ _ _ _ hq, drain_of_cons _ _ _ _ hq, attempt_eq_settle,
        attempt_eq_settle, attemptIn_recording]
      exact ih _ _ _

/-- Notes are no jobs. -/
theorem noteFailures_recording (fs : List Failure) (s : S) (js : List Job) :
    noteFailures shop.recording fs (s, js) = (noteFailures shop fs s, js) := by
  induction fs generalizing s with
  | nil => rfl
  | cons f fs ih => exact ih _

/-- A recorded batch is the same batch. -/
theorem run_recording (units : List (UnitId × String)) (s : S) :
    run shop.recording budget units (s, []) = ((run shop budget units s).1,
      (run shop budget units s).2, (run shop.recording budget units (s, [])).2.2) := by
  obtain ⟨js, hdrain⟩ :=
    drain_recording shop budget (bound units.length budget) (ofUnits units) s []
  have hrun : run shop.recording budget units (s, []) =
      ((run shop budget units s).1, (run shop budget units s).2, js) := by
    rw [run, run, hdrain]
    exact congrArg (_, ·) (noteFailures_recording shop _ _ _)
  rw [hrun]

/-- There are as many compilations as trials. -/
theorem countP_flatMap_jobs (ts : List Trial) :
    (ts.flatMap Trial.jobs).countP Job.isCompile = ts.length := by
  induction ts with
  | nil => rfl
  | cons t ts ih =>
    rw [List.flatMap_cons, List.countP_append, Trial.countP_jobs, ih, List.length_cons,
      Nat.add_comm]

end Recording

/-! ### The batch as a whole -/

variable {budget : Nat} {units : List (UnitId × String)}

/-- The jobs of a batch are those of its rounds. -/
theorem jobs_run (hunits : units.Nodup) (hbudget : 1 ≤ budget) (shop : Workshop S) (s : S) :
    (run shop.recording budget units (s, [])).2.2 =
      (rounds shop budget units budget s).1.flatten.flatMap Trial.jobs := by
  obtain ⟨done, -, hrun⟩ := run_eq shop.recording hunits hbudget (s, [])
  rw [hrun, rounds_recording]
  show (noteFailures shop.recording _ _).2 = _
  rw [noteFailures_recording]

/-- No unit is compiled more often than the budget allows. -/
theorem compilations_le (hunits : units.Nodup) (hbudget : 1 ≤ budget) (shop : Workshop S) (s : S) :
    compilations shop budget units s ≤ units.length * budget := by
  rw [compilations, jobs_run hunits hbudget, countP_flatMap_jobs]
  exact length_flatten_rounds_le shop budget units budget s

/-- The counter has counted the compilations. -/
theorem attempts_run (hunits : units.Nodup) (hbudget : 1 ≤ budget) (shop : Workshop S) (s : S) :
    (run shop budget units s).1.attempts = .ofNat (compilations shop budget units s) := by
  obtain ⟨done, -, hrun⟩ := run_eq shop hunits hbudget s
  rw [compilations, jobs_run hunits hbudget, countP_flatMap_jobs, hrun]

/-- **Who gets to the end.** A program stops before the end of a batch only if it checks its
arithmetic and the compilations do not fit in the word in which they are counted. -/
theorem runUnder_eq (hunits : units.Nodup) (hbudget : 1 ≤ budget) (shop : Workshop S) (s : S)
    (arith : Arithmetic) :
    runUnder arith shop budget units s =
      if arith = .checked ∧ UInt32.size ≤ compilations shop budget units s then none
      else some (run shop budget units s) := by
  simp only [runUnder, attempts_run hunits hbudget, Counter.halts_ofNat]

/-- The units that succeed, told by rounds. -/
theorem flatMap_succeeding (hunits : units.Nodup) (shop : Workshop S) (budget n : Nat) (s : S) :
    ((rounds shop budget units n s).1.flatMap fun ts =>
        (units.filter fun u => ts.any fun t => t.unit == u && !t.failed).map (·.1)) =
      ((rounds shop budget units n s).1.flatten.filter fun t => !t.failed).map (·.unit.1) := by
  have hround : ∀ ts ∈ (rounds shop budget units n s).1,
      (units.filter fun u => ts.any fun t => t.unit == u && !t.failed).map (·.1) =
        (ts.filter fun t => !t.failed).map (·.unit.1) := by
    intro ts hts
    -- within a round units and trials are in the same order
    obtain ⟨q, hq⟩ := units_of_mem_rounds shop budget units n s ts hts
    rw [filter_any_of_filter hunits hq, List.map_map]
    rfl
  rw [List.flatMap_congr hround, List.filter_flatten, List.map_flatten, List.map_map]
  rfl

/-- **The queue refines the rounds.** Whatever compiling and installing do to the state, a batch of
distinct units goes by rounds. -/
theorem run_goesByRounds (hunits : (units.map (·.1)).Nodup) (hbudget : 1 ≤ budget)
    (hword : units.length * budget < UInt32.size) (shop : Workshop S) (s : S) :
    GoesByRounds shop budget units s := by
  have hnodup : units.Nodup := .of_map _ hunits
  obtain ⟨done, hdone, hrun⟩ := run_eq shop hnodup hbudget s
  have hover : (run shop budget units s).1.queue = [] := by rw [hrun]
  have hstate : (run shop budget units s).2 = noteFailures shop
      (run shop budget units s).1.failures (rounds shop budget units budget s).2 := by rw [hrun]
  have hfailures : (run shop budget units s).1.failures =
      (failing units (rounds shop budget units budget s).1).map fun u =>
        ⟨u.2, budget, Trial.lastError u (rounds shop budget units budget s).1.flatten⟩ := by
    rw [hrun]
    exact List.map_map
  have hfits : compilations shop budget units s < UInt32.size :=
    Nat.lt_of_le_of_lt (compilations_le hnodup hbudget shop s) hword
  -- the recording workshop makes the same rounds
  have hjobs := (run_recording shop budget units s).trans
    (congrArg (fun jobs => ((run shop budget units s).1, (run shop budget units s).2, jobs))
      (jobs_run hnodup hbudget shop s))
  have hperm := perm_members_run shop budget units s
  rw [members, hover, List.nil_append, List.map_append] at hperm
  refine ⟨hover, hstate, hjobs, hperm, ?_, ?_, hfailures,
    length_errors_rounds shop budget units hnodup budget s, ?_, fun arith => ?_, ?_⟩
  · rw [flatMap_succeeding hnodup, ← hdone, hrun]
    rfl
  · rw [hrun]
    exact List.map_map
  · rw [attempts_run hnodup hbudget, Counter.toNat_word_ofNat, Nat.mod_eq_of_lt hfits]
  · rw [runUnder_eq hnodup hbudget, if_neg fun h => absurd h.2 (Nat.not_le.mpr hfits)]
  · rw [hfailures, List.map_map]
    refine List.map_congr_left fun u hu => ?_
    -- there is a unit, so the budget alone is no larger than all the attempts
    have hpos : 0 < units.length := List.length_pos_of_mem (List.mem_of_mem_filter hu)
    have hlt : budget < UInt32.size := Nat.lt_of_le_of_lt (Nat.le_mul_of_pos_left _ hpos) hword
    rw [Function.comp_apply, Failure.inWord, Nat.mod_eq_of_lt hlt]

/-- A workshop whose state is the list of installed units. Unit `0` needs unit `1` to be installed,
and unit `2` cannot be compiled at all. -/
def needing : Workshop (List UnitId) where
  compile u s :=
    if u = ⟨2⟩ then (.error "broken", s)
    else if u = ⟨0⟩ ∧ ⟨1⟩ ∉ s then (.error "1 is missing", s)
    else (.ok .empty, s)
  install u _ s := s ++ [u]
  note _ _ s := s

/-- The first unit needs the second one, and the third never succeeds. -/
theorem run_goesByRounds_needing :
    GoesByRounds needing 2 [(⟨0⟩, "a"), (⟨1⟩, "b"), (⟨2⟩, "c")] [] ∧
      (run needing 2 [(⟨0⟩, "a"), (⟨1⟩, "b"), (⟨2⟩, "c")] []).1.reloaded = [⟨1⟩, ⟨0⟩] ∧
      (run needing 2 [(⟨0⟩, "a"), (⟨1⟩, "b"), (⟨2⟩, "c")] []).1.failures = [⟨"c", 2, "broken"⟩] ∧
      (run needing 2 [(⟨0⟩, "a"), (⟨1⟩, "b"), (⟨2⟩, "c")] []).1.attempts.word.toNat =
        5 := by
  have hrounds : GoesByRounds needing 2 [(⟨0⟩, "a"), (⟨1⟩, "b"), (⟨2⟩, "c")] [] :=
    run_goesByRounds (by decide) (by decide) (by decide) needing []
  refine ⟨hrounds, hrounds.reloaded.trans ?_, hrounds.failures.trans ?_, hrounds.attempts.trans ?_⟩
  all_goals rfl

end Batch

end HotReload
