import HotReload.Reload.Config
import HotReload.Reload.Counter
import HotReload.Reload.Event
import HotReload.Reload.Phase
import HotReload.World.Units

/-!
# Batches

A *batch* is recompiled unit by unit. A unit that fails is put back behind the others, so one that
depends on a later unit of the batch gets another chance once that unit is in place. After as many
failures as the budget allows the unit is given up on, and the rest of the batch carries on.

The queue knows nothing of worlds. `Workshop` lists what it needs of a state: compiling a unit,
installing a table and noting an event. `Batch.run` is total, because every attempt on a unit but
the last one uses up a part of that unit's budget.

The attempts of all units are counted in one word, which a large batch with a large budget can
leave. `Batch.run` goes on counting then; `Batch.runUnder` says which programs get that far.
-/

namespace HotReload

/-- What a batch does to a state `S`. -/
structure Workshop (S : Type) where
  /-- Makes the new table of a unit, or says why there is none. -/
  compile : UnitId → S → Except String (Table Value) × S
  /-- Puts a new table in place. -/
  install : UnitId → Table Value → S → S
  /-- Notes an event that concerns the named unit. -/
  note : String → Event → S → S

/-- A unit that was given up on. -/
structure Failure where
  unit : String
  attempts : Nat
  detail : String
  deriving DecidableEq, Repr, Inhabited

/-- The same failure with its attempts counted in a word of 32 bits. -/
def Failure.inWord (f : Failure) : Failure := { f with attempts := f.attempts % UInt32.size }

/-- The wording of a failure. -/
def Failure.text (f : Failure) : String :=
  "failed to reload " ++ f.unit ++ " after " ++ toString f.attempts ++ " attempt(s): " ++ f.detail

/-- How far a unit has come in a batch. -/
structure Progress where
  unit : UnitId
  name : String
  phase : Phase
  failures : Nat
  lastError : String
  deriving DecidableEq, Repr, Inhabited

namespace Progress

/-- A unit before its first attempt. -/
def fresh (unit : UnitId) (name : String) : Progress := ⟨unit, name, .pending, 0, ""⟩

/-- Moves on to a phase, if that is allowed. -/
def advance (p : Progress) (phase : Phase) : Progress :=
  if p.phase.allows phase then { p with phase := phase } else p

/-- The number of the next attempt. -/
def attempt (p : Progress) : Nat := p.failures + 1

/-- The same unit after a failed attempt. -/
def failedWith (p : Progress) (detail : String) : Progress :=
  { p with failures := p.failures + 1, lastError := detail }

/-- The failure that a given up unit is reported as. -/
def failure (p : Progress) : Failure := ⟨p.name, p.failures, p.lastError⟩

end Progress

/-- A **batch** under way: the queue, the units that succeeded and those that were given up on, each
in the order in which it happened, and the counter of the attempts made. -/
structure Batch where
  queue : List Progress
  succeeded : List Progress
  exhausted : List Progress
  attempts : Counter
  deriving Inhabited

namespace Batch

variable {S : Type}

/-- The batch before the first attempt. -/
def ofUnits (units : List (UnitId × String)) : Batch :=
  ⟨units.map fun u => .fresh u.1 u.2, [], [], .zero⟩

/-- One attempt on a unit that has been taken from the queue. -/
def attempt (shop : Workshop S) (budget : Nat) (p : Progress) (b : Batch) (s : S) : Batch × S :=
  let s := shop.note p.name (.recompileStarted p.attempt) s
  let b := { b with attempts := b.attempts.next }
  match shop.compile p.unit s with
  | (.ok table, s) =>
    -- installed at once: the units behind this one already see the new table
    let s := shop.install p.unit table s
    ({ b with succeeded := b.succeeded ++ [p.advance .succeeded] },
      shop.note p.name (.recompiled table.size) s)
  | (.error detail, s) =>
    let p' := p.failedWith detail
    -- back to the end of the queue, behind whatever the unit may be waiting for
    if p'.failures < budget then
      ({ b with queue := b.queue ++ [p'.advance .retrying] },
        shop.note p.name (.recompileRetry p.attempt detail) s)
    else ({ b with exhausted := b.exhausted ++ [p'.advance .failed] }, s)

/-- Makes attempts until the queue is empty, at most `bound` of them. -/
def drain (shop : Workshop S) (budget : Nat) : Nat → Batch → S → Batch × S
  | 0, b, s => (b, s)
  | bound + 1, b, s =>
    match b.queue with
    | [] => (b, s)
    | p :: rest =>
      let (b, s) := attempt shop budget p { b with queue := rest } s
      drain shop budget bound b s

/-- The most attempts that a batch of `n` units can take. -/
def bound (n budget : Nat) : Nat :=
  -- a unit is attempted once even if the budget is zero
  n * max budget 1

/-- Notes the units that were given up on. -/
def noteFailures (shop : Workshop S) (failures : List Failure) (s : S) : S :=
  failures.foldl (fun s f => shop.note f.unit (.recompileFailed f.attempts f.detail) s) s

/-- The failures of a batch. -/
def failures (b : Batch) : List Failure := b.exhausted.map Progress.failure

/-- The units that succeeded. -/
def reloaded (b : Batch) : List UnitId := b.succeeded.map (·.unit)

/-- **Running a batch** until each unit has succeeded or used up its budget. -/
def run (shop : Workshop S) (budget : Nat) (units : List (UnitId × String)) (s : S) : Batch × S :=
  let (b, s) := drain shop budget (bound units.length budget) (ofUnits units) s
  -- failures are noted when all attempts have been made
  (b, noteFailures shop b.failures s)

/-- **Running a batch in a program** with this arithmetic. There is no outcome if the program stops,
because it cannot count the attempts any further. -/
def runUnder (arith : Arithmetic) (shop : Workshop S) (budget : Nat) (units : List (UnitId × String))
    (s : S) : Option (Batch × S) :=
  let outcome := run shop budget units s
  if outcome.1.attempts.halts arith then none else some outcome

end Batch

/-- Installs a table in a unit as the mode says. -/
def World.install {σ : Type} (w : World σ) (mode : InstallMode) (u : UnitId) (table : Table Value) :
    World σ :=
  match mode with
  | .merge => w.mergeExports u table
  | .replace => w.replaceExports u table

end HotReload
