import HotReload.Reload.Repair
import HotReload.Reload.Report
import HotReload.Reload.Wrapping

/-!
# Reloaders

A *reloader* reloads and wraps units of one registry. Its calls are serialised by a guard: a call
made while another one is running is refused and not queued.

* `Reloader.reload` recompiles a batch of units and repairs every reference to their old
  definitions;
* `Reloader.wrap` wraps what the units own and repairs references in the same way.

Whatever goes wrong with the call as a whole is found before anything is changed. A unit that cannot
be recompiled is not such an error: the report lists it, and its old definitions stay in use.
-/

namespace HotReload

variable {σ : Type}

/-- A **recompiler** makes the new export table of a unit against a registry, or says why there is
none. -/
abbrev Recompiler (σ : Type) :=
  UnitId → RegistryId → World σ → Except String (Table Value) × World σ

/-- Why a call to a reloader was refused. -/
inductive ReloadError where
  /-- No unit of this name is loaded. -/
  | unknownUnit (name : String)
  /-- A target refuses introspection. -/
  | introspect (e : IntrospectError)
  /-- Another call is running. -/
  | busy
  /-- The configuration is unusable. -/
  | config (e : ConfigError)
  deriving DecidableEq, Repr, Inhabited

/-- The wording of a reload error. -/
def ReloadError.message : ReloadError → String
  | unknownUnit name => "unit '" ++ name ++ "' is not loaded"
  | introspect e => "cannot snapshot target: " ++ e.message
  | busy => "a reload is already in progress on this reloader"
  | config e => "configuration error: " ++ e.message

/-- A **reloader**. -/
structure Reloader where
  guard : GuardId
  registry : RegistryId
  enumerator : Enumerator
  config : Config
  deriving Inhabited

namespace Reloader

/-- A reloader over a registry that finds objects in the heap of the registry. -/
def overHeap (guard : GuardId) (r : RegistryId) (config : Config) : Reloader :=
  ⟨guard, r, .heapOf r, config⟩

/-- The nodes that a reloader keeps alive. -/
def nodes (r : Reloader) : List Node := .registry r.registry :: r.enumerator.nodes

/-- The written form of a reloader. -/
def description (r : Reloader) (w : World σ) : String :=
  describedInPart "Reloader"
    [("units", toString (w.registry r.registry).units.size), ("config", r.config.description)]

/-! ### Before a call -/

/-- The units of the given names, each of them once. -/
def targets (w : World σ) (r : RegistryId) : List String → Except ReloadError (List UnitId)
  | [] => .ok []
  | name :: names =>
    match w.unit? r name with
    | none => .error (.unknownUnit name)
    -- a name given again adds no second target
    | some u => (targets w r names).map fun us => u :: us.filter (· ≠ u)

/-- Validates the configuration, finds the targets and opens a session on them. -/
def prepare [Host σ] (r : Reloader) (names : List String) (w : World σ) :
    Except ReloadError (List UnitId × Session) × World σ :=
  match r.config.fault? with
  | some e => (.error (.config e), w)
  | none =>
    match targets w r.registry names with
    | .error e => (.error e, w)
    | .ok us =>
      match Session.start w us r.registry r.enumerator r.config with
      | (.error e, w) => (.error (.introspect e), w)
      | (.ok s, w) => (.ok (us, s), w)

/-- Runs a call under the guard. -/
def guarded {α : Type} (r : Reloader) (call : World σ → Except ReloadError α × World σ)
    (w : World σ) : Except ReloadError α × World σ :=
  if w.isHeld r.guard then (.error .busy, w)
  else
    -- released whether the call succeeds or fails
    let (result, w) := call (w.putGuard r.guard true)
    (result, w.putGuard r.guard false)

/-- Runs a call in a session that has been prepared, with the session and its targets pinned. -/
def inSession [Host σ] {α : Type} (r : Reloader) (names : List String)
    (call : List UnitId → Session → World σ → α × World σ) (w : World σ) :
    Except ReloadError α × World σ :=
  r.guarded
    (fun w => w.holding r.nodes fun w =>
      match r.prepare names w with
      | (.error e, w) => (.error e, w)
      | (.ok (us, s), w) =>
        let (a, w) := w.holding (us.map .unit ++ s.nodes) (call us s)
        (.ok a, w))
    w

/-! ### Reloading -/

/-- The workshop of a reload: the recompiler works on the world, and events go to the journal beside
it. -/
def workshop (recompile : Recompiler σ) (r : Reloader) : Workshop (World σ × Journal) where
  compile u s :=
    let (result, w) := recompile u r.registry s.1
    (result, w, s.2)
  install u table s := (s.1.install r.config.installMode u table, s.2)
  note unit event s := (s.1, s.2.log unit event)

/-- The names of units. -/
def namesOf (w : World σ) (us : List UnitId) : List String := us.map fun u => (w.unit u).name

/-- Closes a session. -/
def report (s : Session) (reloaded : List String) (failures : List Failure) (stats : Stats) :
    Report :=
  ⟨reloaded, failures, s.references.skippedUnits, stats, s.journal.entries⟩

/-- Recompiles the targets of a session. -/
def recompileIn (recompile : Recompiler σ) (r : Reloader) (us : List UnitId) (s : Session)
    (w : World σ) : Batch × World σ × Journal :=
  Batch.run (r.workshop recompile) r.config.retryBudget (us.map fun u => (u, (w.unit u).name))
    (w, s.journal)

/-- Recompiles the targets of a session and repairs the references to those that succeeded. -/
def reloadIn [Host σ] (recompile : Recompiler σ) (r : Reloader) (us : List UnitId) (s : Session)
    (w : World σ) : Report × World σ :=
  let (b, w, journal) := r.recompileIn recompile us s w
  -- all targets have been attempted before any reference is repaired
  let (s, stats, w) := { s with journal := journal }.propagate b.reloaded w
  (report s (namesOf w b.reloaded) b.failures stats, w)

/-- **Reload** of a batch of units, given by their names. -/
def reload [Host σ] (recompile : Recompiler σ) (r : Reloader) (names : List String) (w : World σ) :
    Except ReloadError Report × World σ :=
  r.inSession names (reloadIn recompile r) w

/-- The counter of attempts after the targets of a session have been recompiled. -/
def attemptsIn (recompile : Recompiler σ) (r : Reloader) (us : List UnitId) (s : Session)
    (w : World σ) : Counter × World σ :=
  let (b, w, _) := r.recompileIn recompile us s w
  (b.attempts, w)

/-- The counter of the attempts that a reload makes. A call that is refused makes none. -/
def attempts [Host σ] (recompile : Recompiler σ) (r : Reloader) (names : List String) (w : World σ) :
    Counter :=
  match (r.inSession names (attemptsIn recompile r) w).1 with
  | .error _ => .zero
  | .ok counter => counter

/-- **Reload by a program** with this arithmetic. There is no result if the program stops, because it
cannot count the attempts any further. -/
def reloadUnder [Host σ] (arith : Arithmetic) (recompile : Recompiler σ) (r : Reloader)
    (names : List String) (w : World σ) : Option (Except ReloadError Report × World σ) :=
  if (r.attempts recompile names w).halts arith then none else some (r.reload recompile names w)

/-! ### Wrapping -/

/-- Wraps what the targets own, unit by unit, and journals it. -/
def wrapAll (wrapper : Wrapper σ) (options : WrapOptions) :
    List (UnitId × List (String × Definition)) → Session → World σ → Session × World σ
  | [], s, w => (s, w)
  | (u, defs) :: rest, s, w =>
    -- only the call itself writes to the journal of its session, so the events can wait
    let (w, events) := w.wrapDefinitions ⟨wrapper, options, fun _ w => w⟩ u defs
    wrapAll wrapper options rest
      { s with journal := s.journal.logAll (w.unit u).name events } w

/-- Wraps what the targets of a session own and repairs the references to it. -/
def wrapIn [Host σ] (wrapper : Wrapper σ) (options : WrapOptions) (us : List UnitId) (s : Session)
    (w : World σ) : Report × World σ :=
  -- read for all targets before any is wrapped
  let owned := us.map fun u => (u, w.ownDefinitions (w.unit u).name (w.exports u))
  let (s, w) := wrapAll wrapper options owned s w
  let (s, stats, w) := s.propagate us w
  (report s (namesOf w us) [] stats, w)

/-- **Wrap** of a batch of units, given by their names. -/
def wrap [Host σ] (wrapper : Wrapper σ) (options : WrapOptions) (r : Reloader) (names : List String)
    (w : World σ) : Except ReloadError Report × World σ :=
  r.inSession names (wrapIn wrapper options) w

end Reloader

end HotReload
