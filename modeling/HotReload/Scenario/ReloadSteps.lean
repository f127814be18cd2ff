import HotReload.Scenario.Stage

/-!
# Steps about sources and reloaders

All of them take the recompiler as a parameter: compiling a unit performs the steps of its script,
which can be steps of any family.
-/

namespace HotReload.Scenario

open Play

/-! ### Wrappers -/

/-- How a wrapper answers, once its operand has been evaluated. -/
inductive ReadyReplacement where
  | given (c : CallableId)
  | same
  | around (body : Expr)
  | detached (body : Expr) (owner name : Option String)
  deriving Inhabited

/-- A wrapper whose operands have been evaluated. -/
structure ReadyWrapper where
  reenter : Option (List String × Reloader)
  replacement : ReadyReplacement
  deriving Inhabited

/-- Evaluates the operand of a replacement. -/
def readyReplacement : Replacement → Play ReadyReplacement
  | .given o => do return .given (← callable o)
  | .same => pure .same
  | .around body => pure (.around body)
  | .detached body owner name => pure (.detached body owner name)

/-- Evaluates the operands of a wrapper. -/
def readyWrapper (s : WrapperSpec) : Play ReadyWrapper := do
  let reenter ← s.reenter.mapM fun (names, reloader) => do return (names, ← reloaderOf reloader)
  return ⟨reenter, ← readyReplacement s.replacement⟩

/-- The callable that a wrapper answers with. -/
def ReadyReplacement.make (r : ReadyReplacement) (c : CallableId) (w : World Stage) :
    CallableId × World Stage :=
  match r with
  | given c' => (c', w)
  | same => (c, w)
  | around body => w.newCallable { w.callable c with body := body, inner := some c }
  | detached body owner name =>
    w.newCallable
      ⟨owner.getD (w.callable c).owner, name.getD (w.callable c).name, none, body, some c⟩

/-- Notes what a wrapper has done. -/
def noteWrapped (w : World Stage) (line : String) : World Stage :=
  { w with host := { w.host with wrapped := w.host.wrapped ++ [line] } }

/-- The outcome of a reload in one line. -/
def reloadLine (result : Except ReloadError Report) : String :=
  match result with
  | .ok report => "reloaded " ++ ",".intercalate report.reloaded
  | .error e => e.message

/-- The wrapper that a specification describes. -/
def ReadyWrapper.wrapper (compile : Recompiler Stage) (s : ReadyWrapper) : Wrapper Stage :=
  fun c qualified w =>
    let w := noteWrapped w qualified
    let w := match s.reenter with
      | none => w
      | some (names, reloader) =>
        let (result, w) := reloader.reload compile names w
        noteWrapped w (reloadLine result)
    s.replacement.make c w

/-- Performs `act` with no names noted yet, and yields the names that it noted. -/
def collectingNames {α : Type} (act : Play α) : Play (α × List String) := do
  -- what the act wraps may wrap in turn, so the names noted outside are put aside
  let outer := (← stage).wrapped
  onStage fun s => { s with wrapped := [] }
  let a ← tryCatch act fun e => do
    onStage fun s => { s with wrapped := outer }
    throw e
  let names := (← stage).wrapped
  onStage fun s => { s with wrapped := outer }
  return (a, names)

/-- Which members a step selects. -/
def optionsOf (members : Option (List String)) : WrapOptions := ⟨members⟩

/-- The enumerator over some objects, or else over the heap of a registry. -/
def enumeratorOf (r : RegistryId) : Option (List Operand) → Play Enumerator
  | some os => do return .listed (← objects os)
  | none => pure (.heapOf r)

/-! ### Sources -/

/-- Loads a unit for the first time: compiles it and merges the table. -/
def loadSource (compile : Recompiler Stage) (name : String) : Play UnitId := do
  let r := (← read).registry
  let (u, w) := (← get).load r name
  set w
  -- the unit stays loaded, without exports, if it cannot be compiled
  pin [.unit u]
  let table ← ofWorld .recompile (compile u r)
  modify fun w => w.mergeExports u table
  return u

namespace ReloadStep

/-- Performs a step about sources or reloaders. -/
def perform (compile : Recompiler Stage) : ReloadStep → Play Answer
  | loadSource target name => do answer target (.unit (← Scenario.loadSource compile name))
  | compiles => do return .count (← stage).compiles
  | reloader name registry config listed => do
    let r ← registryOf registry
    let enumerator ← enumeratorOf r listed
    let (g, w) := (← get).newGuard
    set w
    let engine : Reloader := ⟨g, r, enumerator, config⟩
    onStage fun s => { s with reloaders := s.reloaders.insert name engine }
    let w ← get
    return .record
      [("config", .config config),
       ("units", .count (w.registry r).units.size),
       ("debug", .text (engine.description w))]
  | reload units engine => do
    let engine ← reloaderOf engine
    return .report (← ofWorld .reload (engine.reload compile units))
  | wrap units wrapper engine members => do
    let wrapper ← readyWrapper wrapper
    let engine ← reloaderOf engine
    let (report, names) ← collectingNames do
      ofWorld .reload (engine.wrap (wrapper.wrapper compile) (optionsOf members) units)
    return .record [("calls", .texts names), ("report", .report report)]

end ReloadStep

end HotReload.Scenario
