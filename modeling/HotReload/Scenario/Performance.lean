import HotReload.Scenario.DefinitionSteps
import HotReload.Scenario.ObjectSteps
import HotReload.Scenario.SessionSteps
import HotReload.Scenario.UnitSteps

/-!
# Performing scenarios

Performing a step and compiling a unit refer to each other: a reload compiles units, and compiling a
unit performs the steps of its script. `performWithin` bounds how deep compilations nest.

`Scenario.answers` performs the steps of a scenario one after the other. A step that fails answers
its fault and does not stop the rest.
-/

namespace HotReload.Scenario

open Play

/-! ### Scripts -/

/-- Performs the steps of a script up to the first one that fails and is not optional. -/
def performSteps (perform : Step → Play Answer) : List ScriptStep → Play Unit
  | [] => pure ()
  | .mk step isOptional :: rest => do
    tryCatch (discard (unpinning (perform step))) fun e =>
      if isOptional then pure () else throw e
    performSteps perform rest

/-- Ends a run with a new table. -/
def performEnding (u : UnitId) : Ending → Play (Table Value)
  | .fail message => throw (.recompile message)
  | .same => do return (← get).exports u
  | .table entries => unpinning (tableOf entries)

/-- Puts contexts in front of a detail, the first one innermost. -/
def inContexts (contexts : List String) (detail : String) : String :=
  contexts.foldl (fun detail c => c ++ ": " ++ detail) detail

/-- Performs a run of a script as the compilation of a unit. -/
def performRun (perform : Step → Play Answer) (run : Run) : Recompiler Stage := fun u r w =>
  match run with
  | .mk steps ending contexts =>
    let frame : ActiveRun := ⟨u, r, .empty⟩
    let w := { w with host := { w.host with runs := frame :: w.host.runs } }
    let play : Play (Table Value) := do
      performSteps perform steps
      performEnding u ending
    let (result, w) := (play ⟨r, some u⟩).run w
    -- the runs that the steps started are over, so this one is the innermost again
    let w := { w with host := { w.host with runs := w.host.runs.drop 1 } }
    (result.mapError fun e => inContexts contexts e.message, w)

/-- The run that the next compilation of a source performs: the last one is repeated. -/
def Source.nextRun? (s : Source) : Option Run := (s.runs[s.compiled]?).or s.runs.getLast?

/-- **Compiling** a unit: performs the next run of its source. -/
def compileWith (perform : Step → Play Answer) : Recompiler Stage := fun u r w =>
  let name := (w.unit u).name
  -- an attempt counts even if there is no source
  let s := { w.host with compiles := w.host.compiles + 1 }
  match s.sources.get? name with
  | none => (.error ("no source for unit '" ++ name ++ "'"), { w with host := s })
  | some source =>
    let source' := { source with compiled := source.compiled + 1 }
    let s := { s with sources := s.sources.insert name source' }
    match source.nextRun? with
    | none => (.error "empty script", { w with host := s })
    | some run => performRun perform run u r { w with host := s }

/-! ### Steps -/

/-- Performs a step, given how units are compiled. -/
def Step.perform (compile : Recompiler Stage) : Step → Play Answer
  | .ofUnit s => s.perform
  | .ofDefinition s => s.perform
  | .ofObject s => s.perform
  | .ofReload s => s.perform compile
  | .ofSession s => s.perform compile
  | .source unit runs => do
    onStage fun s => { s with sources := s.sources.insert unit ⟨runs, 0⟩ }
    return .null
  | .malformed needs => do
    needs.forM demand
    throw .badInput

/-- Performs a step with at most `bound` compilations around each other. -/
def performWithin : Nat → Step → Play Answer
  | 0, _ => throw (.recompile "compilations are nested too deeply")
  | bound + 1, step => step.perform (compileWith (performWithin bound))

/-- How deep compilations may nest. -/
def compileDepth : Nat := 1000000000

/-! ### Scenarios -/

/-- A line of a scenario: a step, and the name of the registry that it works on. -/
structure Line where
  registry : String
  step : Step
  deriving Inhabited

/-- The registry and the reloader that a scenario starts with. -/
def mainName : String := "main"

/-- The world before the first step: an empty registry, and a reloader over it. -/
def opening : World Stage :=
  let w : World Stage := .initial ⟨.empty, .empty, .empty, 0, .empty, .empty, [], [], []⟩
  let (h, w) := w.newHeap
  let (r, w) := w.newRegistry h
  let (g, w) := w.newGuard
  { w with host :=
    { w.host with
      registries := w.host.registries.insert mainName r
      reloaders := w.host.reloaders.insert mainName (.overHeap g r .standard) } }

/-- Performs a line. -/
def performLine (line : Line) (w : World Stage) : Except Fault Answer × World Stage :=
  match w.host.registries.get? line.registry with
  | none => (.error .badInput, w)
  | some r =>
    let play : Play Answer := do
      -- the step keeps its registry, even if the name goes to another one meanwhile
      pin [.registry r]
      performWithin compileDepth line.step
    (unpinning play ⟨r, none⟩).run w

/-- Performs lines one after the other, numbering the entities in their answers. -/
def performLines : List Line → World Stage → Numbering → List (Except Fault Answer)
  | [], _, _ => []
  | line :: rest, w, ns =>
    match performLine line w with
    -- a fault names no entity and hands out no number
    | (.error e, w) => .error e :: performLines rest w ns
    | (.ok a, w) =>
      let (a, ns) := a.numbered ns
      .ok a :: performLines rest w ns

/-- **The answers** of a scenario. -/
def answers (lines : List Line) : List (Except Fault Answer) := performLines lines opening []

end HotReload.Scenario
