import HotReload.Call
import HotReload.Reload.Reloader
import HotReload.Scenario.Answer
import HotReload.Scenario.OpenSessions
import HotReload.Scenario.Step

/-!
# The stage of a scenario

The *stage* is the host state of the world of a scenario: named registries, variables, sources,
reloaders and sessions, and the runs of scripts that are under way. All of them hold on to nodes of
the world. So do cycles of references: what has been lost on one stays alive, and the stage holds it
as leaked. Bodies of callables capture scalars only, so they hold nothing.

Steps are performed in `Play`, which knows the place where a step stands: the registry it works on,
and the unit that is being compiled if it stands in a script. Operands that a step has evaluated
stay pinned until the step is over.
-/

namespace HotReload.Scenario

/-- The source of a unit: its runs, and how often it has been compiled. -/
structure Source where
  runs : List Run
  compiled : Nat
  deriving Inhabited

/-- A run of a script that is under way. -/
structure ActiveRun where
  unit : UnitId
  registry : RegistryId
  locals : Table Value
  deriving Inhabited

/-- The **stage**. -/
structure Stage where
  registries : Table RegistryId
  vars : Table Value
  sources : Table Source
  compiles : Nat
  reloaders : Table Reloader
  sessions : OpenSessions
  /-- The innermost run comes first. -/
  runs : List ActiveRun
  /-- The names that the wrapper under way has been called with. -/
  wrapped : List String
  /-- The nodes on cycles of references that nothing else keeps alive. -/
  leaked : List Node
  deriving Inhabited

namespace Stage

/-- The nodes that a run of a script holds on to. -/
def runNodes (r : ActiveRun) : List Node :=
  .unit r.unit :: .registry r.registry :: r.locals.values.flatMap Value.nodes

/-- The nodes that the stage holds on to. -/
def nodes (s : Stage) : List Node :=
  s.registries.values.map .registry ++ s.vars.values.flatMap Value.nodes ++
    s.reloaders.values.flatMap Reloader.nodes ++ s.sessions.nodes ++ s.runs.flatMap runNodes ++
    s.leaked

end Stage

instance : Host Stage := ⟨Stage.nodes⟩

/-- True if the references from a node lead back to it. -/
def isOnCycle (w : World Stage) (n : Node) : Bool :=
  (DepthFirst.visit w.successors w.knows w.nodeCount .empty (w.successors n)).contains n

/-- The nodes that have a cell. -/
def knownNodes (w : World Stage) : List Node :=
  (List.range w.registries.size).map (.registry ⟨·⟩) ++
    (List.range w.units.size).map (.unit ⟨·⟩) ++
    (List.range w.objects.size).map (.object ⟨·⟩) ++
    (List.range w.types.size).map (.type ⟨·⟩)

/-- Finds out what is leaked: the nodes on cycles that are not alive otherwise. What such a node
refers to is alive with it. -/
def keepLeaked (w : World Stage) : World Stage :=
  let w := { w with host := { w.host with leaked := [] } }
  let living := w.living
  let leaked := (knownNodes w).filter fun n => !living.contains n && isOnCycle w n
  { w with host := { w.host with leaked := leaked } }

/-- Why a step failed. -/
inductive Fault where
  /-- The step makes no sense. -/
  | badInput
  /-- No variable of this name is set. -/
  | unbound (name : String)
  /-- No unit of this name is loaded. -/
  | notLoaded (name : String)
  /-- The unit has no export of this name. -/
  | notDefined (unit name : String)
  | call (e : CallError)
  | retype (e : RetypeError)
  | introspect (e : IntrospectError)
  | reload (e : ReloadError)
  /-- A source could not be compiled. -/
  | recompile (detail : String)
  deriving Inhabited

/-- The wording of a fault. -/
def Fault.message : Fault → String
  | badInput => "bad input"
  | unbound name => "variable " ++ name ++ " is not bound"
  | notLoaded name => "unit '" ++ name ++ "' is not loaded"
  | notDefined unit name => unit ++ "." ++ name ++ " is not defined"
  | call e => e.message
  | retype e => e.message
  | introspect e => e.message
  | reload e => e.message
  | recompile detail => detail

/-- Where a step stands. -/
structure Place where
  registry : RegistryId
  /-- The unit that is being compiled, in a script. -/
  unit : Option UnitId
  deriving Inhabited

/-- **Performing** a part of a step. -/
abbrev Play (α : Type) := ReaderT Place (ExceptT Fault (StateM (World Stage))) α

namespace Play

variable {α : Type}

/-- Fails with `badInput` if there is nothing. -/
def orBad (a : Option α) : Play α :=
  match a with
  | some a => pure a
  | none => throw .badInput

/-- Fails with `badInput` unless something holds. -/
def ensure (b : Bool) : Play Unit := if b then pure () else throw .badInput

/-- A result, with its error as a fault. -/
def ofExcept {ε : Type} (fault : ε → Fault) (a : Except ε α) : Play α :=
  match a with
  | .ok a => pure a
  | .error e => throw (fault e)

/-- Performs a call. -/
def ofAct (act : Act Stage α) : Play α := fun _ => ExceptT.mk do
  match ← act.run with
  | .ok a => pure (.ok a)
  | .error e => pure (.error (.call e))

/-- Runs something that changes the world and can fail. -/
def ofWorld {ε : Type} (fault : ε → Fault) (act : World Stage → Except ε α × World Stage) :
    Play α := do
  let (result, w) := act (← get)
  set w
  ofExcept fault result

/-- The stage. -/
def stage : Play Stage := do return (← get).host

/-- Changes the stage. -/
def onStage (f : Stage → Stage) : Play Unit := modify fun w => { w with host := f w.host }

/-- Pins nodes until the step is over. -/
def pin (nodes : List Node) : Play Unit := modify (·.pin nodes)

/-- Performs a part of a step and unpins what it has pinned. -/
def unpinning (p : Play α) : Play α := fun place => ExceptT.mk fun w =>
  let (result, w') := (p place).run w
  -- also when the part fails; a cycle can have been lost with it
  (result, keepLeaked { w' with pins := w.pins })

end Play

open Play

/-! ### Variables -/

/-- The value of a variable: one of the run under way, or else one of the stage. -/
def readVar (name : String) : Play (Option Value) := do
  let s ← stage
  match (← read).unit, s.runs with
  | some _, r :: _ =>
    -- a local of the run hides a variable of the stage
    match r.locals.get? name with
    | some v => return some v
    | none => return s.vars.get? name
  | _, _ => return s.vars.get? name

/-- Writes a variable. -/
def writeVar (isGlobal : Bool) (name : String) (v : Value) : Play Unit := do
  match (← read).unit, (← stage).runs with
  | some _, r :: rs =>
    if isGlobal then onStage fun s => { s with vars := s.vars.insert name v }
    else onStage fun s => { s with runs := { r with locals := r.locals.insert name v } :: rs }
  | _, _ => onStage fun s => { s with vars := s.vars.insert name v }

/-- Unsets a variable, and tells whether it was set. A script can unset the variables of its own
run only. -/
def dropVar (name : String) : Play Bool := do
  match (← read).unit, (← stage).runs with
  | some _, r :: rs =>
    onStage fun s => { s with runs := { r with locals := r.locals.erase name } :: rs }
    return r.locals.contains name
  | _, _ =>
    let wasSet := (← stage).vars.contains name
    onStage fun s => { s with vars := s.vars.erase name }
    return wasSet

/-! ### Operands -/

/-- The loaded unit of a name. -/
def loadedUnit (name : String) : Play UnitId := do
  match (← get).unit? (← read).registry name with
  | some u => return u
  | none => throw (.notLoaded name)

/-- The loaded units of some names, pinned until the step is over. -/
def loadedUnits (names : List String) : Play (List UnitId) := do
  let us ← names.mapM loadedUnit
  pin (us.map .unit)
  return us

/-- The value of an operand. -/
def evaluate : Operand → Play Value
  | .literal v => pure v
  | .var name => do
    match ← readVar name with
    | some v => return v
    | none => throw (.unbound name)
  | .unit name => do return .unit (← loadedUnit name)
  | .exported unit name => do
    match (← get).export? (← loadedUnit unit) name with
    | some v => return v
    | none => throw (.notDefined unit name)
  | .typeOf object => do
    let o ← orBad (← evaluate object).object?
    return .type ((← get).object o).type
  | .field object name => do
    let o ← orBad (← evaluate object).object?
    orBad ((← get).field? o name)
  | .member type name => do
    let t ← orBad (← evaluate type).type?
    let m ← orBad ((← get).resolve? t name)
    return .callable m.callable
  | .incomplete subject => do
    -- a fault of the operand comes before that of the look-up
    discard (evaluate subject)
    throw .badInput
  | .here => do return .unit (← orBad (← read).unit)
  | .malformed => throw .badInput

/-- The value of an operand, pinned until the step is over. -/
def value (o : Operand) : Play Value := do
  let v ← evaluate o
  pin v.nodes
  return v

/-- The values of operands. -/
def values (os : List Operand) : Play (List Value) := os.mapM value

/-- An operand that has to be an object. -/
def object (o : Operand) : Play ObjectId := do orBad (← value o).object?

/-- Operands that have to be objects. All of them are evaluated before any is looked at. -/
def objects (os : List Operand) : Play (List ObjectId) := do
  (← values os).mapM fun v => orBad v.object?

/-- An operand that has to be a type. -/
def type (o : Operand) : Play TypeId := do orBad (← value o).type?

/-- Operands that have to be types. All of them are evaluated before any is looked at. -/
def types (os : List Operand) : Play (List TypeId) := do
  (← values os).mapM fun v => orBad v.type?

/-- An operand that has to be a callable. -/
def callable (o : Operand) : Play CallableId := do orBad (← value o).callable?

/-- An operand that has to be a definition. -/
def definition (o : Operand) : Play Definition := do orBad (← value o).definition?

/-- An operand that has to be a unit. -/
def unit (o : Operand) : Play UnitId := do orBad (← value o).unit?

/-- True if a value is of a role. -/
def Role.admits (role : Role) (v : Value) : Bool :=
  match role with
  | .any => true
  | .object => v.object?.isSome
  | .type => v.type?.isSome
  | .callable => v.callable?.isSome
  | .definition => v.definition?.isSome
  | .unit => v.unit?.isSome

/-- A table of operands. -/
def tableOf (entries : List (String × Operand)) : Play (Table Value) := do
  return .ofList (← entries.mapM fun e => do return (e.1, ← value e.2))

/-! ### What steps answer -/

/-- Answers a value and stores it where the step says. -/
def answer (t : Target) (v : Value) : Play Answer := do
  pin v.nodes
  match t.var with
  | some name => writeVar t.isGlobal name v
  | none => pure ()
  return .value (← get) v

/-- Answers a value that may be absent and stores it if it is there. -/
def answer? (t : Target) (v : Option Value) : Play Answer := do
  match v with
  | some v => return .present? (some (← answer t v))
  | none => return .present? none

/-- The registry of a name. -/
def registryOf (name : String) : Play RegistryId := do orBad ((← stage).registries.get? name)

/-- The reloader of a name. -/
def reloaderOf (name : String) : Play Reloader := do
  let r ← orBad ((← stage).reloaders.get? name)
  pin r.nodes
  return r

/-! ### Sessions -/

/-- Changes the open sessions. -/
def onSessions (f : OpenSessions → OpenSessions) : Play Unit :=
  onStage fun s => { s with sessions := f s.sessions }

/-- The identity of the session of a name. -/
def sessionNamed (name : String) : Play SessionId := do orBad ((← stage).sessions.find? name)

/-- The session of a name. -/
def sessionOf (name : String) : Play Session := do
  let i ← sessionNamed name
  return (← stage).sessions.session i

/-- Performs a part of a step in a session, which is kept until the part is over. -/
def inSession {α : Type} (i : SessionId) (p : Play α) : Play α := do
  onSessions (·.enter i)
  let a ← tryCatch p fun e => do
    -- also when the part fails
    onSessions (·.leave i)
    throw e
  onSessions (·.leave i)
  return a

/-! ### Needs -/

/-- Fails as the step does that has this need, if the need is not met. -/
def demand : Demand → Play Unit
  | .operands os role => do (← values os).forM fun v => ensure (role.admits v)
  | .session name => discard (sessionNamed name)

end HotReload.Scenario
