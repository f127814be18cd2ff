import HotReload.Reload.Config
import HotReload.Reload.Event
import HotReload.Reload.Batch
import HotReload.World

/-!
# Steps

A *scenario* is a list of steps that build a world, change it and ask about it. This module has the
syntax of steps, of the operands in them and of the scripts that stand in for the sources of units.
A script is a list of steps too, so the types refer to each other.

What a step does is in the modules that are named for the families of steps.
-/

namespace HotReload.Scenario

/-- An **operand**: how a step names a value. -/
inductive Operand where
  /-- A scalar. -/
  | literal (v : Value)
  /-- The value of a variable. -/
  | var (name : String)
  /-- The loaded unit of a name. -/
  | unit (name : String)
  /-- What a loaded unit exports under a name. -/
  | exported (unit name : String)
  /-- The type of an object. -/
  | typeOf (object : Operand)
  /-- A field of an object. -/
  | field (object : Operand) (name : String)
  /-- The callable of a member of a type. -/
  | member (type : Operand) (name : String)
  /-- A look-up that does not say in what way or for what: the operand is evaluated, and nothing is
  found. -/
  | incomplete (subject : Operand)
  /-- The unit that is being compiled. -/
  | here
  /-- No operand at all. -/
  | malformed
  deriving Inhabited

/-- What an operand has to be. -/
inductive Role where
  | any
  | object
  | type
  | callable
  | definition
  | unit
  deriving DecidableEq, Repr, Inhabited

/-- What a step needs before it does anything. -/
inductive Demand where
  /-- That operands have values, and then that each of the values is of this role. -/
  | operands (os : List Operand) (role : Role)
  /-- That a session of this name is open. -/
  | session (name : String)
  deriving Inhabited

/-- Where a step stores the value that it answers, if anywhere. Inside a script variables belong to
the run unless they are marked global. -/
structure Target where
  var : Option String
  isGlobal : Bool
  deriving Inhabited

/-- A member in the declaration of a type: a callable made from a body, or one that exists. -/
inductive MemberSource where
  | body (e : Expr)
  | callable (o : Operand)
  deriving Inhabited

/-- A member in the declaration of a type. -/
structure MemberSpec where
  name : String
  binding : Binding
  source : MemberSource
  deriving Inhabited

/-- How a wrapper answers. -/
inductive Replacement where
  /-- With this callable. -/
  | given (o : Operand)
  /-- With the callable that it gets. -/
  | same
  /-- With a new callable around the one that it gets. -/
  | around (body : Expr)
  /-- With a new callable without a home, under these names where they are given. -/
  | detached (body : Expr) (owner name : Option String)
  deriving Inhabited

/-- A **wrapper**: the reload that it makes at each call, if any, and how it answers. -/
structure WrapperSpec where
  reenter : Option (List String × String)
  replacement : Replacement
  deriving Inhabited

/-- Steps about variables, registries and units. -/
inductive UnitStep where
  | assign (target : Target) (value : Operand)
  | drop (var : String)
  | registry (name : String) (heapOf : Option String)
  | load (target : Target) (name : String)
  | loadSealed (target : Target) (name reason : String)
  | unload (name : String)
  | units
  | contains (name : String)
  | dump
  | setExport (unit : Operand) (name : String) (value : Operand)
  | getExport (target : Target) (unit : Operand) (name : String)
  | removeExport (unit : Operand) (name : String)
  | exports (unit : Operand)
  | introspect (unit : Operand)
  | merge (unit : Operand) (table : List (String × Operand))
  | replace (unit : Operand) (table : List (String × Operand))
  | index (unit : Operand)
  | ownExports (owner : String) (unit : Operand)
  deriving Inhabited

/-- Steps about callables and types. -/
inductive DefinitionStep where
  | callable (target : Target) (home : Operand) (name : String) (body : Expr)
  | detached (target : Target) (owner name : String) (body : Expr)
  | wrapping (target : Target) (subject : Operand) (body : Expr)
  | type (target : Target) (home : Operand) (name : String) (ancestors : List Operand)
      (layout : Layout) (members : List MemberSpec)
  | aboutDefinition (subject : Operand) (owners : List String) (other : Option Operand)
  | aboutType (subject : Operand)
  | setAncestors (subject : Operand) (ancestors : List Operand)
  | ownMember (subject : Operand) (name : String)
  | resolve (subject : Operand) (name : String)
  | setMember (callable : Operand) (binding : Binding) (subject : Operand) (name : String)
  | rebindMember (subject : Operand) (name : String) (callable : Operand)
  | isSubtype (subject other : Operand)
  | memberName (subject : Operand) (name : String)
  | construct (target : Target) (subject : Operand) (args : List Operand)
  | callMember (target : Target) (subject : Operand) (name : String) (args : List Operand)
  deriving Inhabited

/-- Steps about objects, heaps and values. -/
inductive ObjectStep where
  | make (target : Target) (subject : Operand)
  | register (subject : Operand)
  | retarget (subject type : Operand)
  | typeOf (subject : Operand)
  | isInstance (subject type : Operand)
  | field (subject : Operand) (name : String)
  | setField (subject : Operand) (name : String) (value : Operand)
  | method (target : Target) (subject : Operand) (name : String) (args : List Operand)
  | transient (subject : Operand) (count : Nat)
  | heap
  | prune
  | live
  | call (target : Target) (subject : Operand) (args : List Operand)
  | describe (subject : Operand) (cell : Bool)
  | equal (a b : Operand)
  | inspect (subject : Operand)
  deriving Inhabited

/-- Steps about sources and reloaders. -/
inductive ReloadStep where
  | loadSource (target : Target) (unit : String)
  | compiles
  | reloader (name registry : String) (config : Config) (objects : Option (List Operand))
  | reload (units : List String) (reloader : String)
  | wrap (units : List String) (wrapper : WrapperSpec) (reloader : String)
      (members : Option (List String))
  deriving Inhabited

/-- Steps about sessions that the scenario has opened itself. -/
inductive SessionStep where
  | start (session : String) (units : List String) (config : Config)
      (objects : Option (List Operand))
  | info (session : String)
  | keys (session unit : String)
  | holders (session unit name : String)
  | objects (session : String) (type : Operand)
  | old (session unit : String)
  | stale (session : String) (subject : Operand)
  | events (session : String) (unit : Option String)
  | record (session : String) (level : Level) (unit : String) (event : Event)
  | propagate (session : String) (units : List String)
  | drive (session : String) (units : List String) (config : Config)
  | wrapUnit (session : String) (unit : Operand) (wrapper : WrapperSpec)
      (members : Option (List String))
  /-- Failures that cannot be read are `none`: they fail the step, but only after the session has
  been closed. -/
  | finish (session : String) (units propagated : List String) (failures : Option (List Failure))
  deriving Inhabited

mutual

/-- A **step**. -/
inductive Step where
  | ofUnit (s : UnitStep)
  | ofDefinition (s : DefinitionStep)
  | ofObject (s : ObjectStep)
  | ofReload (s : ReloadStep)
  | ofSession (s : SessionStep)
  /-- Gives a unit a source. -/
  | source (unit : String) (runs : List Run)
  /-- No step at all. The operands in front of the fault are still evaluated. -/
  | malformed (needs : List Demand)

/-- A step of a script, and whether the script goes on if the step fails. -/
inductive ScriptStep where
  | mk (step : Step) (isOptional : Bool)

/-- One **run** of a script: its steps, and how it ends. The contexts go in front of what it fails
with, the first one innermost. -/
inductive Run where
  | mk (steps : List ScriptStep) (ending : Ending) (contexts : List String)

/-- How a run ends: it fails, or it yields the exports that the unit has, or a new table. -/
inductive Ending where
  | fail (message : String)
  | same
  | table (entries : List (String × Operand))

end

instance : Inhabited Step := ⟨.malformed []⟩
instance : Inhabited Ending := ⟨.same⟩
instance : Inhabited Run := ⟨.mk [] .same []⟩

end HotReload.Scenario
