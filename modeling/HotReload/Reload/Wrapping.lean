import HotReload.Reload.Event
import HotReload.Reload.Ownership
import HotReload.World.Units

/-!
# Wrapping

Wrapping replaces every callable that a unit owns by what a wrapper makes of it, and the callables
of the members declared by the types that the unit owns. Types are changed in place, callables by a
new table that is merged over the exports. A definition that is exported under several names is
wrapped once.
-/

namespace HotReload

variable {σ : Type}

/-- A **wrapper** makes a replacement for a callable, given the callable and its qualified name. -/
abbrev Wrapper (σ : Type) := CallableId → String → World σ → CallableId × World σ

/-- Which members a wrap selects: all, or those with one of the names. -/
structure WrapOptions where
  members : Option (List String)
  deriving DecidableEq, Repr

namespace WrapOptions

/-- Selects every member. -/
def all : WrapOptions := ⟨none⟩

instance : Inhabited WrapOptions := ⟨all⟩

/-- True if members of this name are wrapped. -/
def includes (o : WrapOptions) (name : String) : Bool := o.members.all (·.contains name)

end WrapOptions

/-- What a wrap is made with: the wrapper, the members that it selects, and what takes note of an
event at the moment it happens. -/
structure WrapJob (σ : Type) where
  wrapper : Wrapper σ
  options : WrapOptions
  note : Event → World σ → World σ

/-- What a wrap has done so far: the replacements made, the types gone through, the new table, and
the events. -/
structure WrapProgress where
  replaced : List (CallableId × CallableId)
  types : List TypeId
  updates : Table Value
  events : List Event
  deriving Inhabited

namespace World

/-- Wraps one callable, unless that has been done already, and enters the replacement under
`name`. -/
def wrapCallable (job : WrapJob σ) (name : String) (c : CallableId) (p : WrapProgress)
    (w : World σ) : WrapProgress × World σ :=
  match p.replaced.lookup c with
  -- another name of a callable that has been wrapped already
  | some c' => ({ p with updates := p.updates.insert name (.callable c') }, w)
  | none =>
    let qualified := (w.callableName c).text
    -- noted before the wrapper is called, which may note events of its own
    let (c', w) := job.wrapper c qualified (job.note (.wrapped qualified) w)
    ({ p with
        replaced := p.replaced ++ [(c, c')]
        updates := p.updates.insert name (.callable c')
        events := p.events ++ [.wrapped qualified] }, w)

/-- Wraps one member of a type and keeps its binding. -/
def wrapMember (job : WrapJob σ) (t : TypeId) (name : String) (m : Member) (p : WrapProgress)
    (w : World σ) : WrapProgress × World σ :=
  let qualified := (w.memberName t name).text
  let (c', w) := job.wrapper m.callable qualified w
  -- noted when the member has been replaced
  ({ p with events := p.events ++ [.wrapped qualified] },
    job.note (.wrapped qualified) (w.setMember t name { m with callable := c' }))

/-- Wraps the selected members of a type, unless that has been done already. -/
def wrapType (job : WrapJob σ) (t : TypeId) (p : WrapProgress) (w : World σ) :
    WrapProgress × World σ :=
  if p.types.contains t then (p, w)
  else
    ((w.type t).members.entries.filter (job.options.includes ·.1)).foldl
      (fun (p, w) e => wrapMember job t e.1 e.2 p w) ({ p with types := p.types ++ [t] }, w)

/-- Wraps one definition that is exported under `name`. -/
def wrapDefinition (job : WrapJob σ) (p : WrapProgress) (w : World σ) (e : String × Definition) :
    WrapProgress × World σ :=
  match e.2 with
  | .callable c => wrapCallable job e.1 c p w
  | .type t => wrapType job t p w

/-- Wraps definitions one after the other. Those that are still to be wrapped are kept, and one that
has been wrapped is let go: what a later wrapper does may end its life. -/
def wrapEach (job : WrapJob σ) :
    List (String × Definition) → WrapProgress → World σ → WrapProgress × World σ
  | [], p, w => (p, w)
  | e :: rest, p, w =>
    let kept := (e :: rest).flatMap fun e => (Value.definition e.2).nodes
    let (p, w) := w.holding kept fun w => wrapDefinition job p w e
    wrapEach job rest p w

/-- Wraps definitions of a unit, read beforehand, and merges the replacements over its exports. -/
def wrapDefinitions (job : WrapJob σ) (u : UnitId) (defs : List (String × Definition))
    (w : World σ) : World σ × List Event :=
  -- callables are installed at the end, so the wrapper still finds the old ones
  let (p, w) := wrapEach job defs default w
  (w.mergeExports u p.updates, p.events)

/-- The definitions that a unit owns, unless it refuses introspection. -/
def introspectOwn (w : World σ) (u : UnitId) :
    Except IntrospectError (List (String × Definition)) :=
  (w.introspect u).map (w.ownDefinitions (w.unit u).name)

end World

end HotReload
