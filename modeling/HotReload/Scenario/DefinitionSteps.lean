import HotReload.Scenario.Stage

/-!
# Steps about callables and types
-/

namespace HotReload.Scenario

open Play

/-- Makes a callable. -/
def makeCallable (cell : Callable) : Play CallableId := do
  let (c, w) := (← get).newCallable cell
  set w
  return c

/-- The member that a declaration describes. A body becomes a callable of the home unit. -/
def declareMember (home : UnitId) (m : MemberSpec) : Play (String × Member) := do
  let c ← match m.source with
    | .callable o => callable o
    | .body e => do makeCallable ⟨((← get).unit home).name, m.name, some home, e, none⟩
  return (m.name, ⟨c, m.binding⟩)

/-- What there is to say about a definition. -/
def definitionAnswer (w : World Stage) (d : Definition) (owners : List String)
    (other : Option Definition) : Answer :=
  let home := match d with
    | .callable c => (w.callable c).home
    | .type t => some (w.type t).home
  let q := w.nameOf d
  .record
    [("def", .value w (.definition d)),
     ("kind", .text d.kind),
     ("owner", .text q.unit),
     ("name", .text q.name),
     ("qualified", .text q.text),
     ("home", ((w.aliveUnit? home).map fun u => .value w (.unit u)).getD .null),
     ("owned_by", .list (owners.map fun u => .bool (w.owns u d))),
     ("same_as", (other.map fun d' => .list [.bool (d = d'), .bool (d = d')]).getD .null)]

/-- What there is to say about a type. -/
def typeAnswer (w : World Stage) (t : TypeId) : Answer :=
  .record
    [("type", .value w (.type t)),
     ("layout", .layout (w.type t).layout),
     ("ancestors", .values w ((w.ancestors t).map .type)),
     ("subtypes", .values w ((w.subtypes t).map .type)),
     ("members", .list ((w.type t).members.entries.map fun e =>
        .list [.text e.1, .member w e.2]))]

/-- A member that may be absent. -/
def memberAnswer? (w : World Stage) (m : Option Member) : Answer :=
  (m.map (.member w)).getD (.text "absent")

namespace DefinitionStep

/-- Performs a step about callables or types. -/
def perform : DefinitionStep → Play Answer
  | callable target home name body => do
    let u ← unit home
    let c ← makeCallable ⟨((← get).unit u).name, name, some u, body, none⟩
    answer target (.callable c)
  | detached target owner name body => do
    answer target (.callable (← makeCallable ⟨owner, name, none, body, none⟩))
  | wrapping target subject body => do
    let c ← Scenario.callable subject
    let cell := (← get).callable c
    answer target (.callable (← makeCallable { cell with body := body, inner := some c }))
  | type target home name ancestors layout members => do
    let u ← unit home
    let ancestors ← types ancestors
    let members ← members.mapM (declareMember u)
    let w ← get
    let (t, w) :=
      w.declareType ⟨(w.unit u).name, name, u, layout, [], [], .ofList members⟩ ancestors
    set w
    answer target (.type t)
  | aboutDefinition subject owners other => do
    let d ← definition subject
    let other ← other.mapM value
    -- a value that is no definition is as good as none
    return definitionAnswer (← get) d owners (other.bind Value.definition?)
  | aboutType subject => do
    let t ← Scenario.type subject
    return typeAnswer (← get) t
  | setAncestors subject ancestors => do
    let t ← Scenario.type subject
    let ancestors ← types ancestors
    modify fun w => w.setAncestors t ancestors
    let w ← get
    return .values w ((w.ancestors t).map .type)
  | ownMember subject name => do
    let t ← Scenario.type subject
    let w ← get
    return memberAnswer? w (w.ownMember? t name)
  | resolve subject name => do
    let t ← Scenario.type subject
    let w ← get
    return memberAnswer? w (w.resolve? t name)
  | setMember c binding subject name => do
    let c ← Scenario.callable c
    let t ← Scenario.type subject
    let w ← get
    set (w.setMember t name ⟨c, binding⟩)
    return memberAnswer? w (w.ownMember? t name)
  | rebindMember subject name c => do
    let t ← Scenario.type subject
    let m ← orBad ((← get).ownMember? t name)
    let c ← Scenario.callable c
    let w ← get
    set (w.setMember t name { m with callable := c })
    return .member w m
  | isSubtype subject other => do
    let s ← Scenario.type subject
    let t ← Scenario.type other
    return .bool ((← get).isSubtype s t)
  | memberName subject name => do
    let t ← Scenario.type subject
    return .text ((← get).memberName t name).text
  | construct target subject args => do
    let t ← Scenario.type subject
    let args ← values args
    answer target (.object (← ofAct (World.construct World.run t args)))
  | callMember target subject name args => do
    let t ← Scenario.type subject
    let args ← values args
    answer target (← ofAct (World.callMember World.run t name args))

end DefinitionStep

end HotReload.Scenario
